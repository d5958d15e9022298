import Stencil.Command.Inputs
import Stencil.Command.Options
import Stencil.Plugin.Reference
import Stencil.Suite.Run
import Stencil.Engine.Validate

/-!
What commands run in: the files, modules and services around them, the two streams that they
write to, what they say there about errors and warnings, and the ways in which they end.
-/

namespace Stencil.Command

/-! ### Errors and warnings -/

/-- A message about an error, with details on lines of their own and a suggestion at the end. -/
def errorText (message : String) (details : List String := [])
    (suggestion : Option String := none) : String :=
  "\n".intercalate
    (("Error: " ++ message) :: (details.map ("  " ++ ·) ++
      ((suggestion.filter (· != "")).toList.map ("Suggestion: " ++ ·))))

/-- A message about settings that cannot be used, with the field and the value at fault. -/
def settingsErrorText (message : String) (field : Option String) (value : Value) :
    Except ValueFault String := do
  let fields := (field.filter (· != "")).toList.map ("Field: " ++ ·)
  let values ← match value with
    | .null => pure []
    | v => do pure ["Value: " ++ (← v.show)]
  return errorText message (fields ++ values)

def warningsText (ws : List Warning) : String :=
  "\n".intercalate (ws.map fun w => "Warning: " ++ w.text)

/-! ### Commands -/

/-- What stands around a command. -/
structure Host (σ : Type) where
  disk : Suite.Disk σ
  workingDirectory : Files.Path
  home : Files.Path
  environment : List (String × String) := []
  modules : Plugin.Modules σ := []
  store : StoreSettings → Context.Resolver σ
  memories : Engine.Memories σ
  /-- What a judge remembers that is made for one run of a suite. -/
  spare : Judgment.Memory σ
  /-- The time that goes with a recording. -/
  time : String

/-- What a command writes. -/
structure Screen where
  out : String := ""
  err : String := ""

/-- How a command ends before its end. -/
inductive Stop where
  | exit (code : Nat)
  /-- A failure that no command has words for. -/
  | failed (failure : Failure)

/-- A step of a command. -/
abbrev Act (σ : Type) := ExceptT Stop (StateT Screen (StateM σ))

variable {σ : Type}

def write (s : String) : Act σ Unit := modify fun w => { w with out := w.out ++ s }
def say (s : String) : Act σ Unit := write (s ++ "\n")
def writeError (s : String) : Act σ Unit := modify fun w => { w with err := w.err ++ s }
def complain (s : String) : Act σ Unit := writeError (s ++ "\n")

def leave {α : Type} (code : Nat) : Act σ α := throw (.exit code)

/-- Success, failure, and arguments that are wrong. -/
def succeeded : Nat := 0
def failedCode : Nat := 1
def misusedCode : Nat := 2

/-- Take a step only where a condition holds. -/
def whenever (condition : Bool) (x : Act σ Unit) : Act σ Unit :=
  if condition then x else pure ()

/-- Let a service act. -/
def within {α : Type} (m : StateM σ α) : Act σ α := liftM (m := StateT Screen (StateM σ)) (liftM m)

def orFail {α : Type} : Except Failure α → Act σ α
  | .ok a => pure a
  | .error f => throw (.failed f)

/-- Go on with a result, or say why there is none where the failure is one of this library. -/
def orComplain {α : Type} (show_ : String → String) : Except Failure α → Act σ α
  | .ok a => pure a
  | .error (.error e) => do
    writeError (show_ e.message)
    leave failedCode
  | .error f => throw (.failed f)

/-- What a command is called, the arguments that it takes, and what is said of it. -/
structure Form where
  /-- The words that call it. -/
  path : String
  synopsis : String
  switches : List Switch
  help : String

namespace Form

/-- The option for help, which every command has. -/
def helpSwitch : Switch := { name := "help", long := "help" }

def known (f : Form) : List Switch := f.switches ++ [helpSwitch]

def refuse {α : Type} (f : Form) (fault : UsageFault) : Act σ α := do
  writeError (usageText f.path f.synopsis fault)
  leave misusedCode

/-- Go on with a value, or say that the arguments are wrong. -/
def require {α : Type} (f : Form) : Except Trouble α → Act σ α
  | .ok a => pure a
  | .error (.usage fault) => f.refuse fault
  | .error (.failure failure) => throw (.failed failure)

def read (f : Form) (mixed : Bool) (args : List String) : Act σ Parsed :=
  f.require ((readArguments f.known mixed args).mapError .usage)

def helpText (f : Form) : String := "Usage: " ++ f.path ++ " " ++ f.synopsis ++ "\n\n" ++ f.help

/-- Show help where it is asked for. -/
def helpIfAsked (f : Form) (p : Parsed) : Act σ Unit := do
  if p.has helpSwitch.name then
    write f.helpText
    leave succeeded

/-- The words that stand for arguments are not more than there are arguments. -/
def noMore (f : Form) : List String → Act σ Unit
  | [] => pure ()
  | words => f.refuse (.leftOver words)

end Form

/-- The files as they are. -/
def Host.tree (h : Host σ) : Act σ Files.Tree := do return h.disk.read (← within get)

/-- A path of a file that exists, as it is shown. -/
def existingFile (tree : Files.Tree) (of path : String) : Except Trouble String :=
  match tree.look path with
  | .ok p =>
    if tree.isDirectory p then refuse of (.directory path) else .ok (Files.Path.tidy path)
  | .error .noPath =>
    .error (.failure (.foreign Files.Tree.Fault.noPath.kind (Files.Tree.Fault.noPath.message path)))
  | .error _ => refuse of (.noFile path)

/-- What a command has that is called with settings. -/
structure Session where
  settings : Settings
  quiet : Bool
  environment : List (String × String)

/-- The text of a template's file. -/
def templateText (tree : Files.Tree) (path : String) : Except Failure String :=
  match tree.readAt path with
  | .ok s => .ok s
  | .error .notText =>
    .error (.foreign Files.Tree.Fault.notText.kind (Files.Tree.Fault.notText.message path))
  | .error f =>
    .error (.error (.evaluation
      (.stated ("Cannot read template " ++ path ++ ": " ++ f.message path))))

end Stencil.Command
