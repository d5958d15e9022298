import Stencil.Failure
import Stencil.Text.Likeness

/-!
The arguments of a command: what can be wrong with them, how a command says so, and the options
among them.

A short option is a dash and a letter, and several may share one dash; a long one is two dashes and
a word. A value stands behind the letter, behind an equals sign after the word, or in the next
argument. Two dashes alone end the options.
-/

namespace Stencil.Command

/-- Why a command cannot use a value. -/
inductive ValueProblem where
  | noFile (path : String)
  | directory (path : String)
  | noChoice (text : String) (choices : List String)
  | notAPair (text : String)
  /-- A file of bindings is neither JSON nor YAML. -/
  | unreadable (detail : String)
  | notAMapping
  | noSuite (path : String)
deriving DecidableEq

def ValueProblem.message : ValueProblem → String
  | noFile path => "File " ++ Text.quoted path ++ " does not exist."
  | directory path => "File " ++ Text.quoted path ++ " is a directory."
  | noChoice text choices =>
    Text.quoted text ++ " is not one of " ++ ", ".intercalate (choices.map Text.quoted) ++ "."
  | notAPair text => "expected KEY=VALUE, got " ++ Text.quoted text
  | unreadable detail => "invalid JSON/YAML: " ++ detail
  | notAMapping => "input file must contain a mapping"
  | noSuite path => "Eval file not found: " ++ path

/-- What is wrong with arguments. -/
inductive UsageFault where
  | unknownOption (option : String) (guesses : List String)
  | unknownCommand (name : String) (guesses : List String)
  | valueGiven (option : String)
  | valueMissing (option : String)
  | argumentMissing (name : String)
  | leftOver (words : List String)
  /-- A value that an option or argument cannot have. -/
  | badValue (of : String) (problem : ValueProblem)
deriving DecidableEq

namespace UsageFault

/-- A question about what may have been meant. -/
def hint : List String → String
  | [] => ""
  | [guess] => " Did you mean " ++ Text.quoted guess ++ "?"
  | guesses => " (Did you mean one of: " ++ ", ".intercalate (guesses.map Text.quoted) ++ "?)"

def message : UsageFault → String
  | unknownOption option guesses => "No such option " ++ Text.quoted option ++ "." ++ hint guesses
  | unknownCommand name guesses => "No such command " ++ Text.quoted name ++ "." ++ hint guesses
  | valueGiven option => "Option " ++ Text.quoted option ++ " does not take a value."
  | valueMissing option => "Option " ++ Text.quoted option ++ " requires an argument."
  | argumentMissing name => "Missing argument '" ++ name ++ "'."
  | leftOver words =>
    "Got unexpected extra argument" ++ (if words.length = 1 then "" else "s") ++ " (" ++
      " ".intercalate words ++ ")"
  | badValue of problem => "Invalid value for " ++ of ++ ": " ++ problem.message

/-- The fault as the failure of an operation. -/
def failure (f : UsageFault) : Failure := .foreign "BadParameter" f.message

end UsageFault

/-- Why a command cannot work with what it is given. -/
inductive Trouble where
  | usage (fault : UsageFault)
  | failure (failure : Failure)

def Trouble.failed : Trouble → Failure
  | usage f => f.failure
  | failure f => f

/-- Refuse a value. -/
def refuse {α : Type} (of : String) (problem : ValueProblem) : Except Trouble α :=
  .error (.usage (.badValue of problem))

/-- What is shown of a command when its arguments are wrong. -/
def usageText (path synopsis : String) (fault : UsageFault) : String :=
  "Usage: " ++ path ++ " " ++ synopsis ++ "\nTry '" ++ path ++ " --help' for help.\n\nError: " ++
    fault.message ++ "\n"

/-- An option that a command knows. -/
structure Switch where
  /-- What its uses are kept under. -/
  name : String
  short : Option Char := none
  long : String
  takesValue : Bool := false

/-- A use of an option, with the value given to it. -/
structure Use where
  name : String
  value : Option String := none
deriving DecidableEq

/-- Arguments that have been read. -/
structure Parsed where
  uses : List Use := []
  /-- What is no option and no value of one. -/
  words : List String := []

namespace Parsed

/-- How often an option is used. -/
def count (p : Parsed) (name : String) : Nat := (p.uses.filter (·.name == name)).length

def has (p : Parsed) (name : String) : Bool := p.uses.any (·.name == name)

/-- The values given to an option, in order. -/
def values (p : Parsed) (name : String) : List String :=
  p.uses.filterMap fun u => if u.name == name then u.value else none

/-- The value of an option that has one value: the last given. -/
def value? (p : Parsed) (name : String) : Option String := (p.values name).getLast?

/-- The first use of any of some options. -/
def firstOf (p : Parsed) (names : List String) : Option String :=
  (p.uses.find? fun u => names.contains u.name).map (·.name)

end Parsed

/-- What one argument says. -/
structure Reading where
  uses : List Use := []
  /-- An option whose value is still due, as it is written. -/
  due : Option (Switch × String) := none

def shortForm (c : Char) : String := "-" ++ c.toString
def longForm (s : Switch) : String := "--" ++ s.long

/-- Read the letters behind one dash. -/
def readShort (known : List Switch) : List Char → Except UsageFault Reading
  | [] => .ok {}
  | c :: cs =>
    match known.find? (·.short == some c) with
    | none => .error (.unknownOption (shortForm c) [])
    | some s =>
      if s.takesValue then
        if cs.isEmpty then .ok { due := some (s, shortForm c) }
        else .ok { uses := [⟨s.name, some (String.ofList cs)⟩] }
      else do
        let r ← readShort known cs
        return { r with uses := ⟨s.name, none⟩ :: r.uses }

/-- The part of a list before the first equals sign, and the part behind it if there is one. -/
def splitEquals (cs : List Char) : List Char × Option (List Char) :=
  match cs.dropWhile (· != '=') with
  | [] => (cs, none)
  | _ :: rest => (cs.takeWhile (· != '='), some rest)

/-- Read an argument that begins with a dash. -/
def readOption (known : List Switch) (arg : String) : Except UsageFault Reading :=
  let (name, given) := splitEquals arg.toList
  let name := String.ofList name
  match known.find? fun s => longForm s == name with
  | some s =>
    match s.takesValue, given with
    | true, some v => .ok { uses := [⟨s.name, some (String.ofList v)⟩] }
    | true, none => .ok { due := some (s, name) }
    | false, some _ => .error (.valueGiven name)
    | false, none => .ok { uses := [⟨s.name, none⟩] }
  | none =>
    match arg.toList with
    | '-' :: '-' :: _ => .error (.unknownOption name (Text.guesses name (known.map longForm)))
    | _ => readShort known (arg.toList.drop 1)

/-- The argument is an option: a dash and something behind it. -/
def isOption (arg : String) : Bool :=
  match arg.toList with
  | '-' :: _ :: _ => true
  | _ => false

def Parsed.withUses (uses : List Use) (p : Parsed) : Parsed := { p with uses := uses ++ p.uses }
def Parsed.withWord (word : String) (p : Parsed) : Parsed := { p with words := word :: p.words }

/-- Read arguments. Where options may not be mixed with other words, the first word ends them. -/
def readArguments (known : List Switch) (mixed : Bool) : List String → Except UsageFault Parsed
  | [] => .ok {}
  | arg :: rest =>
    if arg == "--" then .ok { words := rest }
    else if isOption arg then do
      let r ← readOption known arg
      match r.due, rest with
      | none, rest => return (← readArguments known mixed rest).withUses r.uses
      | some (_, written), [] => throw (.valueMissing written)
      | some (s, _), v :: rest =>
        return (← readArguments known mixed rest).withUses (r.uses ++ [⟨s.name, some v⟩])
    else if mixed then do return (← readArguments known mixed rest).withWord arg
    else .ok { words := arg :: rest }

end Stencil.Command
