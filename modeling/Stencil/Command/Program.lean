import Stencil.Command.Run
import Stencil.Command.Render
import Stencil.Settings.Env
import Stencil.Settings.Layers

/-!
The whole program: options that hold for all commands, the settings that these are called with,
and the commands by name.
-/

namespace Stencil.Command

/-- The version of the program. -/
def version : String := "0.1.0"

def programForm : Form where
  path := "echo-pdk"
  synopsis := "[OPTIONS] [COMMAND] [ARGS]..."
  switches :=
    [{ name := "version", long := "version" },
     { name := "config", short := some 'c', long := "config", takesValue := true },
     { name := "verbose", short := some 'v', long := "verbose" },
     { name := "quiet", short := some 'q', long := "quiet" }]
  help :=
    "  echo-pdk - render, validate and evaluate Echo prompt templates.\n\n" ++
    "Options:\n" ++
    "  --version          Show the version and exit.\n" ++
    "  -c, --config PATH  Path to config file (overrides ./echo.config.yaml).\n" ++
    "  -v, --verbose      Increase verbosity (-v for INFO, -vv for DEBUG).\n" ++
    "  -q, --quiet        Suppress non-essential output (ERROR level only).\n" ++
    "  --help             Show this message and exit.\n\n" ++
    "Commands:\n" ++
    "  eval      Run eval suites (.eval files) against their prompt templates.\n" ++
    "  render    Render TEMPLATE and print the resulting prompt.\n" ++
    "  validate  Check TEMPLATE for syntax errors and likely mistakes.\n"

variable {σ : Type}

/-- A command with settings at hand and arguments left. -/
abbrev Verb (σ : Type) := Host σ → Session → List String → Act σ Unit

/-- The commands by name. -/
def commands : List (String × Verb σ) :=
  [("eval", runFiles), ("render", renderFile), ("validate", validateFile)]

/-- The name of the file with variables for the environment. -/
def environmentFile : String := ".env"

/-- The environment with the variables of the file in the working directory. -/
def environmentOf (h : Host σ) (tree : Files.Tree) : Except Failure (List (String × String)) :=
  let path := Files.Path.joined h.workingDirectory.text environmentFile
  match tree.readAt path with
  | .ok s => .ok (Settings.Env.extended h.environment s)
  | .error .notText =>
    .error (.foreign Files.Tree.Fault.notText.kind (Files.Tree.Fault.notText.message path))
  | .error _ => .ok h.environment

/-- The settings for a command, from the file that is chosen and from the layers below it. -/
def sessionOf (h : Host σ) (p : Parsed) : Act σ Session := do
  let tree ← h.tree
  let environment ← orFail (environmentOf h tree)
  let chosen := ((p.value? "config").filter (· != "")).map Files.Path.tidy
  match Settings.load tree (.of h.workingDirectory h.home environment []) chosen with
  | .ok settings => return ⟨settings, p.has "quiet", environment⟩
  | .error (.error (.settings message field value)) =>
    complain (← orFail (ofValue (settingsErrorText message field value)))
    leave failedCode
  | .error f => throw (.failed f)

/-- Read the options for all commands, and do what those ask for that end the program. -/
def readProgram (args : List String) : Act σ Parsed := do
  let p ← programForm.read false args
  match p.firstOf ["version", Form.helpSwitch.name] with
  | none => return p
  | some "version" => say ("echo-pdk, version " ++ version)
  | some _ => write programForm.helpText
  leave succeeded

/-- The command of a name. A name that looks like an option is first taken for one. -/
def findCommand (name : String) (rest : List String) : Act σ (Verb σ) := do
  match commands.lookup name with
  | some c => return c
  | none =>
    if isOption name then
      let _ ← readProgram (σ := σ) (name :: rest)
    programForm.refuse (.unknownCommand name (Text.guesses name (commands (σ := σ) |>.map (·.1))))

/-- Run the program with arguments. -/
def program (h : Host σ) (args : List String) : Act σ Unit := do
  let p ← readProgram args
  match p.words with
  | [] =>
    let _ ← sessionOf h p
    write programForm.helpText
  | name :: rest =>
    let command ← findCommand name rest
    command h (← sessionOf h p) rest

/-- What a run of the program leaves behind. -/
structure Ending where
  exitCode : Nat
  screen : Screen
  /-- A failure that the program has no words for. -/
  failure : Option Failure := none

/-- Run the program to its end. -/
def run (h : Host σ) (args : List String) : StateM σ Ending := do
  match ← ((program h args).run).run {} with
  | (.ok (), screen) => return { exitCode := succeeded, screen }
  | (.error (.exit code), screen) => return { exitCode := code, screen }
  | (.error (.failed f), screen) => return { exitCode := failedCode, screen, failure := some f }

end Stencil.Command
