import Stencil.Command.Shell
import Stencil.Console.Print
import Stencil.Suite.Report

/-!
The command that runs suites.
-/

namespace Stencil.Command

def runForm : Form where
  path := "echo-pdk eval"
  synopsis := "[OPTIONS] [PATH]"
  switches :=
    [{ name := "record", long := "record" },
     { name := "filter", long := "filter", takesValue := true },
     { name := "reporter", long := "reporter", takesValue := true },
     { name := "model", long := "model", takesValue := true },
     { name := "provider", long := "provider", takesValue := true },
     { name := "plugin", long := "plugin", takesValue := true }]
  help :=
    "  Run eval suites (.eval files) against their prompt templates.\n\n" ++
    "  PATH is a suite file or a directory to search; by default every suite under\n" ++
    "  the working directory runs.\n\n" ++
    "  Examples:     echo-pdk eval     echo-pdk eval\n" ++
    "  prompts/greeting/eval/tests/smoke.eval --filter family     echo-pdk eval\n" ++
    "  --provider myapp.llm:client --record     echo-pdk eval --reporter junit >\n" ++
    "  eval-results.xml\n\n" ++
    "Options:\n" ++
    "  --record                        Save LLM responses as golden responses in the\n" ++
    "                                  test's dataset.\n" ++
    "  --filter TEXT                   Only run tests whose name contains this text\n" ++
    "                                  (case-insensitive).\n" ++
    "  --reporter [console|json|junit]\n" ++
    "                                  Output format.  [default: console]\n" ++
    "  --model TEXT                    Model for expect_llm tests when the suite\n" ++
    "                                  names none.\n" ++
    "  --provider MODULE:ATTR          Completion provider (or factory) for\n" ++
    "                                  expect_llm tests.\n" ++
    "  --plugin MODULE:ATTR            Plugin to load before running. Repeatable.\n" ++
    "  --help                          Show this message and exit.\n"

/-- The variable of the environment that names a model. -/
def modelVariable : String := "ECHO_EVAL_MODEL"

/-- How the option for a reporter is called in messages. -/
def reporterOption : String := "'--reporter'"

def reporters : List Suite.Reporter := [.console, .json, .junit]

def reporterOf (p : Parsed) : Except Trouble Suite.Reporter :=
  match p.value? "reporter" with
  | none => .ok .console
  | some name =>
    match Suite.Reporter.ofWord? name with
    | some r => .ok r
    | none => refuse reporterOption (.noChoice name (reporters.map Suite.Reporter.word))

/-- The path of a file as it is shown: from the working directory if it is below that. -/
def shownPath (workingDirectory : Files.Path) (path : String) : String :=
  match Text.dropLead? (workingDirectory.text ++ "/").toList path.toList with
  | some rest => String.ofList rest
  | none => path

variable {σ : Type}

/-- Print text with markup, lines broken. -/
def printLine (markup : String) : Act σ Unit := write (Console.printed (Console.shown markup))

/-- Print text with markup as it is. -/
def printWhole (markup : String) : Act σ Unit := write (Console.printedWhole (Console.shown markup))

/-- What a suite's file comes to: an outcome, or why there is none. -/
abbrev Ran := Except String Suite.Outcome

/-- Run the suites in files. Only a failure that is none of this library stops the others. -/
def runSuites (b : Suite.Bench σ) (o : Suite.RunOptions) :
    List String → Act σ (List (String × Ran))
  | [] => return []
  | path :: paths => do
    let ran : Ran ← match ← within (Suite.runFile b o path) with
      | .ok outcome => pure (.ok outcome)
      | .error (.error e) => pure (.error e.message)
      | .error f => throw (.failed f)
    return (path, ran) :: (← runSuites b o paths)

/-- Show what the suite of a file comes to. -/
def showRan (reporter : Suite.Reporter) (shown : String) : Ran → Act σ Unit
  | .error m =>
    writeError (Console.printedWhole (errorText ("Error running " ++ shown ++ ": " ++ m)))
  | .ok outcome => do
    let text ← orFail (ofValue (outcome.report reporter))
    if reporter == .console then
      printLine (Suite.tagged "bold" (Text.escapeMarkup shown))
      printWhole text
    else say text

/-- The sum of all suites. -/
def showSummary (outcomes : List Suite.Outcome) : Act σ Unit := do
  let sum (count : Suite.Summary → Nat) : String :=
    Number.natText (outcomes.foldl (fun n o => n + count o.summary) 0)
  printLine ("\n" ++ Suite.tagged "bold" "Overall Summary:")
  printLine ("  Suites: " ++ Number.natText outcomes.length)
  printLine ("  Tests:  " ++ sum (·.passed) ++ " passed, " ++ sum (·.failed) ++ " failed, " ++
    sum (·.total) ++ " total")

def Ran.passed : Ran → Bool
  | .ok o => o.status == .pass
  | .error _ => false

/-- The completion service that arguments name. -/
def providerOf (h : Host σ) (p : Parsed) : Except Failure (Option (Completion.Provider σ)) :=
  ((p.value? "provider").filter (· != "")).mapM fun reference =>
    (Plugin.loadProvider h.modules reference).map (·.2)

/-- The plugins that arguments name. -/
def pluginsOf (h : Host σ) (p : Parsed) : Except Failure (List (Plugin σ)) :=
  (p.values "plugin").mapM (Plugin.load h.modules)

/-- What arguments ask of the runs. The environment names a model where they name none. -/
def optionsOf (session : Session) (p : Parsed) : Suite.RunOptions where
  filter := p.value? "filter"
  record := p.has "record"
  model := (p.value? "model").or ((session.environment.lookup modelVariable).filter (· != ""))

/-- What the suites of a call are run with. -/
def benchOf (h : Host σ) (settings : Settings) (provider : Option (Completion.Provider σ))
    (plugins : List (Plugin σ)) : Suite.Bench σ where
  settings := settings
  provider := provider
  plugins := plugins
  store := h.store
  memories := h.memories
  spare := h.spare
  disk := h.disk
  workingDirectory := h.workingDirectory
  time := h.time

/-- Show what the files came to. The command fails unless all passed. -/
def conclude (h : Host σ) (reporter : Suite.Reporter) (options : Suite.RunOptions)
    (all : List (String × Ran)) : Act σ Unit := do
  all.forM fun e => showRan reporter (shownPath h.workingDirectory e.1) e.2
  let outcomes := all.filterMap fun e => e.2.toOption
  whenever (reporter == .console && 1 < outcomes.length) (showSummary outcomes)
  whenever (options.record && reporter == .console)
    (printLine (Suite.tagged "cyan" "Golden responses recorded to .dset files"))
  whenever (!(all.all fun e => Ran.passed e.2)) (leave failedCode)

/-- Run the suites in the files that were found. -/
def runFound (h : Host σ) (session : Session) (p : Parsed) (reporter : Suite.Reporter)
    (files : List String) : Act σ Unit := do
  let fault (m : String) : String := Console.printedWhole (errorText m)
  let provider ← orComplain fault (providerOf h p)
  let plugins ← orComplain fault (pluginsOf h p)
  whenever (provider.isNone && reporter == .console)
    (printLine (Suite.tagged "dim"
      "No completion provider configured; expect_llm tests will error."))
  let options := optionsOf session p
  conclude h reporter options
    (← runSuites (benchOf h session.settings provider plugins) options files)

/-- Run the suites that arguments ask for. -/
def runFiles (h : Host σ) (session : Session) (args : List String) : Act σ Unit := do
  let f := runForm
  let p ← f.read true args
  f.helpIfAsked p
  let reporter ← f.require (reporterOf p)
  f.noMore (p.words.drop 1)
  let files ← f.require (findSuites (← h.tree) h.workingDirectory p.words.head?)
  if files.isEmpty then
    printLine "No .eval files found."
    printLine (Suite.tagged "dim" "Create one in eval/tests/ within a prompt directory.")
  else runFound h session p reporter files

end Stencil.Command
