import Stencil.Suite.Read
import Stencil.Json.Writer
import Stencil.Text.Search
import Stencil.Text.Markup
import Stencil.Suite.Basic

/-!
Suites and their outcomes as mappings, and outcomes as texts: for a console, as JSON, and as XML for
build servers.
-/

namespace Stencil.Suite

/-! ### Mappings -/

def Assertion.toValue (a : Assertion) : Value :=
  .ofBindings [("operator", .text a.operator), ("value", a.value)]

def listValue (as : Option (List Assertion)) : Value :=
  match as with
  | none => .null
  | some as => .list (as.map Assertion.toValue)

def Test.toValue (t : Test) : Value :=
  .ofBindings [("name", .text t.name),
    ("given", match t.given with
      | none => .null
      | some b => .ofBindings b),
    ("dataset", .ofOptText t.dataset), ("params", .ofOptText t.params),
    ("expect_render", listValue t.rendered), ("expect_llm", listValue t.completed)]

def Config.toValue (c : Config) : Value :=
  .ofBindings [("target", .text c.target), ("model", .ofOptText c.model),
    ("timeout", match c.timeout with
      | none => .null
      | some x => .float x)]

/-- A suite as a mapping; what it has not is null. -/
def toValue (s : Suite) : Value :=
  .ofBindings [("suite", .text s.name), ("config", s.config.toValue),
    ("tests", .list (s.tests.map Test.toValue))]

def Finding.toValue (f : Finding) : Value :=
  .ofBindings [("operator", .text f.operator), ("status", .text f.status.word),
    ("expected", .ofOptText f.expected), ("actual", .ofOptText f.actual),
    ("message", .ofOptText f.message)]

def TestResult.toValue (t : TestResult) : Value :=
  .ofBindings [("name", .text t.name), ("status", .text t.status.word),
    ("assertions", .list (t.findings.map Finding.toValue)), ("duration_ms", .int t.milliseconds),
    ("rendered_output", .ofOptText t.rendered), ("llm_response", .ofOptText t.completed),
    ("error", .ofOptText t.error)]

def Summary.toValue (s : Summary) : Value :=
  .ofBindings [("total", .int s.total), ("passed", .int s.passed), ("failed", .int s.failed),
    ("errored", .int s.errored), ("duration_ms", .int s.milliseconds)]

def Outcome.toValue (o : Outcome) : Value :=
  .ofBindings [("suite_name", .text o.name), ("status", .text o.status.word),
    ("tests", .list (o.tests.map TestResult.toValue)), ("summary", o.summary.toValue),
    ("error", .ofOptText o.error)]

/-- The forms that an outcome can have. -/
inductive Reporter where
  | console
  | json
  | junit
deriving DecidableEq

namespace Reporter

def word : Reporter → String
  | console => "console"
  | json => "json"
  | junit => "junit"

def ofWord? : String → Option Reporter
  | "console" => some console
  | "json" => some json
  | "junit" => some junit
  | _ => none

/-- The form of a name. -/
def find (name : String) : Except Failure Reporter :=
  match ofWord? name with
  | some r => .ok r
  | none => .error (.foreign "ValueError" (Text.quoted name ++ " is not a valid EvalReporter"))

end Reporter

/-- The text, unless it is absent or empty. -/
def given? (s : Option String) : Option String := s.filter (· != "")

/-! ### Console -/

open Text (escapeMarkup)

def tagged (tag s : String) : String := "[" ++ tag ++ "]" ++ s ++ "[/" ++ tag ++ "]"

def Status.icon : Status → String
  | pass => tagged "green" "✓"
  | fail => tagged "red" "✗"
  | error => tagged "yellow" "!"

def rule : String := tagged "dim" (String.ofList (List.replicate 60 '-'))

def shownTime (ms : Int) : String := tagged "dim" ("(" ++ Number.intText ms ++ "ms)")

def errorLine (indent : String) (error : Option String) : List String :=
  (given? error).toList.map fun e => indent ++ tagged "red" ("Error: " ++ escapeMarkup e)

/-- A text over several lines, under a label. -/
def labelled (label : String) (text : Option String) : List String :=
  match text with
  | none => []
  | some s =>
    ("    " ++ tagged "dim" (label ++ ":")) ::
      (Text.newlineLines s).map fun line => "    " ++ tagged "dim" ("  " ++ escapeMarkup line)

/-- Findings of judges are shown even where the expectation is met. -/
def Finding.isShown (f : Finding) : Bool :=
  f.status != .pass || f.operator == Operator.judged.word || f.operator == Operator.sentiment.word

def Finding.consoleLines (f : Finding) : List String :=
  if !f.isShown then []
  else
    let passed := f.status == .pass
    let message := (given? f.message).getD (if passed then "passed" else f.operator ++ " failed")
    let detail (label : String) (s : Option String) : List String :=
      if passed then []
      else (given? s).toList.map fun s => "      " ++ tagged "dim" (label ++ escapeMarkup s)
    ("    " ++ f.status.icon ++ " " ++ f.operator ++ ": " ++ escapeMarkup message) ::
      (detail "expected: " f.expected ++ detail "actual:   " f.actual)

def TestResult.consoleLines (t : TestResult) : List String :=
  ("  " ++ t.status.icon ++ " " ++ escapeMarkup t.name ++ " " ++ shownTime t.milliseconds) ::
    (errorLine "    " t.error ++ labelled "Rendered prompt" t.rendered ++
      labelled "LLM response"
        (t.completed.map fun s => if s == "" then "(empty response)" else s) ++
      t.findings.flatMap Finding.consoleLines)

def Summary.consoleLine (s : Summary) : String :=
  let count (n : Nat) (tag word : String) : List String :=
    if n = 0 then [] else [tagged tag (Number.natText n ++ " " ++ word)]
  let parts := count s.passed "green" "passed" ++ count s.failed "red" "failed" ++
    count s.errored "yellow" "errored" ++ [Number.natText s.total ++ " total"]
  "  " ++ ", ".intercalate parts ++ " " ++ shownTime s.milliseconds

/-- The outcome in the markup of a console. -/
def Outcome.console (o : Outcome) : String :=
  "\n".intercalate
    ([tagged "bold" (o.status.icon ++ " " ++ escapeMarkup o.name), rule] ++
      errorLine "  " o.error ++ o.tests.flatMap TestResult.consoleLines ++
      [rule, o.summary.consoleLine])

/-! ### XML -/

open Text (escapeXml quoteAttribute)

/-- Milliseconds as seconds with three decimal places. -/
def shownSeconds (ms : Int) : Except ValueFault String :=
  match Double.ofRatio (ms < 0) ms.natAbs 1000 with
  | .finite s m e h => .ok (Number.fixedText 3 (.finite s m e h))
  | _ => .error .quotientBeyondDouble

/-- An error in one element. -/
def errorElement (message : String) : String :=
  "    <error message=" ++ quoteAttribute message ++ ">" ++ escapeXml message ++ "</error>"

/-- The messages of findings, each with a word for one that has none. -/
def joinedMessages (word : String) (fs : List Finding) : String :=
  "; ".intercalate (fs.map fun f => (given? f.message).getD (f.operator ++ " " ++ word))

def Finding.xmlLines (f : Finding) : List String :=
  ("      [" ++ f.operator ++ "] " ++ escapeXml ((given? f.message).getD "failed")) ::
    (((given? f.expected).toList.map fun s => "        expected: " ++ escapeXml s) ++
      ((given? f.actual).toList.map fun s => "        actual: " ++ escapeXml s))

/-- What is inside the element of a test. -/
def TestResult.problemLines (t : TestResult) : List String :=
  match t.status with
  | .pass => []
  | .fail =>
    let failed := t.findings.filter (·.status == .fail)
    ["    <failure message=" ++ quoteAttribute (joinedMessages "failed" failed) ++ ">"] ++
      failed.flatMap Finding.xmlLines ++ ["    </failure>"]
  | .error =>
    let errored := t.findings.filter (·.status == .error)
    [errorElement ((given? t.error).getD (joinedMessages "errored" errored))]

def TestResult.xmlLines (t : TestResult) : Except ValueFault (List String) := do
  let seconds ← shownSeconds t.milliseconds
  return ["  <testcase name=" ++ quoteAttribute t.name ++ " time=\"" ++ seconds ++ "\">"] ++
    t.problemLines ++ ["  </testcase>"]

def testLines : List TestResult → Except ValueFault (List String)
  | [] => .ok []
  | t :: ts => do return (← t.xmlLines) ++ (← testLines ts)

/-- The element of a suite that could not be run, which counts as one more error. -/
def Outcome.errorLines (o : Outcome) : List String :=
  match given? o.error with
  | none => []
  | some e =>
    ["  <testcase name=" ++ quoteAttribute o.name ++ ">", errorElement e, "  </testcase>"]

/-- The outcome as XML. -/
def Outcome.junit (o : Outcome) : Except ValueFault String := do
  let errors := o.summary.errored + if (given? o.error).isSome then 1 else 0
  let counted (name : String) (n : Nat) : String :=
    " " ++ name ++ "=\"" ++ Number.natText n ++ "\""
  let seconds ← shownSeconds o.summary.milliseconds
  let cases ← testLines o.tests
  return "\n".intercalate
    (["<?xml version=\"1.0\" encoding=\"UTF-8\"?>",
      "<testsuite name=" ++ quoteAttribute o.name ++ counted "tests" o.summary.total ++
        counted "failures" o.summary.failed ++ counted "errors" errors ++ " time=\"" ++
        seconds ++ "\">"] ++
      o.errorLines ++ cases ++ ["</testsuite>"])

/-- The outcome in a form. -/
def Outcome.report (o : Outcome) : Reporter → Except ValueFault String
  | .console => .ok o.console
  | .json => Json.write { indent := some 2 } o.toValue
  | .junit => o.junit

end Stencil.Suite
