import Stencil.Json.Writer
import Stencil.Log.Message
import Stencil.Text.Case

/-!
Log lines: events with fields, one JSON object to a line. Fields that are bound go with every
line that follows, and a line's own fields count before them.
-/

namespace Stencil.Log

inductive Level where
  | debug
  | info
  | warning
  | error
  | critical
deriving DecidableEq

namespace Level

def word : Level → String
  | debug => "debug"
  | info => "info"
  | warning => "warning"
  | error => "error"
  | critical => "critical"

/-- The weight that thresholds are compared with. -/
def weight : Level → Int
  | debug => 10
  | info => 20
  | warning => 30
  | error => 40
  | critical => 50

def ofWord? : String → Option Level
  | "debug" => some debug
  | "info" => some info
  | "warning" | "warn" => some warning
  | "error" => some error
  | "critical" | "fatal" => some critical
  | _ => none

end Level

/-- The variable of the environment that names the least level. -/
def levelVariable : String := "ECHO_LOG_LEVEL"

/-- The weight that a name of the environment stands for. -/
def thresholdOf (name : String) : Int :=
  match Text.upper name with
  | "NOTSET" => 0
  | "DEBUG" => 10
  | "INFO" => 20
  | "WARNING" | "WARN" => 30
  | "ERROR" => 40
  | "CRITICAL" | "FATAL" => 50
  | _ => Level.warning.weight

/-- The least weight of lines that are written: one that is chosen, else that of the
environment, else that of warnings. -/
def threshold (environment : List (String × String)) (chosen : Option Int) : Int :=
  chosen.getD (((environment.lookup levelVariable).map thresholdOf).getD Level.warning.weight)

/-- Something to be logged. -/
structure Event where
  level : Level
  logger : String
  message : String
  args : List Value := []
  fields : Bindings := []

/-- The name of the logger that has none. -/
def rootLogger : String := "root"

/-- A field's value as a line has it: bytes as the text that they are. -/
def fieldValue : Value → Value
  | .bytes bs => .text (Text.lenientUtf8 bs)
  | v => v

/-- The fields of an event's line, those that are bound behind its own. -/
def Event.line (e : Event) (bound : Bindings) : Except MessageFault Bindings := do
  let message ← filled e.message e.args
  let own := e.fields.insert "event" (.text message)
  let all := bound.foldl (fun acc f => if (acc.find? f.1).isSome then acc else acc ++ [f]) own
  let named := (all.insert "level" (.text e.level.word)).insert "logger"
    (.text (if e.logger == "" then rootLogger else e.logger))
  return named.map fun f => (f.1, fieldValue f.2)

/-- An entry of a log. -/
inductive Step where
  /-- Bind fields for the lines that follow. -/
  | bind (fields : Bindings)
  /-- Forget all fields that are bound. -/
  | clear
  | event (e : Event)

/-- The lines of steps that weigh enough, under fields that are bound. -/
def linesFrom (threshold : Int) :
    (bound : Bindings) → List Step → Except MessageFault (List Bindings)
  | _, [] => .ok []
  | bound, .bind fields :: steps => linesFrom threshold (bound.merge fields) steps
  | _, .clear :: steps => linesFrom threshold [] steps
  | bound, .event e :: steps => do
    let line ← e.line bound
    let rest ← linesFrom threshold bound steps
    return if threshold ≤ e.level.weight then line :: rest else rest

/-- A line in writing. What has no form of its own in JSON is quoted. -/
def written (line : Bindings) : Except ValueFault String :=
  Json.write { others := .quoted } (.ofBindings line)

/-- What steps write. A line that cannot be written is left out. -/
def output (threshold : Int) (steps : List Step) : Except MessageFault (List String) :=
  (linesFrom threshold [] steps).map fun ls => ls.filterMap fun l => (written l).toOption

end Stencil.Log
