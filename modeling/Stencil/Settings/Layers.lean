import Stencil.Files.Tree
import Stencil.Json.Reader
import Stencil.Settings.Read
import Stencil.Text.Case
import Stencil.Yaml.Read

/-!
Settings from layers: those given outright count before variables of the environment, these
before the file of the project, and that before the file of the user. Mappings in several layers
are joined entry by entry.
-/

namespace Stencil.Settings

/-- The entries of a mapping. -/
abbrev Entries := List (Value × Value)

mutual

/-- A value over another one of a lower layer. -/
def overlay : (high low : Value) → Value
  | .dict entries, .dict below => .dict (overlayEntries entries below)
  | high, _ => high

/-- The entries of a layer put over those of a lower one. -/
def overlayEntries : (high low : Entries) → Entries
  | [], low => low
  | (k, v) :: rest, low =>
    let v' := match Value.entry? k low with
      | some old => overlay v old
      | none => v
    overlayEntries rest (Value.insertEntry k v' low)

end

/-! ### Variables of the environment -/

/-- What stands before the names of all variables that count, in lower case. -/
def lead : String := "echo_"

/-- What stands between the names of a field and a field inside it. -/
def nesting : String := "__"

/-- The parts of a text between the marks. -/
def partsOf (mark : List Char) : (fuel : Nat) → List Char → List (List Char)
  | 0, cs => [cs]
  | n + 1, cs =>
    match Text.cutAt? mark cs with
    | some (before, rest) => before :: partsOf mark n rest
    | none => [cs]

/-- Put a text at the end of a way through mappings, which are made where there are none. Where
something else stands in the way, nothing is put. -/
def putAt (text : String) : List String → Value → Value
  | [], _ => .text text
  | [name], .dict entries => .dict (Value.insertEntry (.text name) (.text text) entries)
  | name :: way, .dict entries =>
    let inner := (Value.named? name entries).getD (.dict [])
    .dict (Value.insertEntry (.text name) (putAt text way inner) entries)
  | _, v => v

/-- The mapping that the variables for fields inside a field make up. -/
def inside (vars : List (String × String)) (field : String) : Value :=
  vars.foldl
    (fun acc e =>
      match Text.dropLead? (lead ++ field ++ nesting).toList e.1.toList with
      | some rest => putAt e.2 ((partsOf nesting.toList rest.length rest).map String.ofList) acc
      | none => acc)
    (.dict [])

/-- The name of a field that a key stands for but for case, else the key. -/
def fieldName (fields : List String) (key : Value) : Value :=
  match key with
  | .text s =>
    match fields.find? fun f => f == Text.lower s with
    | some f => .text f
    | none => key
  | _ => key

/-- A mapping with keys as the fields are named. -/
def named (fields : List String) : Value → Value
  | .dict entries => Value.dictOf (entries.map fun e => (fieldName fields e.1, e.2))
  | v => v

/-- The fields of a field that is a record, for a field that is one. -/
def recordFields : List (String × List String) :=
  [("ai_provider", ["type", "api_key", "model", "temperature", "max_tokens", "timeout"]),
   ("context_store",
    ["server_url", "auth", "prompt_id", "timeout", "max_retries", "rate_limit", "rate_period"])]

/-- The value of a field that is a record: JSON, with what variables say about its own fields. A
text that is no JSON stays a text. -/
def recordOf (vars : List (String × String)) (field : String) (fields : List String) :
    Option Value :=
  let own := inside vars field
  match vars.lookup (lead ++ field) with
  | none => if own.truthy then some (named fields own) else none
  | some s =>
    match Json.read s with
    | .error _ => some (.text s)
    | .ok .null => none
    | .ok (.dict entries) => some (named fields (overlay own (.dict entries)))
    | .ok v => some v

/-- The fields that hold a single value. -/
def plainFields : List String :=
  ["strict", "missing_variable", "trim", "collapse_newlines", "judge_cache_ttl",
   "evaluation_timeout", "import_root"]

/-- The names of the variables that count, in upper case. -/
def variableNames : List String :=
  (plainFields.map (lead ++ ·) ++ recordFields.flatMap fun (f, fields) =>
    (lead ++ f) :: fields.map fun inner => lead ++ f ++ nesting ++ inner).map Text.upper

/-- The variables under their names in lower case; a later one counts. -/
def lowered (env : List (String × String)) : List (String × String) :=
  env.foldl
    (fun acc e =>
      let k := Text.lower e.1
      if acc.any (·.1 == k) then acc.map fun f => if f.1 == k then (k, e.2) else f
      else acc ++ [(k, e.2)])
    []

/-- What the environment says about fields. -/
def fromEnvironment (env : List (String × String)) : Entries :=
  let vars := lowered env
  (plainFields.filterMap fun f => (vars.lookup (lead ++ f)).map fun s => (.text f, .text s)) ++
    recordFields.filterMap fun (f, fields) => (recordOf vars f fields).map fun v => (.text f, v)

/-! ### Files -/

/-- What a file says about fields. One that does not exist, or is empty, says nothing. -/
def fromFile (tree : Files.Tree) (path : String) : Except Failure Entries :=
  match tree.readAt path with
  | .error f =>
    if f == .notFound || f == .notDirectory then .ok []
    else .error (.foreign f.kind (f.message path))
  | .ok content =>
    match Yaml.read content with
    | .ok .null => .ok []
    | .ok (.dict entries) => .ok entries
    | .ok v =>
      .error (.error (.settings ("Config file " ++ path ++ " must contain a mapping") none v))
    | .error (.malformed what) =>
      .error (.error (.settings ("Invalid YAML in " ++ path ++ ": " ++ what) none .null))
    | .error f => .error f.failure

/-- Where settings come from. -/
structure Layers where
  /-- Given outright. -/
  given : Entries := []
  environment : List (String × String) := []
  /-- The paths of the files. -/
  project : String
  user : String

/-- The name of the project's file in the working directory. -/
def projectFile : String := "echo.config.yaml"

/-- The path of the user's file, seen from the home directory. -/
def userFile : String := ".config/echo-pdk/config.yaml"

/-- The layers of a working directory and a home directory. -/
def Layers.of (workingDirectory home : Files.Path) (environment : List (String × String))
    (given : Entries) : Layers where
  given
  environment
  project := Files.Path.joined workingDirectory.text projectFile
  user := Files.Path.joined home.text userFile

def isText : Value → Bool
  | .text _ => true
  | _ => false

/-- The settings that layers make up, or the complaints about them. -/
def ofLayers (tree : Files.Tree) (l : Layers) : Except Failure (Record.Checked Settings) := do
  let project ← fromFile tree l.project
  let user ← fromFile tree l.user
  let all := overlayEntries l.given
    (overlayEntries (fromEnvironment l.environment) (overlayEntries project user))
  if all.all fun e => isText e.1 then return Settings.read (.dict all)
  else throw (.foreign "TypeError" "keywords must be strings")

/-- The failure of settings that cannot be used: the first complaint. -/
def refusal (c : Record.Complaint) : Failure :=
  .error (.settings ("Invalid configuration: " ++ c.fault.message) (some c.field) c.value)

def isNull : Value → Bool
  | .null => true
  | _ => false

/-- The settings for a session. A project file that is chosen must exist; what is given as null
counts as not given. -/
def load (tree : Files.Tree) (l : Layers) (chosen : Option String) : Except Failure Settings := do
  let l := { l with given := l.given.filter fun e => !isNull e.2, project := chosen.getD l.project }
  if let some path := chosen then
    let found := (tree.place path).toOption.any tree.holds
    if !found then
      throw (.error
        (.settings ("Config file not found: " ++ path) (some "config_path") (.text path)))
  match ← ofLayers tree l with
  | .ok s => return s
  | .refused c _ => throw (refusal c)

end Stencil.Settings
