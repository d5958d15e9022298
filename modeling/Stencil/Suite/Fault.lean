import Stencil.Files.Tree
import Stencil.Record.Read
import Stencil.Yaml.Read

/-!
Why a suite or a dataset cannot be used.
-/

namespace Stencil

/-- What is wrong with the file of a suite or a dataset, or with what is asked of it. -/
inductive SuiteFault where
  /-- The text is not YAML. -/
  | notYaml (detail : String)
  /-- The file holds something else than a mapping. -/
  | notMapping (fileKind : String)
  | missing (field : String)
  | missingOrEmpty (field : String)
  | namelessTest (index : Nat)
  | notList (test field : String)
  | emptyAssertion (test : String) (index : Nat)
  | unsupportedOperator (test operator : String)
  | unknownOperator (test operator : String)
  | withoutAssertions (test : String)
  | namelessSet (index : Nat)
  /-- Fields have values that they cannot have. -/
  | complaints (report : String)
  | unreadable (detail : String)
  | noSet (dataset name : String) (available : List String)
  | withoutSets (dataset : String)
deriving DecidableEq

namespace SuiteFault

open Number (natText)

def inQuotes (s : String) : String := "\"" ++ s ++ "\""

def message : SuiteFault → String
  | notYaml detail => "YAML syntax error: " ++ detail
  | notMapping fileKind => "Invalid " ++ fileKind ++ " file: expected YAML object"
  | missing field => "Missing required field: " ++ field
  | missingOrEmpty field => "Missing or empty required field: " ++ field
  | namelessTest i => "Test at index " ++ natText i ++ " missing required field: name"
  | notList test field => "Test " ++ inQuotes test ++ ": " ++ field ++ " must be a list"
  | emptyAssertion test i =>
    "Empty assertion at index " ++ natText i ++ " in test " ++ inQuotes test
  | unsupportedOperator test op =>
    "Assertion operator " ++ inQuotes op ++ " in test " ++ inQuotes test ++ " is not supported"
  | unknownOperator test op =>
    "Unknown assertion operator " ++ inQuotes op ++ " in test " ++ inQuotes test
  | withoutAssertions test =>
    "Test " ++ inQuotes test ++ " has no assertions (need expect_render or expect_llm)"
  | namelessSet i => "Parameter set at index " ++ natText i ++ " missing required field: name"
  | complaints report => "Schema validation failed: " ++ report
  | unreadable detail => "Cannot read file: " ++ detail
  | noSet dataset name available =>
    "Parameter set " ++ inQuotes name ++ " not found in dataset " ++ inQuotes dataset ++
      ". Available: " ++ ", ".intercalate available
  | withoutSets dataset => "Dataset " ++ inQuotes dataset ++ " has no parameter sets"

/-- The fault as a failure, with the file that it is about. -/
def failure (f : SuiteFault) (source : Option String) : Failure :=
  .error (.suiteFile f.message source)

end SuiteFault

namespace Suite

/-- The entries of a file that holds a mapping. -/
def mappingOf (content fileKind : String) (source : Option String) :
    Except Failure (List (Value × Value)) :=
  match Yaml.read content with
  | .ok (.dict entries) => .ok entries
  | .ok _ => .error ((SuiteFault.notMapping fileKind).failure source)
  | .error (.malformed what) => .error ((SuiteFault.notYaml what).failure source)
  | .error f => .error f.failure

/-- A record that was read, or the complaints about it. -/
def accepted {α : Type} (source : Option String) : Record.Checked α → Except Failure α
  | .ok a => .ok a
  | .refused c cs =>
    .error ((SuiteFault.complaints (Record.Checked.report (c :: cs))).failure source)

/-- The text under a name, if there is one. -/
def textAt? (name : String) (entries : List (Value × Value)) : Option String :=
  match Value.named? name entries with
  | some (.text s) => some s
  | _ => none

/-- The items of the list under a name, if there are any. -/
def itemsAt? (name : String) (entries : List (Value × Value)) : Option (List Value) :=
  match Value.named? name entries with
  | some (.list (v :: vs)) => some (v :: vs)
  | _ => none

/-- A value under a name where it is a mapping, else the empty mapping. -/
def nestedAt (name : String) (entries : List (Value × Value)) : Option Value :=
  match Value.named? name entries with
  | some (.dict inner) => some (.dict inner)
  | _ => none

/-- The text of the file at a path. -/
def fileText (tree : Files.Tree) (path : String) : Except Failure String :=
  match tree.readAt path with
  | .ok s => .ok s
  | .error .noPath =>
    .error (.foreign Files.Tree.Fault.noPath.kind (Files.Tree.Fault.noPath.message path))
  | .error f => .error ((SuiteFault.unreadable (f.message path)).failure (some path))

end Suite

end Stencil
