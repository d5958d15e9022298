import Stencil.Completion.Basic
import Stencil.Suite.Fault
import Stencil.Value.Equal
import Stencil.Yaml.Write

/-!
Datasets: named sets of parameters for a template, and a response recorded for reference. How they
are read from files, and how those of a prompt are kept in files below its directory. Each is
loaded once.
-/

namespace Stencil

/-- A recorded response. -/
structure Golden where
  response : String := ""
  model : Option String := none
  /-- When it was recorded. -/
  recordedAt : Option String := none
  /-- Figures from the recording. -/
  metadata : Option Bindings := none

structure Dataset where
  name : String
  description : Option String := none
  golden : Option Golden := none
  /-- Each has its own name among its entries. -/
  parameters : List Bindings := []

namespace Dataset

/-- The entry that names a set of parameters. -/
def nameKey : String := "name"

/-- The variables of a set of parameters: all but its name. -/
def variablesOf (set : Bindings) : Bindings := set.filter (·.1 != nameKey)

/-- The set of parameters of a name. -/
def findSet? (d : Dataset) (name : String) : Option Bindings :=
  d.parameters.find? fun p =>
    match p.find? nameKey with
    | some (.text s) => s == name
    | _ => false

end Dataset

namespace Golden

/-- A golden as a mapping; what it has not is null. -/
def toValue (g : Golden) : Value :=
  .ofBindings [("response", .text g.response), ("model", .ofOptText g.model),
    ("recorded_at", .ofOptText g.recordedAt),
    ("metadata", match g.metadata with
      | none => .null
      | some m => .ofBindings m)]

end Golden

/-- A dataset as a mapping; what it has not is null. -/
def Dataset.toValue (d : Dataset) : Value :=
  .ofBindings [("name", .text d.name), ("description", .ofOptText d.description),
    ("golden", match d.golden with
      | none => .null
      | some g => g.toValue),
    ("parameters", .list (d.parameters.map .ofBindings))]

/-! ### Datasets in files -/

open Record Suite

def Golden.read : Reader Golden := fun v =>
  Golden.mk <$> field v "response" text (some "")
    <*> field v "model" (optional text) (some none)
    <*> field v "recorded_at" (optional text) (some none)
    <*> field v "metadata" (optional mapping) (some none)

namespace Dataset

/-- A set of parameters has a name. -/
def isNamed : Value → Bool
  | .dict entries => (textAt? nameKey entries).isSome
  | _ => false

/-- The dataset in a text. -/
def parse (content : String) (source : Option String) : Except Failure Dataset := do
  let entries ← mappingOf content ".dset" source
  let some name := textAt? nameKey entries
    | throw ((SuiteFault.missing nameKey).failure source)
  let some items := itemsAt? "parameters" entries
    | throw ((SuiteFault.missingOrEmpty "parameters").failure source)
  if let some i := items.findIdx? (!isNamed ·) then
    throw ((SuiteFault.namelessSet i).failure source)
  let golden := match nestedAt "golden" entries with
    | some v => some <$> (Golden.read v).within "golden"
    | none => .ok none
  accepted source (Dataset.mk name
    <$> field (.dict entries) "description" (optional text) (some none)
    <*> golden
    <*> (listOf mapping items).within "parameters")

/-- The dataset in a file. -/
def load (tree : Files.Tree) (path : String) : Except Failure Dataset := do
  parse (← fileText tree path) (some path)

end Dataset

end Stencil

namespace Stencil.Dataset

/-- The entries that are not null. -/
def present (b : Bindings) : Bindings :=
  b.filter fun e =>
    match e.2 with
    | .null => false
    | _ => true

/-- A golden as it is written: without what it has not. -/
def goldenEntries (g : Golden) : Bindings :=
  present [("response", .text g.response), ("model", .ofOptText g.model),
    ("recorded_at", .ofOptText g.recordedAt),
    ("metadata", match g.metadata with
      | none => .null
      | some m => .ofBindings m)]

/-- A dataset as it is written: without what it has not. -/
def written (d : Dataset) : Value :=
  .ofBindings (present [("name", .text d.name), ("description", .ofOptText d.description),
    ("golden", match d.golden with
      | none => .null
      | some g => .ofBindings (goldenEntries g)),
    ("parameters", .list (d.parameters.map .ofBindings))])

/-- The extension of dataset files with its dot. -/
def extension : String := ".dset"

/-- The datasets of a prompt: the directory of the prompt, and those that are loaded. -/
structure Shelf where
  directory : String
  loaded : List (String × Dataset) := []

/-- The directory of a prompt's datasets. -/
def Shelf.folder (s : Shelf) : String := Files.Path.joined s.directory "eval/datasets"

/-- The path of a dataset's file. -/
def Shelf.pathFor (s : Shelf) (name : String) : String :=
  Files.Path.joined s.folder (name ++ extension)

/-- Work with a shelf. What was loaded stays when it fails. -/
abbrev Shelving := ExceptT Failure (StateM Shelf)

/-- Put a dataset on the shelf. -/
def keep (name : String) (d : Dataset) : Shelving Unit :=
  modify fun s => { s with loaded := (name, d) :: s.loaded.filter (·.1 != name) }

/-- The dataset of a name. -/
def fetch (tree : Files.Tree) (name : String) : Shelving Dataset := do
  let s ← get
  match s.loaded.lookup name with
  | some d => return d
  | none =>
    let d ← load tree (s.pathFor name)
    keep name d
    return d

/-- The variables of a dataset's set of parameters. -/
def fetchSet (tree : Files.Tree) (name set : String) : Shelving Bindings := do
  let d ← fetch tree name
  match d.findSet? set with
  | some p => return variablesOf p
  | none =>
    let nameOf (p : Bindings) : String :=
      match p.find? nameKey with
      | some (.text s) => s
      | _ => ""
    throw ((SuiteFault.noSet name set (d.parameters.map nameOf)).failure none)

/-- The variables of a dataset's first set of parameters. -/
def fetchFirst (tree : Files.Tree) (name : String) : Shelving Bindings := do
  match (← fetch tree name).parameters with
  | p :: _ => return variablesOf p
  | [] => throw ((SuiteFault.withoutSets name).failure none)

def fetchGolden (tree : Files.Tree) (name : String) : Shelving (Option String) := do
  return (← fetch tree name).golden.map (·.response)

/-- The golden that a response becomes. -/
def goldenOf (r : Completion.Response) (time : String) : Except Failure Golden :=
  match r.text with
  | none =>
    .error (.foreign "ValidationError" (("response: " : String) ++ Record.Fault.notText.message))
  | some text =>
    .ok ⟨text, some r.model, some time,
      some [("tokens", .int r.usage.total), ("latency_ms", r.latencyMs)]⟩

/-- The dataset of a name, or an empty one where there is none that can be used. -/
def fetchOrNew (tree : Files.Tree) (name : String) : Shelving Dataset :=
  tryCatch (fetch tree name) fun
    | .error (.suiteFile ..) => pure { name }
    | f => throw f

/-- Write a dataset to its file. -/
def save (tree : Files.Tree) (name : String) (d : Dataset) : Shelving Files.Tree := do
  let (folder, file) := Files.Path.splitLast ((← get).pathFor name)
  let content ← ofValue (Yaml.write d.written)
  match tree.writeAt folder file content with
  | .ok tree => return tree
  | .error (f, path) => throw (.foreign f.kind (f.message path))

/-- Make a response the golden of a dataset, on the shelf and in its file. A dataset that does
not exist yet has no parameters. -/
def record (tree : Files.Tree) (name : String) (r : Completion.Response) (time : String) :
    Shelving Files.Tree := do
  let d ← fetchOrNew tree name
  let d := { d with golden := some (← goldenOf r time) }
  let tree ← save tree name d
  keep name d
  return tree

end Stencil.Dataset
