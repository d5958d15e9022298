import Stencil.Command.Options
import Stencil.Files.Tree
import Stencil.Json.Reader
import Stencil.Text.Character
import Stencil.Yaml.Read

/-!
What the arguments of a command name: the files of suites, one that a path names or all below a
directory, and bindings, as pairs of a name and a value or as files with a mapping.
-/

namespace Stencil.Command

/-- The extension of the files of suites. -/
def suiteExtension : String := ".eval"

/-- Directories that are not searched. -/
def unsearched : List String := [".git", ".venv", "venv", "node_modules", "dist", "__pycache__"]

/-- What stands at the text of a path; nothing stands at a text that leads nowhere. -/
def placeOf? (tree : Files.Tree) (path : String) : Except Failure (Option Files.Path) :=
  match tree.place path with
  | .ok p => .ok (some p)
  | .error .longName =>
    .error (.foreign Files.Tree.Fault.longName.kind (Files.Tree.Fault.longName.message path))
  | .error _ => .ok none

/-- A file that is the file of a suite, as seen from the directory that is searched. -/
def isFound (names : List String) : Bool :=
  (names.getLast?.map (Text.endsWith suiteExtension)).getD false &&
    names.dropLast.all fun n => !unsearched.contains n

/-- The files of suites below a directory as lists of names, in order of these. -/
def suitesBelow (tree : Files.Tree) (directory : Files.Path) : List (List String) :=
  let below := tree.entries.filterMap fun e =>
    if directory.isPrefixOf e.path then some (e.path.drop directory.length) else none
  (below.filter isFound).mergeSort fun a b => !decide (b < a)

/-- The paths of the files of suites below the directory at a path. -/
def searchIn (tree : Files.Tree) (path : String) (directory : Files.Path) : List String :=
  (suitesBelow tree directory).map fun names => Files.Path.joined path ("/".intercalate names)

/-- How the argument for a path is called in messages. -/
def pathArgument : String := "'PATH'"

/-- The files of suites that a path names, seen from a directory: the file there, that file with
the extension put to its name, or all below the directory there. Without a path, all below the
directory itself. -/
def findSuites (tree : Files.Tree) (directory : Files.Path) (path : Option String) :
    Except Trouble (List String) := do
  match path with
  | none => return searchIn tree directory.text directory
  | some path =>
    let candidate := Files.Path.joined directory.text path
    let name := (Files.Path.splitLast candidate).2
    let found ← place candidate
    if found.any tree.isFile then return [candidate]
    if name == "" then
      throw (.failure (.foreign "ValueError" "PosixPath('/') has an empty name"))
    if Files.extension name != suiteExtension then
      let extended := candidate ++ suiteExtension
      if (← place extended).any tree.isFile then return [extended]
    match found.filter tree.isDirectory with
    | some d => return searchIn tree candidate d
    | none => refuse pathArgument (.noSuite (Files.Path.tidy path))
where
  place (s : String) : Except Trouble (Option Files.Path) :=
    (placeOf? tree s).mapError .failure

/-- How the option for pairs is called in messages. -/
def pairOption : String := "'-i' / '--input'"

/-- How the option for a file of bindings is called in messages. -/
def fileOption : String := "'--input-file'"

/-- A value as it is typed: JSON, and a text where it is none. -/
def typedValue (s : String) : Except Trouble Value :=
  match Json.read s with
  | .ok v => .ok v
  | .error .malformed => .ok (.text s)
  | .error (.value f) => .error (.failure (.value f))

/-- A name and a value with an equals sign between them. -/
def readPair (s : String) : Except Trouble (String × Value) :=
  let cs := s.toList
  let name := Text.strip (String.ofList (cs.takeWhile (· != '=')))
  match cs.dropWhile (· != '=') with
  | _ :: value =>
    if name == "" then refuse pairOption (.notAPair s)
    else (typedValue (String.ofList value)).map (name, ·)
  | [] => refuse pairOption (.notAPair s)

/-- The bindings that pairs make, a later one in place of an earlier. -/
def bindingsOfPairs (pairs : List String) : Except Trouble Bindings :=
  pairs.foldlM (fun b s => do let (k, v) ← readPair s; return b.insert k v) []

/-- The entries of the mapping in a file. -/
def entriesOfFile (tree : Files.Tree) (path : String) : Except Trouble (List (Value × Value)) :=
  match tree.readAt path with
  | .error f => .error (.failure (.foreign f.kind (f.message path)))
  | .ok s =>
    match Yaml.read s with
    | .ok .null => .ok []
    | .ok (.dict entries) => .ok entries
    | .ok _ => refuse fileOption .notAMapping
    | .error (.malformed what) => refuse fileOption (.unreadable what)
    | .error f => .error (.failure f.failure)

/-- The bindings among entries: those with a name. -/
def named (entries : List (Value × Value)) : Bindings :=
  entries.filterMap fun
    | (.text k, v) => some (k, v)
    | _ => none

end Stencil.Command
