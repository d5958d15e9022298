import Stencil.Files.Path
import Stencil.Text.Quoted

/-!
The files that a program sees: their paths and contents. A directory exists where a file lies
below it or where it was made.
-/

namespace Stencil.Files

structure Entry where
  path : Path
  content : List UInt8

structure Tree where
  entries : List Entry
  directories : List Path := []
  /-- The directory that relative paths start from. -/
  here : Path := []

namespace Tree

def find? (t : Tree) (p : Path) : Option Entry := t.entries.find? (·.path == p)

def isFile (t : Tree) (p : Path) : Bool := (t.find? p).isSome

def isDirectory (t : Tree) (p : Path) : Bool :=
  p.isEmpty || t.directories.any (p.isPrefixOf ·) ||
    t.entries.any fun e => p.isPrefixOf e.path && p != e.path

def holds (t : Tree) (p : Path) : Bool := t.isFile p || t.isDirectory p

/-- Some directory on the way to the path is a file. -/
def throughFile (t : Tree) (p : Path) : Bool :=
  t.entries.any fun e => e.path.isPrefixOf p && e.path != p

/-- The tree with a file's content put in place. -/
def write (t : Tree) (p : Path) (content : List UInt8) : Tree :=
  if t.isFile p then
    { t with entries := t.entries.map fun e => if e.path == p then ⟨p, content⟩ else e }
  else { t with entries := t.entries ++ [⟨p, content⟩] }

def remove (t : Tree) (p : Path) : Tree :=
  { t with entries := t.entries.filter (·.path != p),
           directories := t.directories ++ [p.dropLast] }

/-- Why a file cannot be read or written. -/
inductive Fault where
  | notFound
  | exists
  | isDirectory
  | notDirectory
  | longName
  | notText
  /-- The path has a character that no path has. -/
  | noPath
deriving DecidableEq

namespace Fault

/-- The words of the system for a fault with a path. -/
def message (path : String) : Fault → String
  | notFound => "[Errno 2] No such file or directory: " ++ Text.quoted path
  | «exists» => "[Errno 17] File exists: " ++ Text.quoted path
  | isDirectory => "[Errno 21] Is a directory: " ++ Text.quoted path
  | notDirectory => "[Errno 20] Not a directory: " ++ Text.quoted path
  | longName => "[Errno 36] File name too long: " ++ Text.quoted path
  | notText => "'utf-8' codec can't decode"
  | noPath => "embedded null byte"

/-- The system's word for the kind of fault. -/
def kind : Fault → String
  | notFound => "FileNotFoundError"
  | «exists» => "FileExistsError"
  | isDirectory => "IsADirectoryError"
  | notDirectory => "NotADirectoryError"
  | longName => "OSError"
  | notText => "UnicodeDecodeError"
  | noPath => "ValueError"

end Fault

/-- Line ends of all kinds as newlines. -/
def unifyLines : List Char → List Char
  | [] => []
  | '\r' :: '\n' :: cs => '\n' :: unifyLines cs
  | '\r' :: cs => '\n' :: unifyLines cs
  | c :: cs => c :: unifyLines cs

/-- The text that bytes are, if they are one, with line ends as newlines. -/
def decode? (bytes : List UInt8) : Option String :=
  (String.fromUTF8? ⟨bytes.toArray⟩).map fun s => String.ofList (unifyLines s.toList)

def encode (s : String) : List UInt8 := s.toUTF8.data.toList

/-- The text of a file. -/
def readText (t : Tree) (p : Path) : Except Fault String :=
  match t.find? p with
  | some e =>
    match decode? e.content with
    | some s => .ok s
    | none => .error .notText
  | none =>
    if t.isDirectory p then .error .isDirectory
    else if t.throughFile p then .error .notDirectory
    else .error .notFound

/-- The most bytes that a name may have. -/
def nameLimit : Nat := 255

/-- Follow names through directories that exist; two dots lead one up. -/
def follow (t : Tree) (p : Path) : List String → Except Fault Path
  | [] => .ok p
  | n :: ns =>
    if t.isFile p || t.throughFile p then .error .notDirectory
    else if !t.isDirectory p then .error .notFound
    else if nameLimit < n.utf8ByteSize then .error .longName
    else follow t (if n == ".." then p.dropLast else p ++ [n]) ns

/-- Where a path starts. -/
def start (t : Tree) (text : String) : Path := if Path.isAbsolute text then [] else t.here

/-- The place that the text of a path leads to. -/
def place (t : Tree) (text : String) : Except Fault Path :=
  if text.toList.contains (Char.ofNat 0) then .error .noPath
  else t.follow (t.start text) (Path.namesOf text)

/-- What stands at a path as it is given: a path that ends in a slash is none of a file. -/
def look (t : Tree) (text : String) : Except Fault Path :=
  if text == "" then .error .notFound
  else do
    let p ← t.place text
    if !t.holds p then throw .notFound
    if t.isFile p && (Text.endsWith "/" text || Text.endsWith "/." text) then throw .notDirectory
    return p

/-- The text of the file at a path, each step of which is followed. -/
def readAt (t : Tree) (text : String) : Except Fault String := do
  t.readText (← t.place text)

/-- Make the directories that names lead through. -/
def makeFrom (t : Tree) (p : Path) : List String → Except Fault (Tree × Path)
  | [] => .ok (t, p)
  | n :: ns =>
    if nameLimit < n.utf8ByteSize then .error .longName
    else if n == ".." then makeFrom t p.dropLast ns
    else
      let q := p ++ [n]
      if t.isFile q then .error (if ns.isEmpty then .exists else .notDirectory)
      else if t.isDirectory q then makeFrom t q ns
      else makeFrom { t with directories := t.directories ++ [q] } q ns

/-- Put a text into a file, in a directory that is made where it does not exist. A fault comes
with the path that it is about. -/
def writeAt (t : Tree) (directory name content : String) : Except (Fault × String) Tree :=
  let path := Path.joined directory name
  match t.makeFrom (t.start directory) (Path.namesOf directory) with
  | .error f => .error (f, directory)
  | .ok (t, p) =>
    let place := p ++ [name]
    if nameLimit < name.utf8ByteSize then .error (.longName, path)
    else if t.isDirectory place then .error (.isDirectory, path)
    else .ok (t.write place (encode content))

theorem find?_mem {t : Tree} {p : Path} {e : Entry} (h : t.find? p = some e) :
    e ∈ t.entries ∧ e.path = p := by
  have := List.find?_some h
  exact ⟨List.mem_of_find?_eq_some h, by simpa using this⟩

end Tree

end Stencil.Files
