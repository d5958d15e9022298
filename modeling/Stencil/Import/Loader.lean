import Stencil.Failure
import Stencil.Files.Tree
import Stencil.Files.Path
import Stencil.Text.Character

/-!
Loading imported documents: from a fixed collection, or from files below a root.
-/

namespace Stencil

/-- The extension of template documents. -/
def templateExtension : String := ".echo"

/-- A source of documents. A document's key tells it from all others; `documents` lists all that
can be loaded. -/
structure ImportLoader where
  load : (path : String) → (relativeTo : Option String) → Except ImportFault (String × String)
  documents : List (String × String)
  load_mem : ∀ path relativeTo d, load path relativeTo = .ok d → d ∈ documents

namespace Import

/-- Only relative file paths are loaded. -/
def checkPath (path : String) : Except ImportFault Unit :=
  if Text.allBlank path then .error .emptyPath
  else if Text.hasText "://" path then .error (.notAFile path)
  else if Text.startsWith "/" path || Text.startsWith "\\" path then .error (.notRelative path)
  else .ok ()

/-- The names of a path with dots followed where possible: two dots that lead above a relative
path's start stay in front of it. -/
def foldDots (rooted : Bool) : (done : List String) → List String → List String
  | done, [] => done
  | done, n :: ns =>
    if n == "" || n == "." then foldDots rooted done ns
    else if n != ".." || (!rooted && done.isEmpty) || done.getLast? == some ".." then
      foldDots rooted (done ++ [n]) ns
    else foldDots rooted done.dropLast ns

/-- The shortest text that names the same place as a path; two leading slashes stay two. -/
def normalize (path : String) : String :=
  if path == "" then "."
  else
    let slashes :=
      if Text.startsWith "//" path && !Text.startsWith "///" path then "//"
      else if Text.startsWith "/" path then "/"
      else ""
    let text := slashes ++ "/".intercalate (foldDots (slashes != "") [] (Text.splitAt '/' path))
    if text == "" then "." else text

/-- A path seen from a directory. -/
def join (base path : String) : String :=
  if Text.startsWith "/" path then path
  else if base == "" || Text.endsWith "/" base then base ++ path
  else base ++ "/" ++ path

/-- The part of a path before its last slash. -/
def directory (path : String) : String :=
  let head := (path.toList.reverse.dropWhile (· != '/')).reverse
  if head.all (· == '/') then String.ofList head
  else String.ofList (head.reverse.dropWhile (· == '/')).reverse

/-- Documents by normalised path; a later one replaces an earlier one of the same place. -/
def normalizeAll (documents : List (String × String)) : List (String × String) :=
  documents.foldl
    (fun acc d =>
      let key := normalize d.1
      if acc.any (·.1 == key) then acc.map fun e => if e.1 == key then (key, d.2) else e
      else acc ++ [(key, d.2)])
    []

def findDocument (documents : List (String × String)) (path key : String) :
    Except ImportFault (String × String) :=
  match documents.find? (·.1 == key) with
  | some d => .ok d
  | none =>
    match documents.find? (·.1 == key ++ templateExtension) with
    | some d => .ok d
    | none => .error (.notFound path)

theorem findDocument_mem {documents : List (String × String)} {path key : String}
    {d : String × String} (h : findDocument documents path key = .ok d) : d ∈ documents := by
  unfold findDocument at h
  split at h
  · cases h; exact List.mem_of_find?_eq_some (by assumption)
  · split at h
    · cases h; exact List.mem_of_find?_eq_some (by assumption)
    · cases h

/-- The key that a path stands for inside a virtual root, seen from the document with key
`relativeTo`. -/
def target (path : String) (relativeTo : Option String) : String :=
  let base := match relativeTo with
    | some r => if r == "" then "" else directory r
    | none => ""
  normalize (join base path)

def loadFrom (documents : List (String × String)) (path : String) (relativeTo : Option String) :
    Except ImportFault (String × String) :=
  match checkPath path with
  | .error f => .error f
  | .ok () =>
    let key := target path relativeTo
    if Text.startsWith ".." key then .error (.outsideRoot path)
    else findDocument documents path key

/-- Documents of a fixed collection, by paths relative to a virtual root. -/
def fixed (documents : List (String × String)) : ImportLoader where
  load := loadFrom (normalizeAll documents)
  documents := normalizeAll documents
  load_mem path relativeTo d h := by
    unfold loadFrom at h
    split at h
    · cases h
    · dsimp only at h
      split at h
      · cases h
      · exact findDocument_mem h

/-- The documents among some files, by the texts of their paths. -/
def fileDocuments (tree : Files.Tree) : List (String × String) :=
  tree.entries.filterMap fun e => (Files.Tree.decode? e.content).map fun s => (e.path.text, s)

/-- The documents behind links, by the texts of the places where the links stand. -/
def linkedDocuments (tree : Files.Tree) (links : Files.Links) : List (String × String) :=
  links.leads.filterMap fun d => (tree.readText d.2).toOption.map fun s => (d.1.text, s)

/-- The path that is read for an import: the target itself, or with the extension of templates
when there is nothing at the target and it has no extension. -/
def candidate (tree : Files.Tree) (target : Files.Path) : Files.Path :=
  if !tree.holds target && Files.extension target.name == "" then
    target.dropLast ++ [target.name ++ templateExtension]
  else target

def readDocument (tree : Files.Tree) (links : Files.Links) (path : String) (p : Files.Path) :
    Except ImportFault (String × String) :=
  match tree.readText (links.walk [] p) with
  | .ok s => .ok (p.text, s)
  | .error f => .error (.unreadable path (f.message p.text))

theorem readDocument_eq_ok {tree : Files.Tree} {links : Files.Links} {path : String}
    {p : Files.Path} {d : String × String} (h : readDocument tree links path p = .ok d) :
    d.1 = p.text ∧ tree.readText (links.walk [] p) = .ok d.2 := by
  unfold readDocument at h
  split at h
  · rename_i s hs
    cases h
    exact ⟨rfl, hs⟩
  · cases h

theorem mem_fileDocuments {tree : Files.Tree} {p : Files.Path} {s : String}
    (h : tree.readText p = .ok s) : (p.text, s) ∈ fileDocuments tree := by
  unfold Files.Tree.readText at h
  split at h
  · rename_i e he
    obtain ⟨hm, hp⟩ := Files.Tree.find?_mem he
    split at h
    · rename_i t ht
      cases h
      exact List.mem_filterMap.2 ⟨e, hm, by simp [ht, hp]⟩
    · cases h
  · split at h
    · cases h
    · split at h <;> cases h

/-- The place that a path names, seen from the directory of the document with key `relativeTo`,
or else from the root. -/
def fileTarget (links : Files.Links) (workingDirectory root : Files.Path) (path : String)
    (relativeTo : Option String) : Files.Path :=
  let base := match relativeTo with
    | some r =>
      if r == "" then root
      else (if Files.Path.isAbsolute r then [] else workingDirectory) ++
        (Files.Path.namesOf r).dropLast
    | none => root
  links.resolve base path

theorem isPlain_fileTarget (links : Files.Links) (workingDirectory root : Files.Path)
    (path : String) (relativeTo : Option String) :
    Files.IsPlain links.leads (fileTarget links workingDirectory root path relativeTo) :=
  Files.Links.isPlain_resolve links _ path

/-- The template extension makes no name into two dots. -/
theorem append_templateExtension_ne (name : String) : name ++ templateExtension ≠ ".." := by
  intro h
  have hlength : (name ++ templateExtension).length = 2 := by rw [h]; rfl
  rw [String.length_append] at hlength
  have : templateExtension.length = 5 := rfl
  omega

/-- What is read for a plain target is the path itself, or what the link there leads to. -/
theorem walk_candidate (tree : Files.Tree) {links : Files.Links} {target : Files.Path}
    (h : Files.IsPlain links.leads target) : links.walk [] (candidate tree target) =
      (links.target? (candidate tree target)).getD (candidate tree target) := by
  unfold candidate
  split
  · exact Files.Links.walk_beside h (append_templateExtension_ne _)
  · have ht : links.target? target = none := h.2 _ List.prefix_rfl
    rw [Files.Links.walk_of_isPlain h, ht]
    rfl

def loadFile (tree : Files.Tree) (links : Files.Links) (workingDirectory root : Files.Path)
    (path : String) (relativeTo : Option String) : Except ImportFault (String × String) :=
  match checkPath path with
  | .error f => .error f
  | .ok () =>
    let target := fileTarget links workingDirectory root path relativeTo
    if !Files.Path.isWithin root target then .error (.outsideRoot path)
    else readDocument tree links path (candidate tree target)

/-- What is loaded is what is read at the candidate for a target within the root. -/
theorem loadFile_eq_ok {tree : Files.Tree} {links : Files.Links}
    {workingDirectory root : Files.Path} {path : String} {relativeTo : Option String}
    {d : String × String} (h : loadFile tree links workingDirectory root path relativeTo = .ok d) :
    let target := fileTarget links workingDirectory root path relativeTo
    Files.Path.isWithin root target = true ∧
      d.1 = (candidate tree target).text ∧
        tree.readText (links.walk [] (candidate tree target)) = .ok d.2 := by
  unfold loadFile at h
  split at h
  · cases h
  · dsimp only at h
    split at h
    · cases h
    · rename_i hwithin
      exact ⟨by simpa using hwithin, readDocument_eq_ok h⟩

theorem loadFile_mem {tree : Files.Tree} {links : Files.Links}
    {workingDirectory root : Files.Path} {path : String} {relativeTo : Option String}
    {d : String × String} (h : loadFile tree links workingDirectory root path relativeTo = .ok d) :
    d ∈ fileDocuments tree ++ linkedDocuments tree links := by
  obtain ⟨key, source⟩ := d
  obtain ⟨-, rfl, hread⟩ := loadFile_eq_ok h
  rw [walk_candidate tree (isPlain_fileTarget links workingDirectory root path relativeTo)] at hread
  generalize candidate tree _ = p at hread ⊢
  rcases ht : links.target? p with _ | q <;> rw [ht] at hread
  · exact List.mem_append_left _ (mem_fileDocuments hread)
  · obtain ⟨as, bs, hl, -⟩ := List.lookup_eq_some_iff.mp ht
    refine List.mem_append_right _ (List.mem_filterMap.2 ⟨(p, q), by simp [hl], ?_⟩)
    change (tree.readText q).toOption.map _ = _
    rw [show tree.readText q = .ok source from hread]
    rfl

/-- Documents in files below a root, some of them perhaps behind links. -/
def files (tree : Files.Tree) (workingDirectory root : Files.Path)
    (links : Files.Links := .none) : ImportLoader where
  load := loadFile tree links workingDirectory root
  documents := fileDocuments tree ++ linkedDocuments tree links
  load_mem _ _ _ h := loadFile_mem h

end Import

end Stencil
