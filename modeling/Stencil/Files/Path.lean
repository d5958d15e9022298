import Stencil.Text.Search

/-!
Paths of files: lists of names, and their texts with slashes; and links, names in directories that
stand for other places.

A place is plain when nothing on the way to it is a link. Whatever is walked through, a walk from
the top comes to a plain place (`Links.isPlain_walk`), and walking to a plain place comes to the
place itself (`Links.walk_of_isPlain`).
-/

namespace Stencil.Files

/-- A path from the top of the file system. -/
abbrev Path := List String

namespace Path

def text (p : Path) : String := "/" ++ "/".intercalate p

/-- The names between slashes, without empty ones and single dots. -/
def namesOf (s : String) : List String :=
  (Text.splitAt '/' s).filter fun n => n != "" && n != "."

def isAbsolute (s : String) : Bool := Text.startsWith "/" s

/-- Follow names from a path; two dots lead one up. -/
def walk (p : Path) : List String → Path
  | [] => p
  | n :: ns => if n == ".." then walk p.dropLast ns else walk (p ++ [n]) ns

/-- The path that a text names, seen from a directory. -/
def resolve (directory : Path) (s : String) : Path :=
  walk (if isAbsolute s then [] else directory) (namesOf s)

/-- The directory that holds what a text names, seen from a directory. The last name is left out
even where it is two dots. -/
def holder (directory : Path) (s : String) : Path :=
  walk (if isAbsolute s then [] else directory) (namesOf s).dropLast

/-- The path is the directory or lies below it. -/
def isWithin (directory p : Path) : Bool := directory.isPrefixOf p

/-- The text of a path with empty names and single dots left out; two leading slashes stay two. -/
def tidy (s : String) : String :=
  let slashes :=
    if Text.startsWith "//" s && !Text.startsWith "///" s then "//"
    else if isAbsolute s then "/"
    else ""
  let text := slashes ++ "/".intercalate (namesOf s)
  if text == "" then "." else text

/-- A path's text seen from a directory's text. -/
def joined (directory s : String) : String :=
  if isAbsolute s || directory == "" then tidy s
  else if Text.endsWith "/" directory then tidy (directory ++ s)
  else tidy (directory ++ "/" ++ s)

/-- The text of a path without its last name, and that name. -/
def splitLast (s : String) : String × String :=
  let cs := (tidy s).toList
  let name := cs.reverse.takeWhile (· != '/')
  let before := cs.reverse.dropWhile (· != '/')
  let directory := before.dropWhile (· == '/')
  (String.ofList (if directory.isEmpty then before else directory).reverse,
    String.ofList name.reverse)

/-- The directory that holds the path. -/
def parent (p : Path) : Path := p.dropLast

def name (p : Path) : String := p.getLast?.getD ""

end Path

/-- The extension of a name with its dot, empty when there is none. A dot at either end of the
name opens no extension. -/
def extension (name : String) : String :=
  let tail := (name.toList.reverse.takeWhile (· != '.')).reverse
  let dotAt := name.length - tail.length
  if tail.isEmpty || dotAt ≤ 1 then "" else "." ++ String.ofList tail

/-- The name without its extension. -/
def stem (name : String) : String :=
  String.ofList (name.toList.take (name.length - (extension name).length))

/-- No name on the path is two dots, and no link stands at the path or on the way to it. -/
def IsPlain (leads : List (Path × Path)) (p : Path) : Prop :=
  ".." ∉ p ∧ ∀ q, q <+: p → leads.lookup q = none

/-- Links by the places where they stand, each with the place where following it ends, further
links included. A link that leads round in a circle ends nowhere and is none of these. -/
structure Links where
  leads : List (Path × Path)
  isPlain : ∀ d ∈ leads, IsPlain leads d.2

namespace Links

/-- No links. -/
def none : Links := ⟨[], by simp⟩

/-- Where the link at a place ends, if one stands there. -/
def target? (l : Links) (p : Path) : Option Path := l.leads.lookup p

/-- What a name in a directory leads to; two dots lead one up. -/
def enter (l : Links) (p : Path) (n : String) : Path :=
  if n == ".." then p.dropLast else (l.target? (p ++ [n])).getD (p ++ [n])

/-- Follow names from a place. -/
def walk (l : Links) (p : Path) (ns : List String) : Path := ns.foldl l.enter p

/-- The place that a text names, seen from the directory at the end of some names. -/
def resolve (l : Links) (directory : List String) (s : String) : Path :=
  l.walk [] ((if Path.isAbsolute s then [] else directory) ++ Path.namesOf s)

variable {l : Links} {p q : Path} {n : String}

theorem isPlain_nil : IsPlain l.leads [] := by
  refine ⟨by simp, fun q hq => ?_⟩
  obtain rfl := List.prefix_nil.mp hq
  rcases h : l.leads with _ | ⟨d, ds⟩
  · rfl
  · have hd := l.isPlain d (by simp [h])
    rw [← h]
    exact hd.2 [] List.nil_prefix

theorem isPlain_target (h : l.target? p = some q) : IsPlain l.leads q := by
  obtain ⟨as, bs, hl, -⟩ := List.lookup_eq_some_iff.mp h
  exact l.isPlain (p, q) (by simp [hl])

theorem isPlain_dropLast (h : IsPlain l.leads p) : IsPlain l.leads p.dropLast :=
  ⟨fun hmem => h.1 ((List.dropLast_prefix p).subset hmem),
    fun q hq => h.2 q (hq.trans (List.dropLast_prefix p))⟩

theorem isPlain_snoc (h : IsPlain l.leads p) (hn : n ≠ "..")
    (ht : l.target? (p ++ [n]) = Option.none) : IsPlain l.leads (p ++ [n]) := by
  refine ⟨by simp [h.1, Ne.symm hn], fun q hq => ?_⟩
  rcases List.prefix_concat_iff.mp hq with rfl | hq
  · exact ht
  · exact h.2 q hq

theorem enter_of_ne (l : Links) (p : Path) (hn : n ≠ "..") :
    l.enter p n = (l.target? (p ++ [n])).getD (p ++ [n]) := by
  simp [enter, hn]

theorem isPlain_enter (h : IsPlain l.leads p) (n : String) : IsPlain l.leads (l.enter p n) := by
  by_cases hn : n = ".."
  · simpa [enter, hn] using isPlain_dropLast h
  · rw [enter_of_ne l p hn]
    rcases ht : l.target? (p ++ [n]) with _ | q
    · exact isPlain_snoc h hn ht
    · exact isPlain_target ht

theorem isPlain_walk (h : IsPlain l.leads p) (ns : List String) :
    IsPlain l.leads (l.walk p ns) := by
  induction ns generalizing p with
  | nil => exact h
  | cons n ns ih => exact ih (isPlain_enter h n)

theorem isPlain_resolve (l : Links) (directory : List String) (s : String) :
    IsPlain l.leads (l.resolve directory s) := isPlain_walk isPlain_nil _

theorem walk_snoc (l : Links) (p : Path) (ns : List String) (n : String) :
    l.walk p (ns ++ [n]) = l.enter (l.walk p ns) n := by
  simp [walk]

/-- Walking to a plain place comes to the place itself. -/
theorem walk_of_isPlain (h : IsPlain l.leads p) : l.walk [] p = p := by
  induction hp : p.length generalizing p with
  | zero =>
    obtain rfl := List.length_eq_zero_iff.mp hp
    rfl
  | succ k ih =>
    obtain ⟨q, n, rfl⟩ : ∃ q n, p = q ++ [n] :=
      ⟨p.dropLast, p.getLast (by rintro rfl; simp at hp), (List.dropLast_concat_getLast _).symm⟩
    have hq : IsPlain l.leads q := by simpa using isPlain_dropLast h
    have hn : n ≠ ".." := fun hn => h.1 (by simp [hn])
    have ht : l.target? (q ++ [n]) = Option.none := h.2 _ List.prefix_rfl
    rw [walk_snoc, ih hq (by simpa using hp), enter_of_ne l q hn, ht]
    rfl

/-- Beside a plain place, a name leads to where its link ends, or else to itself. -/
theorem walk_beside (h : IsPlain l.leads p) (hn : n ≠ "..") :
    l.walk [] (p.dropLast ++ [n]) =
      (l.target? (p.dropLast ++ [n])).getD (p.dropLast ++ [n]) := by
  rw [walk_snoc, walk_of_isPlain (isPlain_dropLast h), enter_of_ne l _ hn]

end Links

end Stencil.Files
