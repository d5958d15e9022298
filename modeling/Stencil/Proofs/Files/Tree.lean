import Mathlib.Data.List.Basic
import Mathlib.Tactic.Common
import Stencil.Files.Tree
import Stencil.Proofs.Files.Path

/-!
What is written to a file is read from it.

In a sound tree a file is no directory, so a place below a directory is reached by its names alone
(`follow_of_isDirectory`). Making directories and writing a file keep a tree sound and take no
directory away, so the names that led to the file when it was written lead to it ever after
(`readAt_writeAt`).

Line ends are made newlines when a text is read (`unifyLines`): a text without carriage returns
stays as it is, and what follows a text does not reach back into it unless it begins with a
newline.
-/

namespace Stencil

namespace Files.Tree

variable {t t' t'' : Tree} {p q : Path} {n : String} {ns : List String}

/-! ### Files and directories -/

/-- The paths of the files. -/
def paths (t : Tree) : List Path := t.entries.map (·.path)

lemma isFile_iff : t.isFile p = true ↔ p ∈ t.paths := by
  simp [isFile, find?, paths]

lemma isDirectory_iff : t.isDirectory p = true ↔
    p = [] ∨ (∃ d ∈ t.directories, p <+: d) ∨ ∃ r ∈ t.paths, p <+: r ∧ p ≠ r := by
  simp [isDirectory, paths, or_assoc]

lemma throughFile_iff : t.throughFile p = true ↔ ∃ r ∈ t.paths, r <+: p ∧ r ≠ p := by
  simp [throughFile, paths]

lemma isDirectory_above (h : q <+: p) (hp : t.isDirectory p = true) :
    t.isDirectory q = true := by
  rw [isDirectory_iff] at hp ⊢
  obtain rfl | ⟨d, hd, hpd⟩ | ⟨r, hr, hpr, hne⟩ := hp
  · exact .inl (List.prefix_nil.mp h)
  · exact .inr (.inl ⟨d, hd, h.trans hpd⟩)
  · refine .inr (.inr ⟨r, hr, h.trans hpr, ?_⟩)
    rintro rfl
    exact hne (hpr.eq_of_length_le h.length_le)

/-- A tree as a file system has it: no directory is a file, and the working directory exists. -/
structure Sound (t : Tree) : Prop where
  apart : ∀ p, t.isDirectory p = true → t.isFile p = false
  here : t.isDirectory t.here = true

/-- A tree is sound if no file's own path is a directory. -/
lemma Sound.of_paths (h : ∀ p ∈ t.paths, t.isDirectory p = false)
    (hhere : t.isDirectory t.here = true) : t.Sound := by
  refine ⟨fun p hp => Bool.eq_false_iff.mpr fun hfile => ?_, hhere⟩
  rw [h p (isFile_iff.mp hfile)] at hp
  cases hp

/-- No file stands on the way to a directory. -/
lemma Sound.throughFile_of_isDirectory (ht : t.Sound) (hp : t.isDirectory p = true) :
    t.throughFile p = false := by
  rw [Bool.eq_false_iff]
  intro hthrough
  obtain ⟨r, hr, hprefix, -⟩ := throughFile_iff.mp hthrough
  have hfile := ht.apart r (isDirectory_above hprefix hp)
  rw [isFile_iff.mpr hr] at hfile
  cases hfile

/-- What stands at a directory's name is reached, if the name is not too long. -/
lemma follow_of_isDirectory (ht : t.Sound) (hp : t.isDirectory p = true)
    (hn : n.utf8ByteSize ≤ nameLimit) (ns : List String) :
    t.follow p (n :: ns) = t.follow (if n == ".." then p.dropLast else p ++ [n]) ns := by
  rw [follow, ht.apart p hp, ht.throughFile_of_isDirectory hp, hp]
  simp [Nat.not_lt.mpr hn]

/-! ### Making directories -/

/-- The tree with one more directory. -/
def addDirectory (t : Tree) (q : Path) : Tree := { t with directories := t.directories ++ [q] }

lemma isFile_addDirectory : (t.addDirectory q).isFile p = t.isFile p := rfl

lemma isDirectory_addDirectory :
    (t.addDirectory q).isDirectory p = true ↔ t.isDirectory p = true ∨ p <+: q := by
  simp only [isDirectory_iff, addDirectory, paths, List.mem_append, List.mem_singleton,
    or_and_right, exists_or, exists_eq_left]
  grind

/-- A directory below another takes the place of no file. -/
lemma Sound.addDirectory (ht : t.Sound) (hp : t.isDirectory p = true)
    (hfile : t.isFile (p ++ [n]) = false) : (t.addDirectory (p ++ [n])).Sound := by
  refine ⟨fun r hr => ?_, isDirectory_addDirectory.mpr (.inl ht.here)⟩
  rw [isFile_addDirectory]
  rcases isDirectory_addDirectory.mp hr with hold | hnew
  · exact ht.apart r hold
  · rcases List.prefix_concat_iff.mp hnew with rfl | hnew
    · exact hfile
    · exact ht.apart r (isDirectory_above hnew hp)

/-- What one step of making directories does: it leads to a directory that exists then. -/
lemma makeFrom_cons (h : t.makeFrom p (n :: ns) = .ok (t', q)) (ht : t.Sound)
    (hp : t.isDirectory p = true) :
    n.utf8ByteSize ≤ nameLimit ∧ ∃ s : Tree, s.Sound ∧ s.here = t.here ∧
      (∀ r, t.isDirectory r = true → s.isDirectory r = true) ∧
      s.isDirectory (if n == ".." then p.dropLast else p ++ [n]) = true ∧
      s.makeFrom (if n == ".." then p.dropLast else p ++ [n]) ns = .ok (t', q) := by
  rw [makeFrom] at h
  split at h
  · cases h
  · rename_i hn
    refine ⟨Nat.not_lt.mp hn, ?_⟩
    split at h
    · rename_i hup
      rw [if_pos hup]
      exact ⟨t, ht, rfl, fun _ => id, isDirectory_above (List.dropLast_prefix p) hp, h⟩
    · rename_i hdown
      rw [if_neg hdown]
      dsimp only at h
      split at h
      · cases h
      · rename_i hfile
        split at h
        · rename_i hdirectory
          exact ⟨t, ht, rfl, fun _ => id, hdirectory, h⟩
        · exact ⟨t.addDirectory (p ++ [n]), ht.addDirectory hp (Bool.eq_false_iff.mpr hfile), rfl,
            fun r hr => isDirectory_addDirectory.mpr (.inl hr),
            isDirectory_addDirectory.mpr (.inr List.prefix_rfl), h⟩

/-- Directories are made in a sound tree, and none is lost. -/
lemma sound_makeFrom (h : t.makeFrom p ns = .ok (t', q)) (ht : t.Sound)
    (hp : t.isDirectory p = true) :
    t'.Sound ∧ t'.here = t.here ∧ (∀ r, t.isDirectory r = true → t'.isDirectory r = true) ∧
      t'.isDirectory q = true := by
  induction ns generalizing t p with
  | nil =>
    obtain ⟨rfl, rfl⟩ : t = t' ∧ p = q := by simpa [makeFrom] using h
    exact ⟨ht, rfl, fun _ => id, hp⟩
  | cons n ns ih =>
    obtain ⟨-, s, hs, hhere, hgrows, hstep, hrest⟩ := makeFrom_cons h ht hp
    obtain ⟨ht', hhere', hgrows', hq⟩ := ih hrest hs hstep
    exact ⟨ht', hhere'.trans hhere, fun r hr => hgrows' r (hgrows r hr), hq⟩

/-- The names that directories were made for lead to the last of them, as long as none of the
directories is lost. -/
lemma follow_makeFrom (h : t.makeFrom p ns = .ok (t', q)) (ht : t.Sound)
    (hp : t.isDirectory p = true) (ht'' : t''.Sound)
    (hgrows : ∀ r, t'.isDirectory r = true → t''.isDirectory r = true) (rest : List String) :
    t''.follow p (ns ++ rest) = t''.follow q rest := by
  induction ns generalizing t p with
  | nil =>
    obtain ⟨-, rfl⟩ : t = t' ∧ p = q := by simpa [makeFrom] using h
    rfl
  | cons n ns ih =>
    obtain ⟨-, -, hkeeps, -⟩ := sound_makeFrom h ht hp
    obtain ⟨hn, s, hs, -, -, hstep, hrest⟩ := makeFrom_cons h ht hp
    rw [List.cons_append, follow_of_isDirectory ht'' (hgrows p (hkeeps p hp)) hn]
    exact ih hrest hs hstep

/-! ### Writing a file -/

lemma mem_paths_write (content : List UInt8) :
    q ∈ (t.write p content).paths ↔ q ∈ t.paths ∨ q = p := by
  unfold write
  split
  · rename_i hp
    have hsame : (fun e : Entry => (if e.path == p then (⟨p, content⟩ : Entry) else e).path) =
        (·.path) := by
      funext e
      split
      · rename_i he
        exact (eq_of_beq he).symm
      · rfl
    have hmem : q = p → q ∈ t.paths := fun hq => hq ▸ isFile_iff.mp hp
    simp only [paths, List.map_map, Function.comp_def, hsame]
    tauto
  · simp [paths]

lemma directories_write (content : List UInt8) :
    (t.write p content).directories = t.directories := by
  unfold write
  split <;> rfl

lemma here_write (content : List UInt8) : (t.write p content).here = t.here := by
  unfold write
  split <;> rfl

/-- A file has what was written to it last. -/
lemma find?_write_self (t : Tree) (p : Path) (content : List UInt8) :
    (t.write p content).find? p = some ⟨p, content⟩ := by
  unfold write
  split
  · rename_i hp
    obtain ⟨e, he⟩ := Option.isSome_iff_exists.mp hp
    have hpath : e.path = p := (find?_mem he).2
    have hsame : ((fun e : Entry => e.path == p) ∘
        fun e : Entry => if e.path == p then ⟨p, content⟩ else e) = (·.path == p) := by
      funext e
      by_cases he : e.path = p <;> simp [he]
    rw [find?, List.find?_map, hsame]
    rw [find?] at he
    simp [he, hpath]
  · rename_i hp
    have hnone : t.entries.find? (·.path == p) = none := by simpa [isFile, find?] using hp
    simp [find?, hnone]

/-- A file in a directory makes no further directory. -/
lemma isDirectory_write (content : List UInt8) (hp : t.isDirectory p = true) :
    (t.write (p ++ [n]) content).isDirectory q = true ↔ t.isDirectory q = true := by
  constructor
  · intro hq
    obtain rfl | hd | ⟨r, hr, hqr, hne⟩ := isDirectory_iff.mp hq
    · exact isDirectory_iff.mpr (.inl rfl)
    · exact isDirectory_iff.mpr (.inr (.inl (directories_write content ▸ hd)))
    · rcases (mem_paths_write content).mp hr with hr | rfl
      · exact isDirectory_iff.mpr (.inr (.inr ⟨r, hr, hqr, hne⟩))
      · exact isDirectory_above ((List.prefix_concat_iff.mp hqr).resolve_left hne) hp
  · intro hq
    rw [isDirectory_iff] at hq ⊢
    rw [directories_write]
    obtain hq | hd | ⟨r, hr, hqr, hne⟩ := hq
    · exact .inl hq
    · exact .inr (.inl hd)
    · exact .inr (.inr ⟨r, (mem_paths_write content).mpr (.inl hr), hqr, hne⟩)

/-- A file in a directory, where no directory is, keeps the tree sound. -/
lemma Sound.write (ht : t.Sound) (hp : t.isDirectory p = true)
    (hplace : t.isDirectory (p ++ [n]) = false) (content : List UInt8) :
    (t.write (p ++ [n]) content).Sound := by
  refine ⟨fun r hr => ?_, ?_⟩
  · have hold := (isDirectory_write content hp).mp hr
    rw [Bool.eq_false_iff]
    intro hfile
    rcases (mem_paths_write content).mp (isFile_iff.mp hfile) with hr | rfl
    · have := ht.apart r hold
      rw [isFile_iff.mpr hr] at this
      cases this
    · rw [hplace] at hold
      cases hold
  · rw [here_write]
    exact (isDirectory_write content hp).mpr ht.here

/-! ### Files that are no text -/

lemma decode?_encode (s : String) :
    decode? (encode s) = some (String.ofList (unifyLines s.toList)) := by
  have hbytes : String.fromUTF8? s.toUTF8 = some s := by
    rw [String.fromUTF8?]
    split
    · rfl
    · rename_i h
      exact absurd s.isValidUTF8 (by simpa using h)
  rw [decode?, encode, Array.toArray_toList]
  exact congrArg (Option.map _) hbytes

/-- What is done when a text was put into a file: the file is written in a directory that was
made. -/
lemma exists_of_writeAt {directory name content : String}
    (h : t.writeAt directory name content = .ok t') :
    ∃ s p, t.makeFrom (t.start directory) (Path.namesOf directory) = .ok (s, p) ∧
      name.utf8ByteSize ≤ nameLimit ∧ s.isDirectory (p ++ [name]) = false ∧
      t' = s.write (p ++ [name]) (encode content) := by
  rw [writeAt] at h
  dsimp only at h
  split at h
  · cases h
  · rename_i s p hmade
    split at h
    · cases h
    · rename_i hlength
      split at h
      · cases h
      · rename_i hplace
        exact ⟨s, p, hmade, Nat.not_lt.mp hlength, Bool.eq_false_iff.mpr hplace,
          (Except.ok.inj h).symm⟩

/-- A path starts at a directory. -/
lemma Sound.isDirectory_start (ht : t.Sound) (path : String) :
    t.isDirectory (t.start path) = true := by
  unfold start
  split
  · exact isDirectory_iff.mpr (.inl rfl)
  · exact ht.here

/-- A text written to the file of a path is read at the path, with its line ends unified. -/
theorem readAt_writeAt {path content : String} {ms : List String} (ht : t.Sound)
    (hnul : path.toList.contains (Char.ofNat 0) = false) (hnames : Path.namesOf path = ms ++ [n])
    (hn : n ≠ "..")
    (h : t.writeAt (Path.splitLast path).1 (Path.splitLast path).2 content = .ok t') :
    t'.Sound ∧ t'.readAt path = .ok (String.ofList (unifyLines content.toList)) := by
  have hms : ∀ m ∈ ms, Path.IsName m := fun m hm =>
    Path.isName_of_mem_namesOf (hnames ▸ List.mem_append_left _ hm)
  rw [Path.splitLast_eq hnames] at h
  obtain ⟨s, p, hmade, hlength, hplace, rfl⟩ := exists_of_writeAt h
  rw [Path.namesOf_render path hms, start, Path.isAbsolute_render path hms, ← start] at hmade
  have hstart := ht.isDirectory_start path
  obtain ⟨hs, hhere, -, hp⟩ := sound_makeFrom hmade ht hstart
  have hsound := hs.write hp hplace (encode content)
  have hkept : ∀ r, s.isDirectory r = true →
      (s.write (p ++ [n]) (encode content)).isDirectory r = true :=
    fun r hr => (isDirectory_write _ hp).mpr hr
  have hfollow : (s.write (p ++ [n]) (encode content)).follow (t.start path) (ms ++ [n]) =
      .ok (p ++ [n]) := by
    rw [follow_makeFrom hmade ht hstart hsound hkept [n],
      follow_of_isDirectory hsound (hkept p hp) hlength, if_neg (by simpa using hn)]
    rfl
  have hplaced : (s.write (p ++ [n]) (encode content)).place path = .ok (p ++ [n]) := by
    rw [place, hnul, hnames, ← hfollow, start, start, here_write, hhere]
    rfl
  refine ⟨hsound, ?_⟩
  calc (s.write (p ++ [n]) (encode content)).readAt path
      = (s.write (p ++ [n]) (encode content)).readText (p ++ [n]) := by rw [readAt, hplaced]; rfl
    _ = .ok (String.ofList (unifyLines content.toList)) := by
      rw [readText, find?_write_self]
      dsimp only
      rw [decode?_encode]

end Files.Tree

/-- No carriage return stands in the text. -/
def NoReturn (cs : List Char) : Prop := '\r' ∉ cs

instance (cs : List Char) : Decidable (NoReturn cs) := inferInstanceAs (Decidable ('\r' ∉ cs))

namespace NoReturn

lemma append {as bs : List Char} (ha : NoReturn as) (hb : NoReturn bs) : NoReturn (as ++ bs) :=
  fun h => (List.mem_append.mp h).elim ha hb

lemma cons {c : Char} {cs : List Char} (hc : c ≠ '\r') (hcs : NoReturn cs) : NoReturn (c :: cs) :=
  fun h => (List.mem_cons.mp h).elim (fun he => hc he.symm) hcs

lemma sublist {as bs : List Char} (hb : NoReturn bs) (h : as.Sublist bs) : NoReturn as :=
  fun ha => hb (h.subset ha)

lemma replicate {c : Char} (hc : c ≠ '\r') (n : Nat) : NoReturn (List.replicate n c) :=
  fun h => hc (List.eq_of_mem_replicate h).symm

lemma flatMap {α : Type} {f : α → List Char} {as : List α} (h : ∀ a ∈ as, NoReturn (f a)) :
    NoReturn (as.flatMap f) := by
  intro hmem
  obtain ⟨a, ha, hin⟩ := List.mem_flatMap.mp hmem
  exact h a ha hin

lemma string {s t : String} (hs : NoReturn s.toList) (ht : NoReturn t.toList) :
    NoReturn (s ++ t).toList := by
  rw [String.toList_append]
  exact hs.append ht

lemma intercalate {sep : String} {ts : List String} (hsep : NoReturn sep.toList)
    (h : ∀ t ∈ ts, NoReturn t.toList) : NoReturn (sep.intercalate ts).toList := by
  rw [String.toList_intercalate]
  induction ts with
  | nil => exact nofun
  | cons t ts ih =>
    obtain ⟨ht, hts⟩ := List.forall_mem_cons.mp h
    rcases ts with _ | ⟨u, us⟩
    · simpa [List.intercalate_singleton] using ht
    · rw [List.map_cons, List.map_cons, List.intercalate_cons_cons]
      exact (ht.append hsep).append (ih hts)

lemma join {ts : List String} (h : ∀ t ∈ ts, NoReturn t.toList) :
    NoReturn (String.join ts).toList := by
  rw [String.toList_join]
  exact flatMap h

end NoReturn

namespace Files.Tree

lemma unifyLines_cons {c : Char} (hc : c ≠ '\r') (cs : List Char) :
    unifyLines (c :: cs) = c :: unifyLines cs := by
  rw [unifyLines]
  · exact fun _ h _ => hc h
  · exact hc

lemma unifyLines_return {cs : List Char} (h : cs.head? ≠ some '\n') :
    unifyLines ('\r' :: cs) = '\n' :: unifyLines cs := by
  rw [unifyLines]
  rintro ds rfl
  exact h rfl

/-- Only a newline can be one line end with what stands in front of it. -/
lemma unifyLines_append_cons {c : Char} (hc : c ≠ '\n') (as bs : List Char) :
    unifyLines (as ++ c :: bs) = unifyLines as ++ unifyLines (c :: bs) := by
  fun_induction unifyLines as with
  | case1 => rfl
  | case2 as ih => exact congrArg ('\n' :: ·) ih
  | case3 as hnext ih =>
    rw [List.cons_append, unifyLines_return, ih, List.cons_append]
    cases as with
    | nil => simpa using hc
    | cons d ds => simpa using hnext
  | case4 d as _ hd ih => rw [List.cons_append, unifyLines_cons hd, ih, List.cons_append]

lemma unifyLines_append {as : List Char} (h : NoReturn as) (bs : List Char) :
    unifyLines (as ++ bs) = as ++ unifyLines bs := by
  induction as with
  | nil => rfl
  | cons a as ih =>
    obtain ⟨ha, has⟩ : '\r' ≠ a ∧ NoReturn as := by simpa [NoReturn] using h
    rw [List.cons_append, unifyLines_cons ha.symm, ih has, List.cons_append]

end Files.Tree

/-- Line ends stay as they are where there is no carriage return. -/
lemma NoReturn.unifyLines_eq {cs : List Char} (h : NoReturn cs) :
    Files.Tree.unifyLines cs = cs := by
  simpa [Files.Tree.unifyLines] using Files.Tree.unifyLines_append h []

end Stencil
