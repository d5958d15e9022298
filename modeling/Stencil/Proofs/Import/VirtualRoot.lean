import Mathlib.Data.List.Induction
import Mathlib.Tactic.Common
import Stencil.Import.Loader
import Stencil.Proofs.Files.Path

/-!
The virtual root of a fixed collection of documents.

A relative path is a list of names, and to normalise it is to follow its dots (`normalize_eq`). The
keys that loads return name places inside the root (`isInside_of_reached`): seen from one of them, a
path leads from the names of its directory (`target_eq`), and what is left of two dots stands in
front. The loader looks for such dots in the text of the key, where a name that begins with two
dots looks the same.
-/

namespace Stencil.Import

open Files.Path

variable {done ns ms : List String} {n key path : String}

/-! ### Following dots -/

lemma foldDots_append (rooted : Bool) (done as bs : List String) :
    foldDots rooted done (as ++ bs) = foldDots rooted (foldDots rooted done as) bs := by
  induction as generalizing done with
  | nil => rfl
  | cons a as ih =>
    rw [List.cons_append, foldDots, foldDots]
    split
    · exact ih done
    · split
      · exact ih _
      · exact ih _

/-- Empty names and single dots lead nowhere. -/
lemma foldDots_filter (rooted : Bool) (done ns : List String) :
    foldDots rooted done (ns.filter fun n => n != "" && n != ".") = foldDots rooted done ns := by
  induction ns generalizing done with
  | nil => rfl
  | cons n ns ih =>
    have hkept : (n != "" && n != ".") = !(n == "" || n == ".") := (Bool.not_or _ _).symm
    rw [List.filter_cons, hkept]
    cases h : n == "" || n == "." with
    | true => rw [if_neg (by simp), ih, foldDots, if_pos h]
    | false =>
      have hproper : ¬(n == "" || n == ".") = true := by simp [h]
      rw [if_pos (by simp), foldDots, foldDots, if_neg hproper, if_neg hproper, ih, ih]

lemma foldDots_cons (hn : IsName n) (done ns : List String) :
    foldDots false done (n :: ns) =
      if n ≠ ".." ∨ done = [] ∨ done.getLast? = some ".." then foldDots false (done ++ [n]) ns
      else foldDots false done.dropLast ns := by
  have hproper : ¬(n == "" || n == ".") = true := by simp [hn.ne_empty, hn.ne_dot]
  rw [foldDots, if_neg hproper]
  simp [or_assoc]

lemma foldDots_of_noDots (hns : ∀ n ∈ ns, IsName n) (hdots : ".." ∉ ns) (done : List String) :
    foldDots false done ns = done ++ ns := by
  induction ns generalizing done with
  | nil => simp [foldDots]
  | cons n ns ih =>
    obtain ⟨hn, hns⟩ := List.forall_mem_cons.mp hns
    obtain ⟨hne, hdots⟩ := List.ne_and_not_mem_of_not_mem_cons hdots
    rw [foldDots_cons hn, if_pos (.inl hne.symm), ih hns hdots, List.append_assoc,
      List.singleton_append]

/-- Where dots are followed, two dots stand in front of all other names. -/
def DotsInFront (ns : List String) : Prop :=
  ∃ k ms, ns = List.replicate k ".." ++ ms ∧ ".." ∉ ms

lemma dotsInFront_foldDots (hns : ∀ n ∈ ns, IsName n) (hdone : DotsInFront done) :
    DotsInFront (foldDots false done ns) := by
  induction ns generalizing done with
  | nil => exact hdone
  | cons n ns ih =>
    obtain ⟨hn, hns⟩ := List.forall_mem_cons.mp hns
    obtain ⟨k, ms, rfl, hms⟩ := hdone
    rw [foldDots_cons hn]
    rcases List.eq_nil_or_concat' ms with rfl | ⟨front, m, rfl⟩
    · rw [List.append_nil]
      split
      · by_cases hne : n = ".."
        · exact ih hns ⟨k + 1, [], by rw [hne, List.replicate_succ', List.append_nil], by simp⟩
        · exact ih hns ⟨k, [n], rfl, by simpa using Ne.symm hne⟩
      · exact ih hns ⟨k - 1, [], by rw [List.dropLast_replicate, List.append_nil], by simp⟩
    · have hm : m ≠ ".." := fun he => hms (by simp [he])
      have hlast : ¬(List.replicate k ".." ++ (front ++ [m]) = [] ∨
          (List.replicate k ".." ++ (front ++ [m])).getLast? = some "..") := by
        simp [← List.append_assoc, hm]
      split
      · rename_i hor
        have hne : n ≠ ".." := hor.resolve_right hlast
        refine ih hns ⟨k, front ++ [m] ++ [n], List.append_assoc _ _ _, ?_⟩
        simpa [hne.symm] using hms
      · refine ih hns ⟨k, front, ?_, fun hmem => hms (by simp [hmem])⟩
        rw [← List.append_assoc, List.dropLast_concat]

lemma isName_foldDots (hns : ∀ n ∈ ns, IsName n) (hdone : ∀ n ∈ done, IsName n) :
    ∀ n ∈ foldDots false done ns, IsName n := by
  induction ns generalizing done with
  | nil => exact hdone
  | cons n ns ih =>
    obtain ⟨hn, hns⟩ := List.forall_mem_cons.mp hns
    rw [foldDots_cons hn]
    split
    · exact ih hns (List.forall_mem_append.mpr ⟨hdone, by simpa using hn⟩)
    · exact ih hns fun m hm => hdone m (List.mem_of_mem_dropLast hm)

/-! ### The texts of keys -/

/-- The text of the place that is reached over some names. -/
def keyText (ns : List String) : String := if ns = [] then "." else "/".intercalate ns

lemma toList_keyText (hne : ns ≠ []) : (keyText ns).toList = render [] ns := by
  rw [keyText, if_neg hne, String.toList_intercalate]
  rfl

lemma namesOf_keyText (hns : ∀ n ∈ ns, IsName n) : namesOf (keyText ns) = ns := by
  rcases eq_or_ne ns [] with rfl | hne
  · decide
  · rw [namesOf_eq, toList_keyText hne]
    exact namesIn_render (by simp) hns

/-- A text of names starts with the first one's characters. -/
lemma toList_keyText_cons (n : String) (ns : List String) :
    ∃ rest, (keyText (n :: ns)).toList = n.toList ++ rest ∧ ∀ c ∈ rest.head?, c = '/' := by
  rw [toList_keyText (List.cons_ne_nil n ns)]
  rcases ns with _ | ⟨m, ms⟩
  · exact ⟨[], by simp [render, List.intercalate_singleton], by simp⟩
  · refine ⟨'/' :: ['/'].intercalate ((m :: ms).map String.toList), ?_, by simp⟩
    simp [render, List.intercalate_cons_cons]

lemma isAbsolute_keyText (hns : ∀ n ∈ ns, IsName n) : isAbsolute (keyText ns) = false := by
  rcases ns with _ | ⟨n, ns⟩
  · decide
  · obtain ⟨rest, hrest, -⟩ := toList_keyText_cons n ns
    have hn : IsName n := hns n List.mem_cons_self
    obtain ⟨c, cs, hcs⟩ : ∃ c cs, n.toList = c :: cs :=
      List.exists_cons_of_ne_nil fun hnil => hn.ne_empty (String.toList_eq_nil_iff.mp hnil)
    have hc : c ≠ '/' := fun he => hn.noSlash (by simp [hcs, he])
    rw [isAbsolute_eq, hrest, hcs]
    simpa using hc

lemma startsWith_dots_iff {s : String} :
    Text.startsWith ".." s = true ↔ ∃ rest, s.toList = '.' :: '.' :: rest := by
  rw [Text.startsWith_iff]
  exact exists_congr fun rest => eq_comm

/-- A text of names begins with two dots where its first name does. -/
lemma startsWith_dots_keyText (hns : ∀ n ∈ ns, IsName n) :
    Text.startsWith ".." (keyText ns) = true ↔ ∃ n ∈ ns.head?, Text.startsWith ".." n = true := by
  rcases ns with _ | ⟨n, ns⟩
  · decide
  · obtain ⟨rest, hrest, hslash⟩ := toList_keyText_cons n ns
    have hn : IsName n := hns n List.mem_cons_self
    simp only [List.head?_cons, Option.mem_def, Option.some.injEq, exists_eq_left']
    rw [startsWith_dots_iff, startsWith_dots_iff, hrest]
    constructor
    · rintro ⟨tail, htail⟩
      rcases hcs : n.toList with _ | ⟨c, _ | ⟨d, cs⟩⟩
      · exact absurd (String.toList_eq_nil_iff.mp hcs) hn.ne_empty
      · rw [hcs, List.singleton_append] at htail
        obtain ⟨-, rfl⟩ := List.cons.inj htail
        simpa using hslash '.' rfl
      · rw [hcs, List.cons_append, List.cons_append] at htail
        obtain ⟨hc, htail⟩ := List.cons.inj htail
        obtain ⟨hd, -⟩ := List.cons.inj htail
        exact ⟨cs, by rw [hc, hd]⟩
    · rintro ⟨cs, hcs⟩
      exact ⟨cs ++ rest, by rw [hcs]; rfl⟩

/-- To normalise a relative path is to follow the dots among its names. -/
lemma normalize_eq {s : String} (h : isAbsolute s = false) :
    normalize s = keyText (foldDots false [] (namesOf s)) := by
  have hnames : ∀ n ∈ foldDots false [] (namesOf s), IsName n :=
    isName_foldDots (fun _ => isName_of_mem_namesOf) nofun
  have hslash : Text.startsWith "/" s = false := h
  have hslashes : ¬(Text.startsWith "//" s && !Text.startsWith "///" s) = true := by
    intro htwo
    have hlead := lead_of_not_isAbsolute h
    rw [lead, if_pos htwo] at hlead
    cases hlead
  have hfold : foldDots false [] (Text.splitAt '/' s) = foldDots false [] (namesOf s) :=
    (foldDots_filter false [] _).symm
  unfold normalize
  by_cases hs : s = ""
  · rw [hs]
    decide
  · rw [if_neg (by simpa using hs), if_neg hslashes, hslash]
    simp only [Bool.false_eq_true, if_false, bne_self_eq_false, String.empty_append, hfold]
    rw [keyText]
    rcases eq_or_ne (foldDots false [] (namesOf s)) [] with hnil | hne
    · rw [hnil]
      rfl
    · have htext : ("/".intercalate (foldDots false [] (namesOf s)) == "") = false := by
        refine beq_false_of_ne fun he => intercalate_ne_nil hne hnames ?_
        have hlist := congrArg String.toList he
        rwa [String.toList_intercalate] at hlist
      rw [htext, if_neg hne, if_neg (by simp)]

/-! ### Inside the root -/

/-- A key inside the virtual root: a relative path, normalised and without two dots for a name. -/
structure IsInside (key : String) : Prop where
  relative : isAbsolute key = false
  normal : normalize key = key
  noDots : ".." ∉ namesOf key

lemma IsInside.eq_keyText (h : IsInside key) : key = keyText (namesOf key) :=
  calc key = normalize key := h.normal.symm
    _ = keyText (foldDots false [] (namesOf key)) := normalize_eq h.relative
    _ = keyText (namesOf key) := by
      rw [foldDots_of_noDots (fun _ => isName_of_mem_namesOf) h.noDots, List.nil_append]

lemma isInside_keyText (hns : ∀ n ∈ ns, IsName n) (hdots : ".." ∉ ns) : IsInside (keyText ns) where
  relative := isAbsolute_keyText hns
  normal := by
    rw [normalize_eq (isAbsolute_keyText hns), namesOf_keyText hns, foldDots_of_noDots hns hdots,
      List.nil_append]
  noDots := by rwa [namesOf_keyText hns]

/-- The directory of a key has the key's names but for the last. -/
lemma directory_keyText (hns : ∀ n ∈ ns, IsName n) :
    isAbsolute (directory (keyText ns)) = false ∧
      namesOf (directory (keyText ns)) = ns.dropLast := by
  rcases List.eq_nil_or_concat' ns with rfl | ⟨ms, n, rfl⟩
  · decide
  · have hn : IsName n := hns n (by simp)
    have hms : ∀ m ∈ ms, IsName m := fun m hm => hns m (by simp [hm])
    rw [List.dropLast_concat]
    rcases eq_or_ne ms [] with rfl | hne
    · have hcs : (keyText ([] ++ [n])).toList.reverse = n.toList.reverse ++ [] := by
        rw [List.nil_append, List.append_nil, toList_keyText (List.cons_ne_nil n [])]
        simp [render, List.intercalate_singleton]
      have htop : directory (keyText ([] ++ [n])) = "" := by
        rw [directory, hcs, (takeWhile_name hn [] (by simp)).2]
        rfl
      rw [htop]
      decide
    · have hcs : (keyText (ms ++ [n])).toList.reverse =
          n.toList.reverse ++ '/' :: (render [] ms).reverse := by
        rw [toList_keyText (by simp), render_snoc [] hne]
        simp
      have hlast := dropWhile_render_reverse [] hne hms
      have hslashes : ¬((render [] ms).all (· == '/')) = true := by
        intro hall
        have hdropped : (render [] ms).reverse.dropWhile (· == '/') = [] := by
          rw [List.dropWhile_eq_nil_iff]
          exact fun c hc => List.all_eq_true.mp hall c (List.mem_reverse.mp hc)
        rw [hdropped] at hlast
        exact intercalate_ne_nil hne hms (List.reverse_eq_nil_iff.mp hlast.symm)
      have hdirectory : directory (keyText (ms ++ [n])) = keyText ms := by
        rw [directory, hcs, (takeWhile_name hn _ (by simp)).2, List.reverse_cons,
          List.reverse_reverse, if_neg (by simpa using hslashes), List.reverse_append,
          List.reverse_singleton,
          List.singleton_append, List.dropWhile_cons_of_pos (by simp), hlast, List.reverse_reverse,
          ← toList_keyText hne, String.ofList_toList]
      rw [hdirectory]
      exact ⟨isAbsolute_keyText hms, namesOf_keyText hms⟩

/-- A relative path, seen from a directory, has the directory's names in front of its own. -/
lemma join_relative {base : String} (hbase : isAbsolute base = false)
    (hpath : isAbsolute path = false) :
    isAbsolute (join base path) = false ∧
      namesOf (join base path) = namesOf base ++ namesOf path := by
  have hslash : ¬Text.startsWith "/" path = true := by
    rw [← isAbsolute, hpath]
    exact Bool.false_ne_true
  unfold join
  rw [if_neg hslash]
  rcases eq_or_ne base "" with rfl | hne
  · exact ⟨by simpa using hpath, by simp [namesOf_eq, namesIn, Text.splitBy]⟩
  · obtain ⟨c, cs, hcs⟩ : ∃ c cs, base.toList = c :: cs :=
      List.exists_cons_of_ne_nil fun hnil => hne (String.toList_eq_nil_iff.mp hnil)
    have hc : c ≠ '/' := by simpa [isAbsolute_eq, hcs] using hbase
    rw [beq_false_of_ne hne, Bool.false_or]
    split
    · rename_i hends
      obtain ⟨rest, hrest⟩ := Option.isSome_iff_exists.mp hends
      have hbase : base.toList = rest.reverse ++ ['/'] := by
        rw [← List.reverse_reverse base.toList, Text.dropLead?_eq_some_iff.mp hrest]
        exact List.reverse_append
      refine ⟨by simpa [isAbsolute_eq, hcs] using hc, ?_⟩
      simp only [namesOf_eq, String.toList_append, hbase]
      rw [List.append_assoc, List.singleton_append, namesIn_append_slash, namesIn_append_slash]
      simp [namesIn, Text.splitBy]
    · refine ⟨by simpa [isAbsolute_eq, hcs] using hc, ?_⟩
      simp only [namesOf_eq, String.toList_append]
      rw [List.append_assoc]
      exact namesIn_append_slash _ _

/-- The names of the directory that a path is seen from. -/
def baseNames : Option String → List String
  | none => []
  | some r => (namesOf r).dropLast

lemma isName_baseNames (relativeTo : Option String) : ∀ n ∈ baseNames relativeTo, IsName n := by
  rcases relativeTo with _ | r
  · exact nofun
  · exact fun n hn => isName_of_mem_namesOf (List.mem_of_mem_dropLast hn)

lemma noDots_baseNames {relativeTo : Option String} (h : ∀ r ∈ relativeTo, IsInside r) :
    ".." ∉ baseNames relativeTo := by
  rcases relativeTo with _ | r
  · exact nofun
  · exact fun hmem => (h r rfl).noDots (List.mem_of_mem_dropLast hmem)

/-- Seen from a key inside the root, the names of a path are followed from the names of the key's
directory. -/
lemma target_eq {relativeTo : Option String} (hbase : ∀ r ∈ relativeTo, IsInside r)
    (hpath : isAbsolute path = false) :
    target path relativeTo =
      keyText (foldDots false (baseNames relativeTo) (namesOf path)) := by
  have hjoined {base : String} (habs : isAbsolute base = false)
      (hnames : namesOf base = baseNames relativeTo) : normalize (join base path) =
        keyText (foldDots false (baseNames relativeTo) (namesOf path)) := by
    obtain ⟨hrelative, hjoin⟩ := join_relative habs hpath
    rw [normalize_eq hrelative, hjoin, foldDots_append, hnames,
      foldDots_of_noDots (isName_baseNames relativeTo) (noDots_baseNames hbase), List.nil_append]
  rcases relativeTo with _ | r
  · exact hjoined rfl rfl
  · have hr : IsInside r := hbase r rfl
    have hne : r ≠ "" := by
      rintro rfl
      exact absurd hr.normal (by decide)
    have hall : ∀ n ∈ namesOf r, IsName n := fun _ => isName_of_mem_namesOf
    obtain ⟨habs, hnames⟩ := directory_keyText hall
    rw [← hr.eq_keyText] at habs hnames
    rw [target]
    simp only [beq_false_of_ne hne, Bool.false_eq_true, if_false]
    exact hjoined habs hnames

/-- What does not begin with two dots is inside the root. -/
lemma isInside_target {relativeTo : Option String} (hbase : ∀ r ∈ relativeTo, IsInside r)
    (hpath : isAbsolute path = false)
    (hdots : Text.startsWith ".." (target path relativeTo) = false) :
    IsInside (target path relativeTo) := by
  rw [target_eq hbase hpath] at hdots ⊢
  have hnames : ∀ n ∈ foldDots false (baseNames relativeTo) (namesOf path), IsName n :=
    isName_foldDots (fun _ => isName_of_mem_namesOf) (isName_baseNames relativeTo)
  obtain ⟨k, ms, hfold, hms⟩ : DotsInFront (foldDots false (baseNames relativeTo) (namesOf path)) :=
    dotsInFront_foldDots (fun _ => isName_of_mem_namesOf)
      ⟨0, baseNames relativeTo, rfl, noDots_baseNames hbase⟩
  rw [hfold] at hnames hdots ⊢
  rcases k with _ | k
  · exact isInside_keyText hnames hms
  · have hstarts : Text.startsWith ".." (keyText (List.replicate (k + 1) ".." ++ ms)) = true :=
      (startsWith_dots_keyText hnames).mpr ⟨"..", rfl, by decide⟩
    rw [hdots] at hstarts
    cases hstarts

/-! ### Documents by their places -/

/-- The document that is stored for a key: the last one whose path leads to the same place. -/
def stored (documents : List (String × String)) (key : String) : Option String :=
  (documents.reverse.find? (normalize ·.1 == key)).map Prod.snd

/-- Put in for a key, a document is found under it and nothing changes for the other keys. -/
lemma find?_put (acc : List (String × String)) (k s key : String) :
    (if acc.any (·.1 == k) then acc.map fun e => if e.1 == k then (k, s) else e
      else acc ++ [(k, s)]).find? (·.1 == key) =
        if k = key then some (k, s) else acc.find? (·.1 == key) := by
  have hsame : ((fun e : String × String => e.1 == key) ∘
      fun e => if e.1 == k then (k, s) else e) = fun e => e.1 == key := by
    funext e
    rw [Function.comp_apply]
    split
    · rename_i he
      rw [eq_of_beq he]
    · rfl
  by_cases hk : k = key
  · subst hk
    rw [if_pos rfl]
    by_cases hany : acc.any (·.1 == k) = true
    · obtain ⟨e, he⟩ : ∃ e, acc.find? (·.1 == k) = some e :=
        Option.isSome_iff_exists.mp (by simpa [List.find?_isSome] using hany)
      have hkey := List.find?_some he
      rw [if_pos hany, List.find?_map, hsame, he, Option.map_some, if_pos hkey]
    · have hnone : acc.find? (·.1 == k) = none := by
        rw [List.find?_eq_none]
        exact fun e he h => hany (List.any_eq_true.mpr ⟨e, he, h⟩)
      rw [if_neg hany, List.find?_append, hnone, Option.none_or]
      simp
  · rw [if_neg hk]
    split
    · rw [List.find?_map, hsame]
      rcases he : acc.find? (·.1 == key) with _ | e
      · rw [he]
        rfl
      · have hkey : e.1 = key := by simpa using List.find?_some he
        rw [he, Option.map_some, if_neg (by simpa [hkey] using Ne.symm hk)]
    · rw [List.find?_append]
      simp [hk]

lemma find?_normalizeAll (documents : List (String × String)) (key : String) :
    (normalizeAll documents).find? (·.1 == key) = (stored documents key).map fun s => (key, s) := by
  induction documents using List.reverseRecOn with
  | nil => rfl
  | append_singleton documents d ih =>
    unfold normalizeAll at ih ⊢
    rw [List.foldl_append, List.foldl_cons, List.foldl_nil]
    dsimp only
    rw [find?_put, ih, stored, stored, List.reverse_append, List.reverse_singleton,
      List.singleton_append, List.find?_cons]
    by_cases hd : normalize d.1 = key
    · rw [if_pos hd, hd, beq_self_eq_true]
      rfl
    · rw [if_neg hd, beq_false_of_ne hd]

lemma findDocument_of_stored {documents : List (String × String)} {source : String}
    (h : stored documents key = some source) (path : String) :
    findDocument (normalizeAll documents) path key = .ok (key, source) := by
  unfold findDocument
  rw [find?_normalizeAll, h]
  rfl

/-- What is found for a target is stored under it or under the target with the extension. -/
lemma stored_of_findDocument {documents : List (String × String)} {target source : String}
    (h : findDocument (normalizeAll documents) path target = .ok (key, source)) :
    (key = target ∨ key = target ++ templateExtension) ∧ stored documents key = some source := by
  have hfound {k : String} {d : String × String}
      (hd : (stored documents k).map (fun s => (k, s)) = some d) (hkey : d = (key, source)) :
      key = k ∧ stored documents key = some source := by
    obtain ⟨s, hs, rfl⟩ := Option.map_eq_some_iff.mp hd
    obtain ⟨rfl, rfl⟩ := Prod.mk.inj hkey
    exact ⟨rfl, hs⟩
  unfold findDocument at h
  rw [find?_normalizeAll, find?_normalizeAll] at h
  split at h
  · rename_i d hd
    obtain ⟨hkey, hs⟩ := hfound hd (Except.ok.inj h)
    exact ⟨.inl hkey, hs⟩
  · split at h
    · rename_i d hd
      obtain ⟨hkey, hs⟩ := hfound hd (Except.ok.inj h)
      exact ⟨.inr hkey, hs⟩
    · cases h

/-! ### Checked paths -/

lemma isAbsolute_of_checkPath (h : checkPath path = .ok ()) : isAbsolute path = false := by
  unfold checkPath at h
  split at h
  · cases h
  · split at h
    · cases h
    · split at h
      · cases h
      · rename_i hslash
        rw [Bool.or_eq_true, not_or] at hslash
        exact Bool.eq_false_iff.mpr hslash.1

/-- Of names with a slash between neighbours, none is empty: no slash follows another. -/
lemma not_hasText_slashes {ws : List String} (hne : ws ≠ [])
    (hws : ∀ w ∈ ws, w ≠ "" ∧ '/' ∉ w.toList) {s : String} (hs : s.toList = render [] ws) :
    Text.hasText "://" s = false := by
  have hpieces : Text.splitBy (· == '/') (render [] ws) = ws.map String.toList := by
    clear hs
    induction ws with
    | nil => exact absurd rfl hne
    | cons w ws ih =>
      obtain ⟨⟨-, hw⟩, hws⟩ := List.forall_mem_cons.mp hws
      have hplain : ∀ c ∈ w.toList, (c == '/') = false :=
        fun c hc => beq_false_of_ne fun he => hw (he ▸ hc)
      rcases ws with _ | ⟨v, vs⟩
      · rw [render, List.nil_append, List.map_singleton, List.intercalate_singleton,
          Text.splitBy_of_forall hplain]
      · have hrest := ih (List.cons_ne_nil v vs) hws
        rw [render, List.nil_append, List.map_cons] at hrest ⊢
        rw [List.map_cons, List.intercalate_cons_cons, List.append_assoc, List.singleton_append,
          Text.splitBy_append_cons _ _ (by simp), Text.splitBy_of_forall hplain, hrest,
          List.singleton_append]
  rw [Bool.eq_false_iff, Ne, Text.hasText_iff]
  rintro ⟨before, after, hparts⟩
  have hempty : [] ∈ ws.map String.toList := by
    rw [← hpieces, ← hs, ← hparts]
    have hcut : before ++ "://".toList ++ after =
        (before ++ [':']) ++ '/' :: ([] ++ '/' :: after) := by
      simp
    rw [hcut, Text.splitBy_append_cons (before ++ [':']) _ rfl,
      Text.splitBy_append_cons [] after rfl]
    exact List.mem_append_right _ (List.mem_append_left _ List.mem_cons_self)
  obtain ⟨w, hw, hnil⟩ := List.mem_map.mp hempty
  exact (hws w hw).1 (String.toList_eq_nil_iff.mp hnil)

/-- A text of names with a dot in front is a path that can be loaded. -/
lemma checkPath_dot (hns : ∀ n ∈ ns, IsName n) : checkPath ("./" ++ keyText ns) = .ok () := by
  have hpieces : ∃ ws, ("./" ++ keyText ns).toList = render [] ("." :: ws) ∧
      ∀ w ∈ "." :: ws, w ≠ "" ∧ '/' ∉ w.toList := by
    rcases ns with _ | ⟨n, ns⟩
    · exact ⟨["."], by decide, by decide⟩
    · refine ⟨n :: ns, ?_, List.forall_mem_cons.mpr ⟨by decide, fun w hw => ?_⟩⟩
      · rw [String.toList_append, toList_keyText (List.cons_ne_nil n ns)]
        simp [render, List.intercalate_cons_cons]
      · exact ⟨(hns w hw).ne_empty, (hns w hw).noSlash⟩
  obtain ⟨ws, hws, hproper⟩ := hpieces
  have hlead : ("./" ++ keyText ns).toList = '.' :: '/' :: (keyText ns).toList := by
    rw [String.toList_append]
    rfl
  have hblank : Text.allBlank ("./" ++ keyText ns) = false := by
    rw [Text.allBlank, hlead, List.all_cons]
    rfl
  have hslash : Text.startsWith "/" ("./" ++ keyText ns) = false := by
    rw [Text.startsWith, hlead]
    rfl
  have hback : Text.startsWith "\\" ("./" ++ keyText ns) = false := by
    rw [Text.startsWith, hlead]
    rfl
  rw [checkPath, hblank, not_hasText_slashes (List.cons_ne_nil _ _) hproper hws, hslash, hback]
  rfl

lemma namesOf_dot (s : String) : namesOf ("./" ++ s) = namesOf s := by
  have hlead : ("./" ++ s).toList = ['.'] ++ '/' :: s.toList := by
    rw [String.toList_append]
    rfl
  rw [namesOf_eq, hlead, namesIn_append_slash]
  rfl

/-! ### What loads return -/

variable {documents : List (String × String)} {relativeTo : Option String} {source : String}

/-- The keys that loads return one after another, the first of them from the root. -/
inductive Reached (documents : List (String × String)) : String → Prop where
  | fromRoot {path key source : String}
    (h : (fixed documents).load path none = .ok (key, source)) : Reached documents key
  | fromKey {path key source r : String} (hr : Reached documents r)
    (h : (fixed documents).load path (some r) = .ok (key, source)) : Reached documents key

lemma load_of_checkPath (h : checkPath path = .ok ()) (documents : List (String × String))
    (relativeTo : Option String) :
    (fixed documents).load path relativeTo =
      if Text.startsWith ".." (target path relativeTo) then .error (.outsideRoot path)
      else findDocument (normalizeAll documents) path (target path relativeTo) := by
  change loadFrom _ _ _ = _
  rw [loadFrom, h]

lemma load_eq_ok (h : (fixed documents).load path relativeTo = .ok (key, source)) :
    checkPath path = .ok () ∧ Text.startsWith ".." (target path relativeTo) = false ∧
      (key = target path relativeTo ∨ key = target path relativeTo ++ templateExtension) ∧
      stored documents key = some source := by
  rcases hcheck : checkPath path with f | _
  · change loadFrom _ _ _ = _ at h
    rw [loadFrom, hcheck] at h
    cases h
  · rw [load_of_checkPath hcheck] at h
    split at h
    · cases h
    · rename_i hdots
      exact ⟨rfl, by simpa using hdots, stored_of_findDocument h⟩

lemma keyText_append (ms : List String) (n ending : String) :
    keyText (ms ++ [n]) ++ ending = keyText (ms ++ [n ++ ending]) := by
  apply String.toList_inj.mp
  rw [String.toList_append, toList_keyText (by simp), toList_keyText (by simp)]
  rcases eq_or_ne ms [] with rfl | hne
  · simp [render, List.intercalate_singleton]
  · rw [render_snoc [] hne, render_snoc [] hne]
    simp

lemma isName_append_templateExtension (hn : IsName n) : IsName (n ++ templateExtension) := by
  have hlong : 5 ≤ (n ++ templateExtension).length := by
    rw [String.length_append]
    exact Nat.le_add_left _ _
  refine ⟨?_, fun he => ?_, fun he => ?_⟩
  · rw [String.toList_append, List.mem_append, not_or]
    exact ⟨hn.noSlash, by decide⟩
  · exact absurd (he ▸ hlong) (by decide)
  · exact absurd (he ▸ hlong) (by decide)

lemma isInside_append_templateExtension (h : IsInside key) :
    IsInside (key ++ templateExtension) := by
  have hnames : ∀ n ∈ namesOf key, IsName n := fun _ => isName_of_mem_namesOf
  rw [h.eq_keyText]
  rcases List.eq_nil_or_concat' (namesOf key) with hnil | ⟨ms, n, hsnoc⟩
  · rw [hnil]
    have hname : ∀ n ∈ ["..echo"], IsName n := by
      simpa using ⟨by decide, by decide, by decide⟩
    exact isInside_keyText hname (by decide)
  · have hdots := h.noDots
    rw [hsnoc] at hnames hdots ⊢
    rw [keyText_append]
    refine isInside_keyText (fun m hm => ?_) ?_
    · rcases List.mem_append.mp hm with hm | hm
      · exact hnames m (by simp [hm])
      · rw [List.mem_singleton.mp hm]
        exact isName_append_templateExtension (hnames n (by simp))
    · intro hmem
      rcases List.mem_append.mp hmem with hmem | hmem
      · exact hdots (by simp [hmem])
      · exact append_templateExtension_ne n (List.mem_singleton.mp hmem).symm

/-- The extension makes a key begin with two dots only where it is put to the root itself. -/
lemma startsWith_append_templateExtension (hne : key ≠ "")
    (hdots : Text.startsWith ".." key = false)
    (h : Text.startsWith ".." (key ++ templateExtension) = true) : key = "." := by
  obtain ⟨rest, hrest⟩ := startsWith_dots_iff.mp h
  rw [String.toList_append] at hrest
  rcases hcs : key.toList with _ | ⟨c, _ | ⟨d, cs⟩⟩
  · exact absurd (String.toList_eq_nil_iff.mp hcs) hne
  · rw [hcs, List.singleton_append] at hrest
    apply String.toList_inj.mp
    rw [hcs, (List.cons.inj hrest).1]
    rfl
  · rw [hcs, List.cons_append, List.cons_append] at hrest
    obtain ⟨hc, hrest⟩ := List.cons.inj hrest
    obtain ⟨hd, -⟩ := List.cons.inj hrest
    rw [startsWith_dots_iff.mpr ⟨cs, by rw [hcs, hc, hd]⟩] at hdots
    cases hdots

/-- A load from a key inside the root returns such a key again. -/
lemma isInside_of_load (hbase : ∀ r ∈ relativeTo, IsInside r)
    (h : (fixed documents).load path relativeTo = .ok (key, source)) :
    IsInside key ∧ (Text.startsWith ".." key = true ↔ key = "..echo") := by
  obtain ⟨hcheck, hdots, hkey, -⟩ := load_eq_ok h
  have hinside : IsInside (target path relativeTo) :=
    isInside_target hbase (isAbsolute_of_checkPath hcheck) hdots
  have hne : target path relativeTo ≠ "" := by
    intro hempty
    have hnormal := hinside.normal
    rw [hempty] at hnormal
    exact absurd hnormal (by decide)
  rcases hkey with rfl | rfl
  · refine ⟨hinside, fun htrue => absurd htrue (by simp [hdots]), fun he => ?_⟩
    rw [he] at hdots
    cases hdots
  · refine ⟨isInside_append_templateExtension hinside, fun htrue => ?_, fun he => ?_⟩
    · rw [startsWith_append_templateExtension hne hdots htrue]
      rfl
    · rw [he]
      decide

lemma isInside_of_reached {r : String} (h : Reached documents r) : IsInside r := by
  induction h with
  | fromRoot h => exact (isInside_of_load (by simp) h).1
  | fromKey _ h ih => exact (isInside_of_load (by simpa using ih) h).1

/-- From the root, a dot and a key inside it lead to the key's own document. -/
lemma target_dot (h : IsInside key) : target ("./" ++ key) none = key := by
  have hrelative : isAbsolute ("./" ++ key) = false := by
    rw [isAbsolute_eq, String.toList_append]
    rfl
  rw [target_eq (by simp) hrelative, baseNames, namesOf_dot,
    foldDots_of_noDots (fun _ => isName_of_mem_namesOf) h.noDots, List.nil_append, ← h.eq_keyText]

/-- A target that is stored is what a load returns, unless its text begins with two dots. -/
lemma load_of_target (hcheck : checkPath path = .ok ()) (htarget : target path relativeTo = key)
    (hstored : stored documents key = some source) :
    (fixed documents).load path relativeTo =
      if Text.startsWith ".." key then .error (.outsideRoot path) else .ok (key, source) := by
  rw [load_of_checkPath hcheck, htarget, findDocument_of_stored hstored]

/-- **Loads stay inside the virtual root**: a key that is returned is a normalised relative path
without two dots for a name, the document is the one stored under it, and from the root the key
leads to the same document again, except the key that the extension makes of the root itself; and
paths that lead to the same target load the same. -/
theorem load_inside (documents : List (String × String)) (path : String)
    (relativeTo : Option String) (hbase : ∀ r ∈ relativeTo, Reached documents r) :
    (∀ key source, (fixed documents).load path relativeTo = .ok (key, source) →
      IsInside key ∧ stored documents key = some source ∧
        (fixed documents).load ("./" ++ key) none =
          if key = "..echo" then .error (.outsideRoot ("./" ++ key)) else .ok (key, source)) ∧
      ∀ path' relativeTo', checkPath path = .ok () → checkPath path' = .ok () →
        target path relativeTo = target path' relativeTo' →
          ((fixed documents).load path relativeTo).toOption =
            ((fixed documents).load path' relativeTo').toOption := by
  constructor
  · intro key source h
    obtain ⟨hinside, hdots⟩ := isInside_of_load (fun r hr => isInside_of_reached (hbase r hr)) h
    obtain ⟨-, -, -, hstored⟩ := load_eq_ok h
    have hcheck : checkPath ("./" ++ key) = .ok () := by
      rw [hinside.eq_keyText]
      exact checkPath_dot fun _ => isName_of_mem_namesOf
    refine ⟨hinside, hstored, ?_⟩
    rw [load_of_target hcheck (target_dot hinside) hstored]
    simp only [hdots]
  · intro path' relativeTo' hcheck hcheck' htarget
    rw [load_of_checkPath hcheck, load_of_checkPath hcheck', htarget]
    split
    · rfl
    · unfold findDocument
      split
      · rfl
      · split <;> rfl

/-- A key found without its extension leads to its document again, but not the extension alone. -/
theorem load_inside_dotted :
    let documents := [("./..echo", "X"), ("a//b.echo", "B")]
    Reached documents "a/b.echo" ∧
      (fixed documents).load "../a/./b" (some "a/b.echo") = .ok ("a/b.echo", "B") ∧
      (fixed documents).load "./a/b.echo" none = .ok ("a/b.echo", "B") ∧
      (fixed documents).load "." none = .ok ("..echo", "X") ∧
      (fixed documents).load "./..echo" none = .error (.outsideRoot "./..echo") := by
  intro documents
  have hreached : Reached documents "a/b.echo" :=
    .fromRoot (show (fixed documents).load "a/b" none = .ok ("a/b.echo", "B") by decide +kernel)
  have hload : (fixed documents).load "../a/./b" (some "a/b.echo") = .ok ("a/b.echo", "B") := by
    decide +kernel
  have hdot : (fixed documents).load "." none = .ok ("..echo", "X") := by decide +kernel
  have hagain := ((load_inside documents _ (some "a/b.echo") (by simpa using hreached)).1 _ _
    hload).2.2
  have hout := ((load_inside documents "." none (by simp)).1 _ _ hdot).2.2
  rw [if_neg (by decide)] at hagain
  rw [if_pos rfl] at hout
  exact ⟨hreached, hload, hagain, hdot, hout⟩

/-! ### From one place to another -/

/-- The names that lead from one place to another: up to what the two have in common, and down. -/
def way : List String → List String → List String
  | [], ks => ks
  | b :: bs, k :: ks =>
    if b = k then way bs ks else List.replicate (bs.length + 1) ".." ++ k :: ks
  | b :: bs, [] => List.replicate (b :: bs).length ".."

/-- The relative path that leads to a key from the directory of another, or else from the root. -/
def relativePath (relativeTo : Option String) (key : String) : String :=
  keyText (way (baseNames relativeTo) (namesOf key))

lemma isName_dots : IsName ".." := ⟨by decide, by decide, by decide⟩

lemma isName_way {bs ks : List String} (hks : ∀ k ∈ ks, IsName k) : ∀ n ∈ way bs ks, IsName n := by
  induction bs generalizing ks with
  | nil => exact hks
  | cons b bs ih =>
    rcases ks with _ | ⟨k, ks⟩
    · exact fun n hn => List.eq_of_mem_replicate hn ▸ isName_dots
    · rw [way]
      split
      · exact ih (List.forall_mem_cons.mp hks).2
      · refine List.forall_mem_append.mpr ⟨fun n hn => ?_, hks⟩
        exact List.eq_of_mem_replicate hn ▸ isName_dots

/-- Two dots for each name lead up. -/
lemma foldDots_up {bs : List String} (hdots : ".." ∉ bs) (front rest : List String) :
    foldDots false (front ++ bs) (List.replicate bs.length ".." ++ rest) =
      foldDots false front rest := by
  induction bs using List.reverseRecOn with
  | nil => simp
  | append_singleton bs b ih =>
    have hb : b ≠ ".." := fun he => hdots (by simp [he])
    have hlast : ¬(".." ≠ ".." ∨ front ++ (bs ++ [b]) = [] ∨
        (front ++ (bs ++ [b])).getLast? = some "..") := by
      simp [← List.append_assoc, hb]
    rw [List.length_append, List.length_singleton, List.replicate_succ, List.cons_append,
      foldDots_cons isName_dots, if_neg hlast, ← List.append_assoc, List.dropLast_concat]
    exact ih fun hmem => hdots (by simp [hmem])

/-- The way from one place to another ends there. -/
lemma foldDots_way {bs ks : List String} (hks : ∀ k ∈ ks, IsName k) (hdots : ".." ∉ bs)
    (hdots' : ".." ∉ ks) (front : List String) :
    foldDots false (front ++ bs) (way bs ks) = front ++ ks := by
  induction bs generalizing ks front with
  | nil => rw [way, List.append_nil, foldDots_of_noDots hks hdots']
  | cons b bs ih =>
    rcases ks with _ | ⟨k, ks⟩
    · have hup := foldDots_up hdots front []
      rwa [List.append_nil] at hup ⊢
    · rw [way]
      split
      · rename_i hbk
        subst hbk
        have hstep := ih (List.forall_mem_cons.mp hks).2 (List.not_mem_of_not_mem_cons hdots)
          (List.not_mem_of_not_mem_cons hdots') (front ++ [b])
        simpa using hstep
      · rw [← List.length_cons (a := b), foldDots_up hdots, foldDots_of_noDots hks hdots']

/-- The relative path to a key inside the root leads there, with a dot in front or without. -/
lemma target_relativePath (hbase : ∀ r ∈ relativeTo, IsInside r) (h : IsInside key)
    (hpath : path = relativePath relativeTo key ∨ path = "./" ++ relativePath relativeTo key) :
    target path relativeTo = key := by
  have hway : ∀ n ∈ way (baseNames relativeTo) (namesOf key), IsName n :=
    isName_way fun _ => isName_of_mem_namesOf
  have hpath' : isAbsolute path = false ∧
      namesOf path = way (baseNames relativeTo) (namesOf key) := by
    rcases hpath with rfl | rfl
    · exact ⟨isAbsolute_keyText hway, namesOf_keyText hway⟩
    · refine ⟨?_, by rw [namesOf_dot, relativePath, namesOf_keyText hway]⟩
      rw [isAbsolute_eq, String.toList_append]
      rfl
  have hfold := foldDots_way (fun _ => isName_of_mem_namesOf) (noDots_baseNames hbase) h.noDots []
  rw [List.nil_append, List.nil_append] at hfold
  rw [target_eq hbase hpath'.1, hpath'.2, hfold, ← h.eq_keyText]

/-! ### Every document inside the root -/

/-- A path that starts with a slash does so when it is normalised. -/
lemma isAbsolute_normalize (h : isAbsolute path = true) : isAbsolute (normalize path) = true := by
  have hslash : Text.startsWith "/" path = true := h
  have hne : ¬(path == "") = true := by
    rw [beq_iff_eq]
    rintro rfl
    cases h
  have hlead (slashes rest : String) (hhead : slashes.toList.head? = some '/') :
      isAbsolute (if slashes ++ rest == "" then "." else slashes ++ rest) = true := by
    have hcs : (slashes ++ rest).toList.head? = some '/' := by
      rw [String.toList_append, List.head?_append, hhead]
      rfl
    rw [if_neg, isAbsolute_eq, hcs]
    · rfl
    · rw [beq_iff_eq]
      intro hempty
      rw [hempty] at hcs
      cases hcs
  rw [normalize, if_neg hne, if_pos hslash]
  dsimp only
  split
  · exact hlead "//" _ rfl
  · exact hlead "/" _ rfl

/-- A document whose normalised path is relative and without two dots for a name is inside. -/
lemma isInside_normalize (hrelative : isAbsolute (normalize path) = false)
    (hdots : ".." ∉ namesOf (normalize path)) : IsInside (normalize path) := by
  have hpath : isAbsolute path = false := by
    rw [← Bool.not_eq_true]
    intro habsolute
    rw [isAbsolute_normalize habsolute] at hrelative
    cases hrelative
  have hnames : ∀ n ∈ foldDots false [] (namesOf path), IsName n :=
    isName_foldDots (fun _ => isName_of_mem_namesOf) nofun
  rw [normalize_eq hpath] at hdots ⊢
  rw [namesOf_keyText hnames] at hdots
  exact isInside_keyText hnames hdots

lemma exists_stored {p : String} (h : p ∈ documents.map Prod.fst) :
    ∃ source, stored documents (normalize p) = some source := by
  obtain ⟨d, hd, rfl⟩ := List.mem_map.mp h
  have hfound : (documents.reverse.find? (normalize ·.1 == normalize d.1)).isSome = true := by
    rw [List.find?_isSome]
    exact ⟨d, List.mem_reverse.mpr hd, beq_self_eq_true _⟩
  obtain ⟨e, he⟩ := Option.isSome_iff_exists.mp hfound
  exact ⟨e.2, by rw [stored, he]; rfl⟩

/-- A path that can be loaded leads to a key, seen from a document or else from the root. -/
structure Leads (relativeTo : Option String) (path key : String) : Prop where
  checked : checkPath path = .ok ()
  target_eq : target path relativeTo = key

/-- What is rejected as leading out of the root begins with two dots once its dots are followed. -/
lemma load_outsideRoot_iff (hbase : ∀ r ∈ relativeTo, IsInside r) :
    (fixed documents).load path relativeTo = .error (.outsideRoot path) ↔
      ∃ key, Leads relativeTo path key ∧
        ∃ n ∈ (namesOf key).head?, Text.startsWith ".." n = true := by
  rcases hcheck : checkPath path with f | _
  · have hother : f ≠ .outsideRoot path := by
      rintro rfl
      unfold checkPath at hcheck
      split at hcheck
      · cases hcheck
      · split at hcheck
        · cases hcheck
        · split at hcheck <;> cases hcheck
    constructor
    · intro h
      change loadFrom _ _ _ = _ at h
      rw [loadFrom, hcheck] at h
      exact absurd (Except.error.inj h) hother
    · rintro ⟨key, hleads, -⟩
      rw [hleads.checked] at hcheck
      cases hcheck
  · have hnames : ∀ n ∈ foldDots false (baseNames relativeTo) (namesOf path), IsName n :=
      isName_foldDots (fun _ => isName_of_mem_namesOf) (isName_baseNames relativeTo)
    have hdots : Text.startsWith ".." (target path relativeTo) = true ↔
        ∃ n ∈ (namesOf (target path relativeTo)).head?, Text.startsWith ".." n = true := by
      rw [target_eq hbase (isAbsolute_of_checkPath hcheck), namesOf_keyText hnames]
      exact startsWith_dots_keyText hnames
    rw [load_of_checkPath hcheck]
    constructor
    · intro h
      split at h
      · rename_i hstarts
        exact ⟨_, ⟨hcheck, rfl⟩, hdots.mp hstarts⟩
      · unfold findDocument at h
        split at h
        · cases h
        · split at h <;> cases h
    · rintro ⟨key, ⟨-, rfl⟩, hhead⟩
      rw [if_pos (hdots.mpr hhead)]

/-- **Every document inside the virtual root is reachable**, from the root and from any document
that was loaded before, over every path that leads to its key, unless the key begins with two dots:
then each such path is rejected. For a path is rejected as one that leads out of the root exactly
if the first name of its target begins with two dots, be it these two dots or a longer name. -/
theorem load_reaches (documents : List (String × String)) (relativeTo : Option String)
    (hbase : ∀ r ∈ relativeTo, Reached documents r) :
    (∀ p ∈ documents.map Prod.fst, isAbsolute (normalize p) = false →
      ".." ∉ namesOf (normalize p) →
        Leads none ("./" ++ normalize p) (normalize p) ∧
          Leads relativeTo ("./" ++ relativePath relativeTo (normalize p)) (normalize p) ∧
          target (relativePath relativeTo (normalize p)) relativeTo = normalize p ∧
          ∃ source, stored documents (normalize p) = some source ∧
            ∀ relativeTo' path, Leads relativeTo' path (normalize p) →
              (fixed documents).load path relativeTo' =
                if Text.startsWith ".." (normalize p) then .error (.outsideRoot path)
                else .ok (normalize p, source)) ∧
      ∀ path, (fixed documents).load path relativeTo = .error (.outsideRoot path) ↔
        ∃ key, Leads relativeTo path key ∧
          ∃ n ∈ (namesOf key).head?, Text.startsWith ".." n = true := by
  have hbase' : ∀ r ∈ relativeTo, IsInside r := fun r hr => isInside_of_reached (hbase r hr)
  refine ⟨fun p hp hrelative hdots => ?_, fun path => load_outsideRoot_iff hbase'⟩
  have hinside : IsInside (normalize p) := isInside_normalize hrelative hdots
  obtain ⟨source, hsource⟩ := exists_stored hp
  have hcheck : checkPath ("./" ++ normalize p) = .ok () := by
    rw [hinside.eq_keyText]
    exact checkPath_dot fun _ => isName_of_mem_namesOf
  have hway : checkPath ("./" ++ relativePath relativeTo (normalize p)) = .ok () :=
    checkPath_dot (isName_way fun _ => isName_of_mem_namesOf)
  exact ⟨⟨hcheck, target_dot hinside⟩,
    ⟨hway, target_relativePath hbase' hinside (.inr rfl)⟩,
    target_relativePath hbase' hinside (.inl rfl),
    source, hsource, fun _ _ hleads => load_of_target hleads.checked hleads.target_eq hsource⟩

/-- A document beside another is reached over its name, but none whose name begins with two dots. -/
theorem load_reaches_dotted :
    let documents := [("a/b.echo", "B"), ("a/./c.echo", "C"), ("..foo", "X")]
    Reached documents "a/b.echo" ∧
      relativePath (some "a/b.echo") (normalize "a/./c.echo") = "c.echo" ∧
      (fixed documents).load "./c.echo" (some "a/b.echo") = .ok ("a/c.echo", "C") ∧
      relativePath (some "a/b.echo") (normalize "..foo") = "../..foo" ∧
      (fixed documents).load "./../..foo" (some "a/b.echo") =
        .error (.outsideRoot "./../..foo") := by
  intro documents
  have hreached : Reached documents "a/b.echo" :=
    .fromRoot (show (fixed documents).load "a/b" none = .ok ("a/b.echo", "B") by decide +kernel)
  obtain ⟨hinside, -⟩ := load_reaches documents (some "a/b.echo") (by simpa using hreached)
  have hc : relativePath (some "a/b.echo") (normalize "a/./c.echo") = "c.echo" := by decide +kernel
  have hfoo : relativePath (some "a/b.echo") (normalize "..foo") = "../..foo" := by decide +kernel
  obtain ⟨-, hleadsc, -, c, hstoredc, hloadc⟩ := hinside "a/./c.echo" (by simp [documents])
    (by decide +kernel) (by decide +kernel)
  obtain ⟨-, hleadsfoo, -, x, -, hloadfoo⟩ := hinside "..foo" (by simp [documents])
    (by decide +kernel) (by decide +kernel)
  have hsource : stored documents (normalize "a/./c.echo") = some "C" := by decide +kernel
  obtain rfl : c = "C" := Option.some.inj (hstoredc.symm.trans hsource)
  have hreachesc := hloadc _ _ hleadsc
  have hrejects := hloadfoo _ _ hleadsfoo
  rw [hc, if_neg (by decide +kernel), show normalize "a/./c.echo" = "a/c.echo" by decide +kernel]
    at hreachesc
  rw [hfoo, if_pos (by decide +kernel)] at hrejects
  exact ⟨hreached, hc, hreachesc, hfoo, hrejects⟩

end Stencil.Import
