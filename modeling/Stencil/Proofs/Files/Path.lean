import Mathlib.Data.List.Basic
import Mathlib.Data.List.TakeWhile
import Stencil.Files.Path
import Stencil.Proofs.Text.Pieces

/-!
The text of a path and its names.

A path's text is a lead of slashes and its names with slashes between them (`render`), and the
names are found again in that text (`namesOf_render`). So the directory and the name that a text is
cut into are the text's own names, but for the last, and the last.
-/

namespace Stencil

namespace Files.Path

/-- A name as it stands between slashes. -/
structure IsName (n : String) : Prop where
  noSlash : '/' ∉ n.toList
  ne_empty : n ≠ ""
  ne_dot : n ≠ "."

lemma isName_of_mem_namesOf {s n : String} (h : n ∈ namesOf s) : IsName n := by
  obtain ⟨hn, hproper⟩ := List.mem_filter.mp h
  obtain ⟨w, hw, rfl⟩ := List.mem_map.mp hn
  simp only [Bool.and_eq_true, bne_iff_ne] at hproper
  refine ⟨fun hslash => ?_, hproper.1, hproper.2⟩
  rw [String.toList_ofList] at hslash
  simpa using Text.forall_of_mem_splitBy hw _ hslash

/-- The names in characters. -/
def namesIn (cs : List Char) : List String :=
  ((Text.splitBy (· == '/') cs).map String.ofList).filter fun n => n != "" && n != "."

lemma namesOf_eq (s : String) : namesOf s = namesIn s.toList := rfl

lemma namesIn_append_slash (as bs : List Char) :
    namesIn (as ++ '/' :: bs) = namesIn as ++ namesIn bs := by
  rw [namesIn, Text.splitBy_append_cons as bs rfl, List.map_append, List.filter_append]
  rfl

lemma namesIn_of_isName {n : String} (h : IsName n) : namesIn n.toList = [n] := by
  have hplain : ∀ c ∈ n.toList, (c == '/') = false :=
    fun c hc => beq_false_of_ne fun he => h.noSlash (he ▸ hc)
  rw [namesIn, Text.splitBy_of_forall hplain]
  simp [h.ne_empty, h.ne_dot]

lemma namesIn_intercalate {ns : List String} (h : ∀ n ∈ ns, IsName n) :
    namesIn (['/'].intercalate (ns.map String.toList)) = ns := by
  induction ns with
  | nil => rfl
  | cons n ns ih =>
    obtain ⟨hn, hns⟩ := List.forall_mem_cons.mp h
    rcases ns with _ | ⟨m, ms⟩
    · rw [List.map_singleton, List.intercalate_singleton, namesIn_of_isName hn]
    · rw [List.map_cons, List.map_cons, List.intercalate_cons_cons, List.append_assoc,
        List.singleton_append, namesIn_append_slash, namesIn_of_isName hn, ← List.map_cons, ih hns]
      rfl

/-! ### Leads -/

/-- The slashes in front of a path's names. -/
def lead (s : String) : List Char :=
  if Text.startsWith "//" s && !Text.startsWith "///" s then ['/', '/']
  else if isAbsolute s then ['/']
  else []

/-- A path's text as characters. -/
def render (slashes : List Char) (ns : List String) : List Char :=
  slashes ++ ['/'].intercalate (ns.map String.toList)

lemma lead_cases (s : String) : lead s = [] ∨ lead s = ['/'] ∨ lead s = ['/', '/'] := by
  unfold lead
  split
  · exact .inr (.inr rfl)
  · split
    · exact .inr (.inl rfl)
    · exact .inl rfl

/-- A text with names is not empty. -/
lemma intercalate_ne_nil {ns : List String} (hne : ns ≠ []) (h : ∀ n ∈ ns, IsName n) :
    ['/'].intercalate (ns.map String.toList) ≠ [] := by
  obtain ⟨n, ms, rfl⟩ := List.exists_cons_of_ne_nil hne
  have hn : n.toList ≠ [] := fun hnil =>
    (h n List.mem_cons_self).ne_empty (String.toList_eq_nil_iff.mp hnil)
  rcases ms with _ | ⟨m, ms⟩
  · simpa [List.intercalate_singleton] using hn
  · rw [List.map_cons, List.map_cons, List.intercalate_cons_cons]
    simp

lemma tidy_eq {s : String} (h : namesOf s ≠ []) :
    (tidy s).toList = render (lead s) (namesOf s) := by
  have htext : ∀ k : String, (k ++ "/".intercalate (namesOf s) == "") = false := by
    intro k
    refine beq_false_of_ne fun he => ?_
    have hlist := congrArg String.toList he
    rw [String.toList_append, String.toList_intercalate] at hlist
    exact intercalate_ne_nil h (fun _ => isName_of_mem_namesOf) (List.append_eq_nil_iff.mp hlist).2
  unfold tidy
  dsimp only
  rw [htext, if_neg (by simp), String.toList_append, String.toList_intercalate, render, lead]
  split
  · rfl
  · split <;> rfl

lemma namesIn_render {slashes : List Char} (hs : ∀ c ∈ slashes, c = '/') {ns : List String}
    (h : ∀ n ∈ ns, IsName n) : namesIn (render slashes ns) = ns := by
  induction slashes with
  | nil => exact namesIn_intercalate h
  | cons c cs ih =>
    obtain ⟨rfl, hcs⟩ := List.forall_mem_cons.mp hs
    exact (namesIn_append_slash [] (render cs ns)).trans (ih hcs)

lemma slash_of_mem_lead {s : String} : ∀ c ∈ lead s, c = '/' := by
  rcases lead_cases s with hs | hs | hs <;> simp [hs]

/-- Tidying a path's text keeps its names. -/
lemma namesOf_tidy {s : String} (h : namesOf s ≠ []) : namesOf (tidy s) = namesOf s := by
  rw [namesOf_eq (tidy s), tidy_eq h]
  exact namesIn_render slash_of_mem_lead fun _ => isName_of_mem_namesOf

/-! ### Cutting off the last name -/

lemma intercalate_snoc {as : List (List Char)} (h : as ≠ []) (b : List Char) :
    ['/'].intercalate (as ++ [b]) = ['/'].intercalate as ++ '/' :: b := by
  induction as with
  | nil => exact absurd rfl h
  | cons a as ih =>
    rcases as with _ | ⟨c, as⟩
    · simp [List.intercalate_cons_cons, List.intercalate_singleton]
    · rw [List.cons_append, List.cons_append, List.intercalate_cons_cons, ← List.cons_append,
        ih (List.cons_ne_nil _ _), List.intercalate_cons_cons]
      simp

lemma render_snoc (slashes : List Char) {ms : List String} (h : ms ≠ []) (n : String) :
    render slashes (ms ++ [n]) = render slashes ms ++ '/' :: n.toList := by
  rw [render, List.map_append, List.map_singleton, intercalate_snoc (by simpa using h), render,
    List.append_assoc]

lemma takeWhile_name {n : String} (h : IsName n) (before : List Char)
    (hbefore : ∀ c ∈ before.head?, c = '/') :
    (n.toList.reverse ++ before).takeWhile (· != '/') = n.toList.reverse ∧
      (n.toList.reverse ++ before).dropWhile (· != '/') = before := by
  have hplain : ∀ c ∈ n.toList.reverse, (c != '/') = true := fun c hc =>
    bne_iff_ne.mpr fun he => h.noSlash (he ▸ List.mem_reverse.mp hc)
  rw [List.takeWhile_append_of_pos hplain, List.dropWhile_append_of_pos hplain]
  rcases before with _ | ⟨c, cs⟩
  · simp
  · obtain rfl : c = '/' := hbefore c rfl
    simp

/-- A text with names does not end in a slash. -/
lemma dropWhile_render_reverse (slashes : List Char) {ms : List String} (hne : ms ≠ [])
    (h : ∀ m ∈ ms, IsName m) :
    (render slashes ms).reverse.dropWhile (· == '/') = (render slashes ms).reverse := by
  obtain ⟨ks, m, rfl⟩ := (List.eq_nil_or_concat' ms).resolve_left hne
  have hm : IsName m := h m (by simp)
  obtain ⟨as, c, hlast⟩ : ∃ as c, m.toList = as ++ [c] :=
    (List.eq_nil_or_concat' m.toList).resolve_left fun hnil =>
      hm.ne_empty (String.toList_eq_nil_iff.mp hnil)
  have hc : c ≠ '/' := fun he => hm.noSlash (by simp [hlast, he])
  obtain ⟨front, hfront⟩ : ∃ front, render slashes (ks ++ [m]) = front ++ [c] := by
    rcases eq_or_ne ks [] with rfl | hks
    · exact ⟨slashes ++ as, by simp [render, hlast]⟩
    · exact ⟨render slashes ks ++ '/' :: as, by simp [render_snoc slashes hks, hlast]⟩
  rw [hfront, List.reverse_append, List.reverse_singleton, List.singleton_append,
    List.dropWhile_cons_of_neg (by simpa using hc)]

/-- A path's text is cut into the text of the names in front of the last, and the last. -/
lemma splitLast_eq {s : String} {ms : List String} {n : String} (h : namesOf s = ms ++ [n]) :
    splitLast s = (String.ofList (render (lead s) ms), n) := by
  have hnames : ∀ m ∈ ms ++ [n], IsName m := fun m hm => isName_of_mem_namesOf (h ▸ hm)
  have hn : IsName n := hnames n (by simp)
  have htext : (tidy s).toList = render (lead s) (ms ++ [n]) := by
    rw [tidy_eq (by simp [h]), h]
  rcases eq_or_ne ms [] with rfl | hms
  · have hslash : ∀ c ∈ (lead s).reverse, (c == '/') = true := by
      rcases lead_cases s with hs | hs | hs <;> simp [hs]
    have hrev : (tidy s).toList.reverse = n.toList.reverse ++ (lead s).reverse := by
      simp [htext, render]
    obtain ⟨hname, hbefore⟩ := takeWhile_name hn (lead s).reverse fun c hc =>
      eq_of_beq (hslash c (List.mem_of_mem_head? hc))
    have hdirectory : (lead s).reverse.dropWhile (· == '/') = [] := by
      rw [List.dropWhile_eq_nil_iff]
      exact hslash
    simp [splitLast, hrev, hname, hbefore, hdirectory, render]
  · have hrev : (tidy s).toList.reverse =
        n.toList.reverse ++ '/' :: (render (lead s) ms).reverse := by
      simp [htext, render_snoc (lead s) hms]
    obtain ⟨hname, hbefore⟩ :=
      takeWhile_name hn ('/' :: (render (lead s) ms).reverse) (by simp)
    have hdirectory : ('/' :: (render (lead s) ms).reverse).dropWhile (· == '/') =
        (render (lead s) ms).reverse := by
      rw [List.dropWhile_cons_of_pos (by simp)]
      exact dropWhile_render_reverse (lead s) hms fun m hm => hnames m (by simp [hm])
    have hne : render (lead s) ms ≠ [] := fun hnil =>
      intercalate_ne_nil hms (fun m hm => hnames m (by simp [hm]))
        (List.append_eq_nil_iff.mp hnil).2
    simp [splitLast, hrev, hname, hbefore, hdirectory, hne]

/-- A text that ends in an extension has a last name, and it leads to no other directory. -/
lemma exists_namesIn_append (cs : List Char) {ending : List Char} (hslash : '/' ∉ ending)
    (hlong : 3 ≤ ending.length) :
    ∃ ms n, namesIn (cs ++ ending) = ms ++ [n] ∧ n ≠ ".." := by
  have hplain : ∀ c ∈ ending, (c == '/') = false :=
    fun c hc => beq_false_of_ne fun he => hslash (he ▸ hc)
  obtain ⟨ws, w, -, hsplit⟩ := Text.splitBy_append cs hplain
  have hlength : 3 ≤ (String.ofList (w ++ ending)).length := by
    rw [String.length_ofList, List.length_append]
    omega
  have hne : ∀ m : String, m.length ≤ 2 → String.ofList (w ++ ending) ≠ m := by
    rintro m hm rfl
    omega
  have hproper : (String.ofList (w ++ ending) != "" && String.ofList (w ++ ending) != ".") = true :=
    Bool.and_eq_true_iff.mpr
      ⟨bne_iff_ne.mpr (hne "" (by decide)), bne_iff_ne.mpr (hne "." (by decide))⟩
  refine ⟨(ws.map String.ofList).filter fun n => n != "" && n != ".", _, ?_, hne ".." (by decide)⟩
  rw [namesIn, hsplit, List.map_append, List.filter_append, List.map_singleton,
    List.filter_singleton, hproper, cond_true]

/-- Seen from a directory, too, it has a last name that leads to no other directory. -/
lemma exists_namesOf_joined (directory s : String) {ending : String} (hslash : '/' ∉ ending.toList)
    (hlong : 3 ≤ ending.length) :
    ∃ ms n, namesOf (joined directory (s ++ ending)) = ms ++ [n] ∧ n ≠ ".." := by
  have htidy (x : String) (front : List Char) (hx : x.toList = front ++ ending.toList) :
      ∃ ms n, namesOf (tidy x) = ms ++ [n] ∧ n ≠ ".." := by
    obtain ⟨ms, n, hnames, hn⟩ := exists_namesIn_append front hslash hlong
    have heq : namesOf x = ms ++ [n] := by rw [namesOf_eq, hx, hnames]
    exact ⟨ms, n, by rw [namesOf_tidy (by simp [heq]), heq], hn⟩
  unfold joined
  split_ifs
  · exact htidy _ s.toList (by simp)
  · exact htidy _ (directory.toList ++ s.toList) (by simp)
  · exact htidy _ (directory.toList ++ '/' :: s.toList) (by simp)

/-! ### Where a path starts -/

lemma isAbsolute_eq (s : String) : isAbsolute s = (s.toList.head? == some '/') := by
  unfold isAbsolute Text.startsWith
  rcases s.toList with _ | ⟨c, cs⟩
  · rfl
  · rcases eq_or_ne c '/' with rfl | hc
    · rfl
    · simp [Text.dropLead?, hc, hc.symm]

lemma head?_lead {s : String} (h : isAbsolute s = true) : (lead s).head? = some '/' := by
  rw [lead, if_pos h]
  split <;> rfl

lemma lead_of_not_isAbsolute {s : String} (h : isAbsolute s = false) : lead s = [] := by
  have hhead : s.toList.head? ≠ some '/' := by simpa [isAbsolute_eq] using h
  have hnone : Text.startsWith "//" s = false := by
    unfold Text.startsWith
    rcases hs : s.toList with _ | ⟨c, cs⟩
    · rfl
    · have hc : '/' ≠ c := by simpa [hs, eq_comm] using hhead
      simp [Text.dropLead?, hc]
  simp [lead, hnone, h]

/-- A path with its last names left out starts where the path does. -/
lemma isAbsolute_render (s : String) {ms : List String} (h : ∀ m ∈ ms, IsName m) :
    isAbsolute (String.ofList (render (lead s) ms)) = isAbsolute s := by
  rw [isAbsolute_eq, String.toList_ofList]
  cases hs : isAbsolute s with
  | true => simp [render, List.head?_append, head?_lead hs]
  | false =>
    rw [lead_of_not_isAbsolute hs, beq_eq_false_iff_ne, render, List.nil_append]
    rcases ms with _ | ⟨m, ms⟩
    · simp
    · have hm : IsName m := h m List.mem_cons_self
      have hhead : m.toList.head? ≠ some '/' := fun he => hm.noSlash (List.mem_of_mem_head? he)
      obtain ⟨c, cs, hcs⟩ : ∃ c cs, m.toList = c :: cs :=
        List.exists_cons_of_ne_nil fun hnil => hm.ne_empty (String.toList_eq_nil_iff.mp hnil)
      rcases ms with _ | ⟨k, ks⟩
      · simpa [List.intercalate_singleton] using hhead
      · rw [List.map_cons, List.map_cons, List.intercalate_cons_cons, hcs]
        simpa [hcs] using hhead

/-- The names of a path whose last name is left out are the path's own. -/
lemma namesOf_render (s : String) {ms : List String} (h : ∀ m ∈ ms, IsName m) :
    namesOf (String.ofList (render (lead s) ms)) = ms := by
  rw [namesOf_eq, String.toList_ofList]
  exact namesIn_render slash_of_mem_lead h

end Files.Path

end Stencil
