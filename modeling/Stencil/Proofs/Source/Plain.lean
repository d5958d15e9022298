import Mathlib.Data.List.Infix
import Stencil.Proofs.Source.Lexeme
import Stencil.Proofs.Text.Pieces

/-!
Plain text and the constructs that end it.

What starts a construct is known from its first characters, and no construct starts inside the
words that start another. So the text in front of a construct is the same with more text behind,
and so is the construct, but for an else-if whose last letter the source ends with.
-/

namespace Stencil.Source

open Text (dropLead?_eq_some_iff isWordChar)

/-! ### Constructs -/

lemma begins_iff {w : String} {cs : List Char} : begins w cs = true ↔ w.toList <+: cs := by
  rw [begins, Option.isSome_iff_exists]
  exact exists_congr fun r => dropLead?_eq_some_iff.trans eq_comm

/-- The closing directives and what they are called. -/
def closerNames : List (String × String) :=
  [("[ELSE]", "ELSE"), ("[END IF]", "END_IF"), ("[END SECTION]", "END_SECTION")]

/-- What the construct at the front of a text looks like. -/
inductive Opens (cs : List Char) : Opening → Prop
  | slot (h : "\x7b\x7b".toList <+: cs) : Opens cs .slot
  | directive {c : Char} (hc : isUpperStart c = true) (h : ['[', '#', c] <+: cs) :
      Opens cs .directive
  | elseIf {r : List Char} (h : cs = "[ELSE IF".toList ++ r) (hr : Ends isWordChar r) :
      Opens cs .elseIf
  | closer {lexeme value : String} (hn : (lexeme, value) ∈ closerNames)
      (h : lexeme.toList <+: cs) : Opens cs (.closer lexeme value)
  | context (h : "#context(".toList <+: cs) : Opens cs .context

lemma beginsElseIf_iff {cs : List Char} : beginsElseIf cs = true ↔
    ∃ r, cs = "[ELSE IF".toList ++ r ∧ Ends isWordChar r := by
  unfold beginsElseIf
  split
  · rename_i h
    refine ⟨nofun, ?_⟩
    rintro ⟨r, hr, -⟩
    rw [dropLead?_eq_some_iff.mpr hr] at h
    cases h
  · rename_i h
    exact ⟨fun _ => ⟨[], dropLead?_eq_some_iff.mp h, ends_nil⟩, fun _ => rfl⟩
  · rename_i c r h
    have h := dropLead?_eq_some_iff.mp h
    constructor
    · exact fun hc => ⟨c :: r, h, ends_cons.mpr (by simpa using hc)⟩
    · rintro ⟨r', hr, hends⟩
      obtain rfl := List.append_cancel_left (h.symm.trans hr)
      simpa using ends_cons.mp hends

lemma opens_of_opening? {cs : List Char} {o : Opening} (h : opening? cs = some o) :
    Opens cs o := by
  unfold opening? at h
  split at h
  · rename_i hw
    obtain rfl := Option.some.inj h
    exact .slot (begins_iff.mp hw)
  split at h
  · rename_i hw
    obtain rfl := Option.some.inj h
    unfold beginsDirective at hw
    split at hw
    · exact .directive hw ⟨_, rfl⟩
    · cases hw
  split at h
  · rename_i hw
    obtain rfl := Option.some.inj h
    obtain ⟨r, hcs, hr⟩ := beginsElseIf_iff.mp hw
    exact .elseIf hcs hr
  split at h
  · rename_i hw
    obtain rfl := Option.some.inj h
    exact .closer (by simp [closerNames]) (begins_iff.mp hw)
  split at h
  · rename_i hw
    obtain rfl := Option.some.inj h
    exact .closer (by simp [closerNames]) (begins_iff.mp hw)
  split at h
  · rename_i hw
    obtain rfl := Option.some.inj h
    exact .closer (by simp [closerNames]) (begins_iff.mp hw)
  split at h
  · rename_i hw
    obtain rfl := Option.some.inj h
    exact .context (begins_iff.mp hw)
  · cases h

lemma Opens.opening? {cs : List Char} {o : Opening} (h : Opens cs o) :
    opening? cs = some o := by
  cases h with
  | slot h => rw [Source.opening?, if_pos (begins_iff.mpr h)]
  | @directive c hc h =>
    obtain ⟨r, rfl⟩ := h
    have hslot : begins "\x7b\x7b" (['[', '#', c] ++ r) = false := rfl
    have hb : beginsDirective (['[', '#', c] ++ r) = true := hc
    rw [Source.opening?, if_neg (Bool.eq_false_iff.mp hslot), if_pos hb]
  | @elseIf r h hr =>
    have hb : beginsElseIf cs = true := beginsElseIf_iff.mpr ⟨r, h, hr⟩
    subst h
    have hslot : begins "\x7b\x7b" ("[ELSE IF".toList ++ r) = false := rfl
    have hd : beginsDirective ("[ELSE IF".toList ++ r) = false := rfl
    rw [Source.opening?, if_neg (Bool.eq_false_iff.mp hslot), if_neg (Bool.eq_false_iff.mp hd),
      if_pos hb]
  | closer hn h =>
    obtain ⟨r, rfl⟩ := h
    simp only [closerNames, List.mem_cons, Prod.mk.injEq, List.not_mem_nil, or_false] at hn
    rcases hn with ⟨rfl, rfl⟩ | ⟨rfl, rfl⟩ | ⟨rfl, rfl⟩ <;> rfl
  | context h =>
    obtain ⟨r, rfl⟩ := h
    rfl

/-- A construct is the same with more text behind, unless this could continue its last word. -/
lemma Opens.append {cs : List Char} {o : Opening} (h : Opens cs o)
    (hne : cs ≠ "[ELSE IF".toList) (z : List Char) : Opens (cs ++ z) o := by
  have front {w : List Char} (h : w <+: cs) : w <+: cs ++ z := List.prefix_append_of_prefix h
  cases h with
  | slot h => exact .slot (front h)
  | directive hc h => exact .directive hc (front h)
  | @elseIf r h hr =>
    have hr0 : r ≠ [] := by
      rintro rfl
      exact hne (by rw [h, List.append_nil])
    obtain ⟨c, r, rfl⟩ := List.exists_cons_of_ne_nil hr0
    exact .elseIf (r := c :: r ++ z) (by rw [h, List.append_assoc])
      (ends_cons.mpr (ends_cons.mp hr))
  | closer hn h => exact .closer hn (front h)
  | context h => exact .context (front h)

lemma Opens.two_le {cs : List Char} {o : Opening} (h : Opens cs o) : 2 ≤ cs.length := by
  cases h with
  | slot h => exact h.length_le
  | directive _ h => exact le_trans (by simp) h.length_le
  | elseIf h => simp [h]
  | closer hn h =>
    refine le_trans ?_ h.length_le
    simp only [closerNames, List.mem_cons, Prod.mk.injEq, List.not_mem_nil, or_false] at hn
    rcases hn with ⟨rfl, rfl⟩ | ⟨rfl, rfl⟩ | ⟨rfl, rfl⟩ <;> simp
  | context h => exact le_trans (by simp) h.length_le

/-- No construct starts inside the word. -/
def Solid (w : List Char) : Prop := ∀ a ∈ w.inits, ∀ b ∈ a.tail.tails, opening? b = none

/-- A word of a construct stands within a text in front of another one, if another construct
starts within that text. -/
lemma Solid.within {w u v z : List Char} {o : Opening} (hw : Solid w) (hu : u ≠ [])
    (hv : Opens v o) (h : w <+: u ++ v ++ z) : w <+: u ++ v := by
  rcases List.prefix_or_prefix_of_prefix h (List.prefix_append (u ++ v) z) with h | h
  · exact h
  · obtain ⟨c, u, rfl⟩ := List.exists_cons_of_ne_nil hu
    have := hw _ ((List.mem_inits _ _).mpr h) v
      ((List.mem_tails _ _).mpr (by simp))
    rw [hv.opening?] at this
    cases this

/-- The words that constructs begin with, apart from directives. -/
def openingWords : List String :=
  ["\x7b\x7b", "[ELSE IF", "#context("] ++ closerNames.map Prod.fst

lemma solid_of_mem : ∀ w ∈ openingWords, Solid w.toList := by
  unfold Solid
  decide +kernel

lemma solid_slot : Solid "\x7b\x7b".toList := solid_of_mem _ (by simp [openingWords])
lemma solid_elseIf : Solid "[ELSE IF".toList := solid_of_mem _ (by simp [openingWords])
lemma solid_context : Solid "#context(".toList := solid_of_mem _ (by simp [openingWords])

lemma solid_closer {lexeme value : String} (h : (lexeme, value) ∈ closerNames) :
    Solid lexeme.toList :=
  solid_of_mem _ (List.mem_append_right _ (List.mem_map_of_mem h))

/-- Text in front of a construct stays text with more behind. -/
lemma opening?_append_eq_none {u v z : List Char} {o : Opening} (hu : u ≠ []) (hv : Opens v o)
    (h : opening? (u ++ v) = none) : opening? (u ++ v ++ z) = none := by
  rw [Option.eq_none_iff_forall_ne_some]
  intro o' ho'
  suffices hopens : Opens (u ++ v) o' by
    rw [hopens.opening?] at h
    cases h
  cases opens_of_opening? ho' with
  | slot hw => exact .slot (solid_slot.within hu hv hw)
  | @directive c hc hw =>
    have hlength : 3 ≤ (u ++ v).length := by
      have := hv.two_le
      have := List.length_pos_iff.mpr hu
      rw [List.length_append]
      omega
    exact .directive hc (List.prefix_of_prefix_length_le hw (List.prefix_append (u ++ v) z) hlength)
  | @elseIf r hw hr =>
    obtain ⟨r', hr'⟩ := solid_elseIf.within hu hv ⟨r, hw.symm⟩
    refine .elseIf hr'.symm fun c hc => hr c ?_
    rw [← hr', List.append_assoc] at hw
    rw [← List.append_cancel_left hw, List.head?_append, Option.mem_def.mp hc]
    rfl
  | closer hn hw => exact .closer hn ((solid_closer hn).within hu hv hw)
  | context hw => exact .context (solid_context.within hu hv hw)

/-! ### Plain text -/

lemma plainRun_cons (c : Char) (cs : List Char) :
    plainRun (c :: cs) = if (opening? (c :: cs)).isSome then [] else c :: plainRun cs := rfl

lemma plainRun_isPrefix (cs : List Char) : plainRun cs <+: cs := by
  induction cs with
  | nil => exact List.prefix_rfl
  | cons c cs ih =>
    rw [plainRun_cons]
    split
    · exact List.nil_prefix
    · exact List.cons_prefix_cons.mpr ⟨rfl, ih⟩

/-- Behind plain text the source ends or a construct starts. -/
lemma opens_of_plainRun {cs y : List Char} (h : cs = plainRun cs ++ y) (hy : y ≠ []) :
    ∃ o, Opens y o := by
  induction cs with
  | nil => exact absurd h.symm (by simp [hy])
  | cons c cs ih =>
    rw [plainRun_cons] at h
    split at h
    · rename_i ho
      obtain ⟨o, ho⟩ := Option.isSome_iff_exists.mp ho
      exact ⟨o, by rw [← List.nil_append y, ← h]; exact opens_of_opening? ho⟩
    · exact ih (List.cons.inj h).2

/-- Plain text in front of a construct is the same with more behind, if the construct is. -/
lemma plainRun_append {cs y z : List Char} {o o' : Opening} (h : cs = plainRun cs ++ y)
    (hy : Opens y o) (hz : Opens (y ++ z) o') : plainRun (cs ++ z) = plainRun cs := by
  induction cs with
  | nil =>
    obtain ⟨-, rfl⟩ : plainRun [] = [] ∧ y = [] := by simpa [plainRun] using h.symm
    exact absurd hy.two_le (by simp)
  | cons c cs ih =>
    rw [plainRun_cons] at h
    rw [List.cons_append, plainRun_cons, plainRun_cons]
    by_cases hc : (opening? (c :: cs)).isSome
    · rw [if_pos hc] at h
      obtain rfl : c :: cs = y := h
      rw [if_pos (by rw [← List.cons_append, hz.opening?]; rfl), if_pos hc]
    · rw [if_neg hc] at h
      have h : cs = plainRun cs ++ y := (List.cons.inj h).2
      have hnone : opening? ((c :: plainRun cs) ++ y) = none := by
        rw [List.cons_append, ← h]
        simpa using hc
      have hnone' := opening?_append_eq_none (z := z) (List.cons_ne_nil _ _) hy hnone
      rw [List.cons_append, ← h, List.cons_append] at hnone'
      rw [if_neg (by simp [hnone']), if_neg hc, ih h]

end Stencil.Source
