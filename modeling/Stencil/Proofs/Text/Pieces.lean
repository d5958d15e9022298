import Mathlib.Data.List.Infix
import Stencil.Text.Search

/-!
Texts cut into pieces: what stands in a piece, and how the pieces of two texts make up those of a
longer one. Texts inside texts: what it means that one begins with another or has it somewhere, and
what comes of exchanging a character.
-/

namespace Stencil.Text

variable {α : Type} {p : α → Bool}

/-! ### Pieces -/

lemma splitBy_cons (p : α → Bool) (a : α) (as : List α) : splitBy p (a :: as) =
    if p a then [] :: splitBy p as
    else match splitBy p as with
      | [] => [[a]]
      | w :: ws => (a :: w) :: ws := rfl

lemma splitBy_eq_cons (p : α → Bool) (as : List α) : ∃ w ws, splitBy p as = w :: ws := by
  cases as with
  | nil => exact ⟨_, _, rfl⟩
  | cons a as =>
    rw [splitBy_cons]
    split
    · exact ⟨_, _, rfl⟩
    · split <;> exact ⟨_, _, rfl⟩

/-- What is one piece has nothing to be cut at. -/
lemma eq_of_splitBy_eq_singleton {as w : List α} (h : splitBy p as = [w]) : w = as := by
  induction as generalizing w with
  | nil => exact (List.singleton_inj.mp h).symm
  | cons a as ih =>
    obtain ⟨v, vs, hv⟩ := splitBy_eq_cons p as
    rw [splitBy_cons, hv] at h
    split at h
    · cases h
    · obtain ⟨rfl, rfl⟩ := List.cons.inj h
      rw [ih hv]

lemma splitBy_of_forall {as : List α} (h : ∀ a ∈ as, p a = false) : splitBy p as = [as] := by
  induction as with
  | nil => rfl
  | cons a as ih =>
    obtain ⟨ha, has⟩ := List.forall_mem_cons.mp h
    rw [splitBy_cons, ih has, if_neg (by simp [ha])]

lemma splitBy_append_cons (as bs : List α) {s : α} (hs : p s = true) :
    splitBy p (as ++ s :: bs) = splitBy p as ++ splitBy p bs := by
  induction as with
  | nil => exact if_pos hs
  | cons a as ih =>
    obtain ⟨w, ws, hw⟩ := splitBy_eq_cons p as
    rw [List.cons_append, splitBy_cons, splitBy_cons, ih, hw]
    split <;> rfl

/-- No piece has anything to be cut at. -/
lemma forall_of_mem_splitBy {as w : List α} (h : w ∈ splitBy p as) : ∀ a ∈ w, p a = false := by
  induction as generalizing w with
  | nil =>
    obtain rfl := List.mem_singleton.mp h
    exact nofun
  | cons a as ih =>
    obtain ⟨v, vs, hv⟩ := splitBy_eq_cons p as
    rw [hv] at ih
    rw [splitBy_cons, hv] at h
    split at h
    · rcases List.mem_cons.mp h with rfl | h
      · exact nofun
      · exact ih h
    · rename_i ha
      rcases List.mem_cons.mp h with rfl | h
      · exact List.forall_mem_cons.mpr ⟨by simpa using ha, ih List.mem_cons_self⟩
      · exact ih (List.mem_cons_of_mem _ h)

/-- A piece is part of what was cut. -/
lemma sublist_of_mem_splitBy {as w : List α} (h : w ∈ splitBy p as) : w.Sublist as := by
  induction as generalizing w with
  | nil =>
    obtain rfl := List.mem_singleton.mp h
    exact List.Sublist.refl _
  | cons a as ih =>
    obtain ⟨v, vs, hv⟩ := splitBy_eq_cons p as
    rw [hv] at ih
    rw [splitBy_cons, hv] at h
    split at h
    · rcases List.mem_cons.mp h with rfl | h
      · exact List.nil_sublist _
      · exact (ih h).cons a
    · rcases List.mem_cons.mp h with rfl | h
      · exact (ih List.mem_cons_self).cons_cons a
      · exact (ih (List.mem_cons_of_mem _ h)).cons a

/-- What is put behind a text is put behind its last piece. -/
lemma splitBy_append (as : List α) {bs : List α} (h : ∀ b ∈ bs, p b = false) :
    ∃ ws w, splitBy p as = ws ++ [w] ∧ splitBy p (as ++ bs) = ws ++ [w ++ bs] := by
  induction as with
  | nil => exact ⟨[], [], rfl, splitBy_of_forall h⟩
  | cons a as ih =>
    obtain ⟨ws, w, has, happend⟩ := ih
    rw [List.cons_append, splitBy_cons, splitBy_cons, has, happend]
    split
    · exact ⟨[] :: ws, w, rfl, rfl⟩
    · rcases ws with _ | ⟨v, vs⟩
      · exact ⟨[], a :: w, rfl, rfl⟩
      · exact ⟨(a :: v) :: vs, w, rfl, rfl⟩

/-! ### Parts of a text -/

lemma dropLead?_eq_some_iff {w cs r : List Char} : dropLead? w cs = some r ↔ cs = w ++ r := by
  induction w generalizing cs with
  | nil => simp [dropLead?, eq_comm]
  | cons a w ih =>
    cases cs with
    | nil => simp [dropLead?]
    | cons c cs =>
      rw [dropLead?, List.cons_append, List.cons.injEq]
      split
      · rename_i h
        rw [ih, eq_comm (a := c), and_iff_right (by simpa using h)]
      · rename_i h
        exact ⟨nofun, fun hc => absurd hc.1.symm (by simpa using h)⟩

lemma startsWith_iff {w s : String} : startsWith w s = true ↔ w.toList <+: s.toList := by
  rw [startsWith, Option.isSome_iff_exists]
  exact exists_congr fun r => dropLead?_eq_some_iff.trans eq_comm

lemma isSome_cutAt?_iff {w cs : List Char} : (cutAt? w cs).isSome = true ↔ w <:+: cs := by
  induction cs with
  | nil => cases w <;> simp [cutAt?]
  | cons c cs ih =>
    rw [cutAt?, List.infix_cons_iff, ← ih]
    rcases h : dropLead? w (c :: cs) with _ | r
    · have hno : ¬ w <+: c :: cs := by
        rintro ⟨r, hr⟩
        rw [dropLead?_eq_some_iff.mpr hr.symm] at h
        cases h
      simp [hno]
    · have hlead : w <+: c :: cs := ⟨r, (dropLead?_eq_some_iff.mp h).symm⟩
      simp [hlead]

lemma hasText_iff {w s : String} : hasText w s = true ↔ w.toList <:+: s.toList :=
  isSome_cutAt?_iff

/-- A text is cut at the first of the characters. -/
lemma cutAt?_singleton (c : Char) (cs : List Char) :
    (cutAt? [c] cs = none ∧ c ∉ cs) ∨
      ∃ before rest, cutAt? [c] cs = some (before, rest) ∧ c ∉ before ∧ cs = before ++ c :: rest := by
  induction cs with
  | nil => exact .inl ⟨rfl, nofun⟩
  | cons d cs ih =>
    rw [cutAt?]
    by_cases h : c = d
    · subst h
      exact .inr ⟨[], cs, by simp [dropLead?], nofun, rfl⟩
    · have hlead : dropLead? [c] (d :: cs) = none := by simp [dropLead?, h]
      rw [hlead]
      rcases ih with ⟨hcut, hmem⟩ | ⟨before, rest, hcut, hmem, rfl⟩
      · exact .inl ⟨by rw [hcut]; rfl, by simpa [h] using hmem⟩
      · exact .inr ⟨d :: before, rest, by rw [hcut]; rfl, by simpa [h] using hmem, rfl⟩

/-- Exchanging a single character is done character by character. -/
lemma replaceFuel_singleton (c : Char) (by_ : List Char) {n : Nat} {cs : List Char}
    (h : cs.length ≤ n) :
    replaceFuel [c] by_ n cs = cs.flatMap fun d => if d = c then by_ else [d] := by
  have hkept {ds : List Char} (hc : c ∉ ds) :
      (ds.flatMap fun d => if d = c then by_ else [d]) = ds := by
    induction ds with
    | nil => rfl
    | cons d ds ih =>
      obtain ⟨hd, hds⟩ := List.ne_and_not_mem_of_not_mem_cons hc
      rw [List.flatMap_cons, if_neg hd.symm, ih hds, List.singleton_append]
  induction n generalizing cs with
  | zero =>
    obtain rfl := List.length_eq_zero_iff.mp (Nat.le_zero.mp h)
    rfl
  | succ n ih =>
    rw [replaceFuel]
    rcases cutAt?_singleton c cs with ⟨hcut, hmem⟩ | ⟨before, rest, hcut, hmem, rfl⟩
    · rw [hcut, hkept hmem]
    · have hrest : rest.length ≤ n := by simp at h; omega
      rw [hcut]
      dsimp only
      rw [ih hrest, List.flatMap_append, hkept hmem, List.flatMap_cons, if_pos rfl,
        List.append_assoc]

end Stencil.Text
