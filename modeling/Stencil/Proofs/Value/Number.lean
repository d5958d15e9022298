import Stencil.Proofs.Number.Spelled
import Stencil.Proofs.Value.Written

/-!
Integers in a slot that shows its value as a number.

An integer is shown as it is, whatever its size. The text of an integer is read as a double first,
and what is shown is the integer that this double is, or the name of an infinity. So the text is
shown as it is exactly if the integer is a double, as all are up to 2 ^ 53 (`format_number_int`).
-/

namespace Stencil.Value

open Number (intText)

variable {n k : ℤ}

/-- What is shown for the text of an integer: the integer that the nearest double is, or an infinity
if the integer is beyond the doubles. -/
inductive Shown (n : ℤ) : String → Prop
  | whole {k : ℤ} (h : (Double.ofInt n).eqInt k = true) : Shown n (intText k)
  | above (h : Double.limitInt ≤ n) : Shown n "inf"
  | below (h : n ≤ -Double.limitInt) : Shown n "-inf"

/-! ### Doubles -/

lemma doubleAsNumber_of_eqInt {x : Double} (h : x.eqInt k = true) :
    doubleAsNumber x = intText k := by
  rw [doubleAsNumber, Double.toInt?_eq_some_iff.mpr h]

lemma shown_doubleAsNumber (n : ℤ) : Shown n (doubleAsNumber (Double.ofInt n)) := by
  by_cases hfar : Double.ofInt? n = none
  · have hlimit := (Double.ofInt?_eq_none_iff n).mp hfar
    rw [Double.ofInt_of_ofInt?_eq_none hfar]
    by_cases hneg : n < 0
    · rw [decide_eq_true hneg]
      exact .below (by omega)
    · rw [decide_eq_false hneg]
      exact .above (by omega)
  · obtain ⟨k, hk⟩ := Double.exists_eqInt_ofInt hfar
    rw [doubleAsNumber_of_eqInt hk]
    exact .whole hk

lemma Shown.eq_intText_iff {s : String} (h : Shown n s) : s = intText n ↔ Double.IsExact n := by
  cases h with
  | whole h =>
    rw [← Double.eqInt_ofInt_iff, Number.intText_inj]
    refine ⟨fun hk => hk ▸ h, fun hn => ?_⟩
    exact Option.some_inj.mp ((Double.toInt?_eq_some_iff.mpr h).symm.trans
      (Double.toInt?_eq_some_iff.mpr hn))
  | above h =>
    exact iff_of_false (Number.intText_ne (by decide)).symm (Double.not_isExact_of_le (by omega))
  | below h =>
    exact iff_of_false (Number.intText_ne (by decide)).symm (Double.not_isExact_of_le (by omega))

/-! ### Values -/

lemma format_number_of_int (hn : n.natAbs < 10 ^ ValueFault.digitLimit) :
    format (some .number) (.int n) = .ok (intText n) := by
  change showInt n = _
  rw [showInt, Nat.pow_eq, if_neg (Nat.not_le.mpr hn)]

lemma format_number_of_text {s : String} {x : Double} (h : Number.readDouble? s = some x) :
    format (some .number) (.text s) = .ok (doubleAsNumber x) := by
  have hformat : format (some .number) (.text s) = asNumber (.text s) := rfl
  rw [hformat, asNumber.eq_def]
  simp only [«show», bind, Except.bind, h]
  rfl

/-- What is shown is shown the same way again. -/
lemma Shown.format_number {s : String} (h : Shown n s) :
    format (some .number) (.text s) = .ok s := by
  cases h with
  | whole h =>
    have hexact := Double.eqInt_ofInt_iff.mpr ⟨_, h⟩
    rw [format_number_of_text (Number.readDouble?_intText _), doubleAsNumber_of_eqInt hexact]
  | above h => exact format_number_of_text (x := .infinite false) (by decide +kernel)
  | below h => exact format_number_of_text (x := .infinite true) (by decide +kernel)

/-- **Integers shown as numbers.** As integers they are shown as they are. As texts, with blanks
around them or not, what is shown is shown the same way again, and it is the integer exactly if the
integer is a double. -/
theorem format_number_int (hn : n.natAbs < 10 ^ ValueFault.digitLimit) {l r : List Char}
    (hl : ∀ c ∈ l, Text.isBlank c = true) (hr : ∀ c ∈ r, Text.isBlank c = true) :
    format (some .number) (.int n) = .ok (intText n) ∧
      ∃ s, format (some .number) (.text (String.ofList (l ++ (intText n).toList ++ r))) = .ok s ∧
        Shown n s ∧ format (some .number) (.text s) = .ok s ∧
        (s = intText n ↔ Double.IsExact n) ∧ (n.natAbs ≤ 2 ^ 53 → s = intText n) := by
  have hshown := shown_doubleAsNumber n
  have hexact := hshown.eq_intText_iff
  exact ⟨format_number_of_int hn, _, format_number_of_text (Number.readDouble?_padded hl hr n),
    hshown, hshown.format_number, hexact, fun hle => hexact.mpr (Double.isExact_of_le hle)⟩

/-- The successor of 2 ^ 53 is no double: from its text, with blanks around it, 2 ^ 53 is shown. -/
theorem format_number_int_of_succ :
    ((2 : ℤ) ^ 53 + 1).natAbs < 10 ^ ValueFault.digitLimit ∧
      (∀ c ∈ [' '], Text.isBlank c = true) ∧ (∀ c ∈ ['\t', '\n'], Text.isBlank c = true) ∧
      format (some .number) (.int (2 ^ 53 + 1)) = .ok "9007199254740993" ∧
      format (some .number) (.text " 9007199254740993\t\n") = .ok "9007199254740992" := by
  have hn : ((2 : ℤ) ^ 53 + 1).natAbs < 10 ^ ValueFault.digitLimit := by decide +kernel
  have hl : ∀ c ∈ [' '], Text.isBlank c = true := List.forall_mem_singleton.mpr rfl
  have hr : ∀ c ∈ ['\t', '\n'], Text.isBlank c = true :=
    List.forall_mem_cons.mpr ⟨rfl, List.forall_mem_singleton.mpr rfl⟩
  obtain ⟨hint, s, htext, hshown, -⟩ := format_number_int hn hl hr
  have hint' : intText (2 ^ 53 + 1) = "9007199254740993" := by decide +kernel
  have hs : s = "9007199254740992" := by
    cases hshown with
    | whole h =>
      have hk : (Double.ofInt (2 ^ 53 + 1)).toInt? = some (2 ^ 53) := by decide +kernel
      obtain rfl := Option.some_inj.mp ((Double.toInt?_eq_some_iff.mpr h).symm.trans hk)
      decide +kernel
    | above h => exact absurd h (by decide +kernel)
    | below h => exact absurd h (by decide +kernel)
  rw [hint'] at hint htext
  exact ⟨hn, hl, hr, hint, hs ▸ htext⟩

end Stencil.Value
