import Stencil.Operator.Builtin
import Stencil.Proofs.Number.Spelled

/-!
The comparisons of the operators that every template has, on an integer and the text of another.

Both are taken for the doubles nearest to them. These are in the order of the integers, so that a
comparison answers as it would of the integers themselves, unless both have the same nearest double:
then they count as equal (`comparison_nearest`). Below 2 ^ 53, all integers are told apart.
-/

namespace Stencil.Builtin

open Number (intText)

variable {v w : ℤ}

/-! ### What integers are taken for -/

/-- An integer's text is a number from its beginning to its end. -/
lemma leadingNumber?_intText (w : ℤ) :
    leadingNumber? (intText w).toList = some (intText w).toList := by
  have hblank : ∀ c ∈ (intText w).toList.head?, Text.isBlank c = false := fun c hc =>
    Number.isBlank_of_mem_intText (List.mem_of_mem_head? hc)
  have htake : (intText w).toList.takeWhile Text.isBlank = [] :=
    Json.takeWhile_append_of_all (List.forall_mem_nil _) hblank
  have hdrop : (intText w).toList.dropWhile Text.isBlank = (intText w).toList :=
    Json.dropWhile_append_of_all (List.forall_mem_nil _) hblank
  have hall := Json.allDigits_toDigits w.natAbs
  have hne : Nat.toDigits 10 w.natAbs ≠ [] := Nat.toDigits_ne_nil
  have hdigits : ∀ c ∈ Nat.toDigits 10 w.natAbs, Text.isDigit c = true := fun c hc =>
    Text.isDigit_of_isAsciiDigit (hall c hc)
  unfold leadingNumber?
  rw [htake, hdrop, Json.toList_intText]
  by_cases hneg : w < 0
  · simp only [hneg, decide_true, Json.signText, if_true, List.cons_append, List.nil_append]
    rw [List.takeWhile_eq_self_iff.mpr hdigits, List.dropWhile_eq_nil_iff.mpr hdigits]
    simp [hne]
  · simp only [hneg, decide_false, Json.signText, Bool.false_eq_true, if_false, List.nil_append]
    generalize Nat.toDigits 10 w.natAbs = ds at *
    obtain ⟨c, cs, rfl⟩ := List.exists_cons_of_ne_nil hne
    have hc := hall c List.mem_cons_self
    split
    · rename_i heq
      exact absurd (List.cons.inj heq).1 (Number.ne_of_isAsciiDigit (by decide) hc)
    · rename_i heq
      exact absurd (List.cons.inj heq).1 (Number.ne_of_isAsciiDigit (by decide) hc)
    · rw [List.takeWhile_eq_self_iff.mpr hdigits, List.dropWhile_eq_nil_iff.mpr hdigits]
      simp

lemma number?_intText (w : ℤ) :
    number? (.text (intText w)) = .ok (some (Double.ofInt w)) := by
  rw [number?, leadingNumber?_intText, Option.bind_some, String.ofList_toList,
    Number.readDouble?_intText]

lemma number?_int (hv : v.natAbs < Double.limitInt) :
    number? (.int v) = .ok (some (Double.ofInt v)) := by
  rw [number?, Double.ofInt?_of_lt hv]

lemma numeric_int (hv : v.natAbs < Double.limitInt) (compare : Double → Double → Bool) (w : ℤ) :
    numeric compare (.int v) (.text (intText w)) =
      .ok (compare (Double.ofInt v) (Double.ofInt w)) := by
  rw [numeric, number?_int hv, number?_intText]
  rfl

lemma equals_int (hv : v.natAbs < Double.limitInt) (w : ℤ) :
    equals (.int v) (.text (intText w)) = .ok (Double.eq (Double.ofInt w) (Double.ofInt v)) := by
  unfold equals
  dsimp only
  rw [number?_int hv, number?_intText]
  rfl

/-! ### Comparisons -/

/-- The integer that a comparison with `v` takes `w` for: `v` itself, if both have the same nearest
double. -/
def takenFor (v w : ℤ) : ℤ :=
  if Double.eq (Double.ofInt v) (Double.ofInt w) then v else w

lemma takenFor_of_lt (h : v.natAbs < 2 ^ 53 ∨ w.natAbs < 2 ^ 53) : takenFor v w = w := by
  unfold takenFor
  split_ifs with heq
  · exact (Double.eq_ofInt_iff h).mp heq
  · rfl

lemma takenFor_of_eq (h : Double.eq (Double.ofInt v) (Double.ofInt w) = true) :
    takenFor v w = v := if_pos h

lemma takenFor_of_ne (h : Double.eq (Double.ofInt v) (Double.ofInt w) = false) :
    takenFor v w = w := if_neg (by simp [h])

lemma eq_takenFor (v w : ℤ) :
    Double.eq (Double.ofInt v) (Double.ofInt w) = decide (v = takenFor v w) := by
  cases heq : Double.eq (Double.ofInt v) (Double.ofInt w) with
  | true => simp [takenFor_of_eq heq]
  | false =>
    rw [takenFor_of_ne heq, eq_comm, decide_eq_false_iff_not]
    rintro rfl
    rw [Double.eq_ofInt_self] at heq
    cases heq

lemma lt_takenFor (v w : ℤ) :
    Double.lt (Double.ofInt v) (Double.ofInt w) = decide (v < takenFor v w) := by
  rw [Bool.eq_iff_iff, Double.lt_ofInt_iff, decide_eq_true_iff]
  cases heq : Double.eq (Double.ofInt v) (Double.ofInt w) with
  | true => simp [takenFor_of_eq heq]
  | false => simp [takenFor_of_ne heq]

lemma takenFor_lt (v w : ℤ) :
    Double.lt (Double.ofInt w) (Double.ofInt v) = decide (takenFor v w < v) := by
  rw [Bool.eq_iff_iff, Double.lt_ofInt_iff, Double.eq_comm, decide_eq_true_iff]
  cases heq : Double.eq (Double.ofInt v) (Double.ofInt w) with
  | true => simp [takenFor_of_eq heq]
  | false => simp [takenFor_of_ne heq]

lemma le_takenFor (v w : ℤ) :
    Double.le (Double.ofInt v) (Double.ofInt w) = decide (v ≤ takenFor v w) := by
  rw [Double.le, lt_takenFor, eq_takenFor, ← Bool.decide_or, decide_eq_decide]
  exact le_iff_lt_or_eq.symm

lemma takenFor_le (v w : ℤ) :
    Double.le (Double.ofInt w) (Double.ofInt v) = decide (takenFor v w ≤ v) := by
  rw [Double.le, takenFor_lt, Double.eq_comm, eq_takenFor, ← Bool.decide_or, decide_eq_decide,
    eq_comm (a := v)]
  exact le_iff_lt_or_eq.symm

/-- The comparisons by name, short names included, and the relations that they are named for. -/
def relations : List (String × (ℤ → ℤ → Bool)) :=
  [("equals", fun v w => v = w),
   ("greater_than", fun v w => v > w), ("gt", fun v w => v > w),
   ("greater_than_or_equal", fun v w => v ≥ w), ("gte", fun v w => v ≥ w),
   ("less_than", fun v w => v < w), ("lt", fun v w => v < w),
   ("less_than_or_equal", fun v w => v ≤ w), ("lte", fun v w => v ≤ w)]

/-- The built-in operator of the name, on an integer and the text of another. -/
def comparison (name : String) (v w : ℤ) : Option (Except Failure Value) :=
  (Operators.find? [] name).map fun op => op.handler (.int v) (.text (intText w))

lemma handler_eq {test : Value → Value → Except ValueFault Bool} {x arg : Value} {b : Bool}
    (h : test x arg = .ok b) : handler test x arg = .ok (.bool b) := by
  rw [handler, h]

/-- Each comparison answers as its relation does of what the other integer is taken for. -/
lemma comparison_of_mem (hv : v.natAbs < Double.limitInt) (w : ℤ) (name : String)
    (relation : ℤ → ℤ → Bool) (h : (name, relation) ∈ relations) :
    comparison name v w = some (.ok (.bool (relation v (takenFor v w)))) := by
  -- equality compares with its sides swapped, all others as they are named
  have hequals := handler_eq (equals_int hv w)
  have hnumeric compare := handler_eq (numeric_int hv compare w)
  rw [Double.eq_comm, eq_takenFor] at hequals
  unfold relations at h
  simp only [List.mem_cons, List.not_mem_nil, or_false, Prod.mk.injEq] at h
  rcases h with ⟨rfl, rfl⟩ | ⟨rfl, rfl⟩ | ⟨rfl, rfl⟩ | ⟨rfl, rfl⟩ | ⟨rfl, rfl⟩ | ⟨rfl, rfl⟩ |
    ⟨rfl, rfl⟩ | ⟨rfl, rfl⟩ | ⟨rfl, rfl⟩
  · exact congrArg some hequals
  all_goals
    refine congrArg some ((hnumeric _).trans ?_)
    simp only [lt_takenFor v w, takenFor_lt v w, le_takenFor v w, takenFor_le v w, gt_iff_lt,
      ge_iff_le]

/-- One of less, equal and greater holds, and only one. -/
lemma existsUnique_comparison (hv : v.natAbs < Double.limitInt) (w : ℤ) :
    ∃! name, name ∈ ["lt", "equals", "gt"] ∧ comparison name v w = some (.ok (.bool true)) := by
  have hless := comparison_of_mem hv w "lt" (fun v w => v < w) (by simp [relations])
  have hequal := comparison_of_mem hv w "equals" (fun v w => v = w) (by simp [relations])
  have hgreater := comparison_of_mem hv w "gt" (fun v w => v > w) (by simp [relations])
  generalize takenFor v w = u at hless hequal hgreater
  have hiff (name : String) :
      name ∈ ["lt", "equals", "gt"] ∧ comparison name v w = some (.ok (.bool true)) ↔
        name = "lt" ∧ v < u ∨ name = "equals" ∧ v = u ∨ name = "gt" ∧ v > u := by
    simp only [List.mem_cons, List.not_mem_nil, or_false, or_and_right]
    refine or_congr ?_ (or_congr ?_ ?_) <;> refine and_congr_right fun hname => ?_
    · simp [hname, hless]
    · simp [hname, hequal]
    · simp [hname, hgreater]
  simp only [hiff]
  rcases lt_trichotomy v u with h | h | h
  · simp [h, h.ne, h.not_gt]
  · simp [h]
  · simp [h, h.ne', h.not_gt]

/-- **Integers are compared by the doubles nearest to them.** Each comparison of `v` with the text
of `w` holds as its relation does of `v` and what `w` is taken for, and one of less, equal and
greater does. This is `w` itself if one of the two is below 2 ^ 53. -/
theorem comparison_nearest (hv : v.natAbs < Double.limitInt) (w : ℤ) :
    (∀ name relation, (name, relation) ∈ relations →
        comparison name v w = some (.ok (.bool (relation v (takenFor v w))))) ∧
      (∃! name, name ∈ ["lt", "equals", "gt"] ∧ comparison name v w = some (.ok (.bool true))) ∧
      (v.natAbs < 2 ^ 53 ∨ w.natAbs < 2 ^ 53 → takenFor v w = w) :=
  ⟨comparison_of_mem hv w, existsUnique_comparison hv w, takenFor_of_lt⟩

/-- With the text of 2 ^ 53, its successor is equal. -/
theorem comparison_nearest_of_succ :
    ((2 : ℤ) ^ 53 + 1).natAbs < Double.limitInt ∧
      comparison "equals" (2 ^ 53 + 1) (2 ^ 53) = some (.ok (.bool true)) := by
  have hfar : ((2 : ℤ) ^ 53 + 1).natAbs < Double.limitInt := by decide +kernel
  refine ⟨hfar, ?_⟩
  have h := (comparison_nearest hfar (2 ^ 53)).1 "equals" (fun v w => v = w) (by simp [relations])
  have htaken : takenFor (2 ^ 53 + 1) (2 ^ 53) = 2 ^ 53 + 1 := by decide +kernel
  rw [h, htaken]
  rfl

/-- So the comparisons are not those of the integers, not even of those below 10 ^ 100. -/
theorem not_comparison_exact :
    ¬ ∀ v w : ℤ, v.natAbs < 10 ^ 100 → w.natAbs < 10 ^ 100 → ∀ name relation,
      (name, relation) ∈ relations → comparison name v w = some (.ok (.bool (relation v w))) := by
  intro h
  have hexact := h (2 ^ 53 + 1) (2 ^ 53) (by norm_num) (by norm_num) "equals" (fun v w => v = w)
    (by simp [relations])
  have hfar : ((2 : ℤ) ^ 53 + 1).natAbs < Double.limitInt := by decide +kernel
  have htaken : takenFor (2 ^ 53 + 1) (2 ^ 53) = 2 ^ 53 + 1 := by decide +kernel
  rw [comparison_of_mem hfar _ "equals" (fun v w => v = w) (by simp [relations]), htaken] at hexact
  simp at hexact

end Stencil.Builtin
