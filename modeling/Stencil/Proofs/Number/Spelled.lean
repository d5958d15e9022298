import Stencil.Proofs.Json.Number
import Stencil.Proofs.Number.Whole

/-!
Integers as they are written, read back as doubles.

The decimal text of an integer, blanks around it allowed, is read as the double nearest to the
integer (`readDouble?_padded`): its digits have no mark in them that would end them, and none of
the names of values that are no numbers is made of digits.
-/

namespace Stencil

namespace Text

open Json (isAsciiDigit)

lemma digitValue?_of_isAsciiDigit {c : Char} (h : isAsciiDigit c = true) :
    digitValue? c = some (c.toNat - 48) := by
  have hrange : 48 ≤ c.toNat ∧ c.toNat ≤ 57 := of_decide_eq_true h
  unfold digitValue? zeroDigits
  rw [List.find?_cons_of_pos (by simpa using hrange)]
  rfl

lemma isDigit_of_isAsciiDigit {c : Char} (h : isAsciiDigit c = true) : isDigit c = true := by
  rw [isDigit, digitValue?_of_isAsciiDigit h, Option.isSome_some]

lemma isBlank_of_isAsciiDigit {c : Char} (h : isAsciiDigit c = true) : isBlank c = false := by
  have hrange : 48 ≤ c.toNat ∧ c.toNat ≤ 57 := of_decide_eq_true h
  simp [isBlank, blankRanges, inRanges]
  omega

/-- What has no blanks in it is what is left of it between blanks. -/
lemma trimBlanks_padded {l cs r : List Char} (hl : ∀ c ∈ l, isBlank c = true)
    (hr : ∀ c ∈ r, isBlank c = true) (hne : cs ≠ []) (hcs : ∀ c ∈ cs, isBlank c = false) :
    trimBlanks (l ++ cs ++ r) = cs := by
  have hfront : Json.HeadFails isBlank (cs ++ r) := by
    intro c hc
    rw [List.head?_append_of_ne_nil _ hne] at hc
    exact hcs c (List.mem_of_mem_head? hc)
  have hback : Json.HeadFails isBlank cs.reverse := fun c hc =>
    hcs c (List.mem_reverse.mp (List.mem_of_mem_head? hc))
  rw [trimBlanks, List.append_assoc, Json.dropWhile_append_of_all hl hfront, List.reverse_append,
    Json.dropWhile_append_of_all (fun c hc => hr c (List.mem_reverse.mp hc)) hback,
    List.reverse_reverse]

end Text

namespace Number

open Json (AllDigits isAsciiDigit digitsOf signText)

variable {n : ℤ} {ds : List Char}

lemma groupedDigits?_of_allDigits (h : AllDigits ds) (hne : ds ≠ []) :
    groupedDigits? ds = some (ds.map (·.toNat - 48)) := by
  fun_induction groupedDigits? ds with
  | case1 => exact absurd rfl hne
  | case2 c =>
    rw [Text.digitValue?_of_isAsciiDigit (h c List.mem_cons_self)]
    rfl
  | case3 c cs =>
    exact absurd (h '_' (by simp)) (by decide)
  | case4 c cs hnil hmark ih =>
    obtain ⟨hc, hcs⟩ := List.forall_mem_cons.mp h
    rw [Text.digitValue?_of_isAsciiDigit hc, ih hcs (by simpa using hnil)]
    rfl

lemma digitsValue_digits (ds : List Char) : digitsValue (ds.map (·.toNat - 48)) = digitsOf ds := by
  rw [digitsValue, List.foldl_map]
  rfl

lemma ne_of_isAsciiDigit {c d : Char} (hd : isAsciiDigit d = false) (hc : isAsciiDigit c = true) :
    c ≠ d := by
  rintro rfl
  exact Bool.false_ne_true (hd.symm.trans hc)

/-- Digits alone are a number without a fraction and without an exponent. -/
lemma readMagnitude?_of_allDigits (h : AllDigits ds) (hne : ds ≠ []) (negative : Bool) :
    readMagnitude? negative ds = some (ofDecimal negative (digitsOf ds) 0) := by
  have hmark : ∀ c ∈ ds, (c != 'e' && c != 'E') = true := fun c hc => by
    simp [ne_of_isAsciiDigit (d := 'e') (by decide) (h c hc),
      ne_of_isAsciiDigit (d := 'E') (by decide) (h c hc)]
  have hpoint : ∀ c ∈ ds, (c != '.') = true := fun c hc => by
    simp [ne_of_isAsciiDigit (d := '.') (by decide) (h c hc)]
  have hno : ds.contains '.' = false := by
    simpa using fun hc => absurd (hpoint '.' hc) (by decide)
  unfold readMagnitude? optionalDigits?
  rw [List.takeWhile_eq_self_iff.mpr hmark, List.dropWhile_eq_nil_iff.mpr hmark]
  dsimp only
  rw [List.takeWhile_eq_self_iff.mpr hpoint, hno, groupedDigits?_of_allDigits h hne]
  simp [hne, digitsValue_digits]

/-- Of an integer's digits the nearest double is the integer's, also where the power of ten is not
computed. -/
lemma ofDecimal_natAbs (n : ℤ) : ofDecimal (n < 0) n.natAbs 0 = Double.ofInt n := by
  rcases eq_or_ne n 0 with rfl | hne
  · decide +kernel
  have hpos : 0 < n.natAbs := Int.natAbs_pos.mpr hne
  unfold ofDecimal
  rw [if_neg hpos.ne', add_zero]
  dsimp only
  split_ifs with hfar hnear
  · have hle : Double.limitInt ≤ n.natAbs :=
      (Double.limitInt_le_pow (by omega)).trans (pow_le_of_digitCount hpos)
    exact (Double.ofInt_of_ofInt?_eq_none ((Double.ofInt?_eq_none_iff n).mpr hle)).symm
  · omega
  · rw [Double.ofInt, Int.toNat_zero, Nat.pow_eq, pow_zero, mul_one]
  · omega

lemma takeSign_intText (n : ℤ) :
    takeSign (intText n).toList = (decide (n < 0), Nat.toDigits 10 n.natAbs) := by
  rw [Json.toList_intText]
  by_cases hneg : n < 0
  · simp [hneg, signText, takeSign]
  · simp only [hneg, signText]
    have hall := Json.allDigits_toDigits n.natAbs
    generalize Nat.toDigits 10 n.natAbs = ds at *
    unfold takeSign
    rcases ds with _ | ⟨c, cs⟩
    · rfl
    · have hc := hall c List.mem_cons_self
      simp [ne_of_isAsciiDigit (d := '-') (by decide) hc,
        ne_of_isAsciiDigit (d := '+') (by decide) hc]

/-- Digits are none of the names of values that are no numbers. -/
lemma name_ne_of_allDigits (h : AllDigits ds) {w : String}
    (hw : w.toList.all isAsciiDigit = false) :
    (String.ofList (ds.map Char.toLower) == w) = false := by
  have hlower : ∀ c ∈ ds, c.toLower = c := fun c hc => by
    have hrange : 48 ≤ c.toNat ∧ c.toNat ≤ 57 := of_decide_eq_true (h c hc)
    refine dif_neg ?_
    simp [UInt32.le_iff_toNat_le]
    omega
  rw [beq_eq_false_iff_ne]
  rintro rfl
  rw [String.toList_ofList, List.map_congr_left hlower, List.map_id', List.all_eq_true.mpr h] at hw
  cases hw

lemma isBlank_of_mem_intText {c : Char} (h : c ∈ (intText n).toList) : Text.isBlank c = false := by
  rw [Json.toList_intText, List.mem_append] at h
  rcases h with hsign | hdigit
  · unfold signText at hsign
    split at hsign
    · obtain rfl := List.mem_singleton.mp hsign
      decide
    · cases hsign
  · exact Text.isBlank_of_isAsciiDigit (Json.allDigits_toDigits _ c hdigit)

lemma intText_ne_nil (n : ℤ) : (intText n).toList ≠ [] := by
  rw [Json.toList_intText]
  simp [Nat.toDigits_ne_nil]

lemma toDigits_eq_of_intText_eq {w : String} (h : intText n = w) :
    takeSign w.toList = (decide (n < 0), Nat.toDigits 10 n.natAbs) := by
  rw [← h, takeSign_intText]

/-- Integers that are written alike are the same. -/
lemma intText_inj {k : ℤ} : intText k = intText n ↔ k = n := by
  refine ⟨fun h => ?_, fun h => h ▸ rfl⟩
  have hparts := toDigits_eq_of_intText_eq h
  rw [takeSign_intText, Prod.mk.injEq, decide_eq_decide] at hparts
  have habs : n.natAbs = k.natAbs := by
    rw [← Json.digitsOf_toDigits n.natAbs, hparts.2, Json.digitsOf_toDigits]
  omega

/-- Behind the sign, an integer's text has nothing but digits in it. -/
lemma intText_ne {w : String} (h : (takeSign w.toList).2.all isAsciiDigit = false) :
    intText n ≠ w := by
  intro hw
  rw [toDigits_eq_of_intText_eq hw, List.all_eq_true.mpr (Json.allDigits_toDigits _)] at h
  cases h

/-- An integer's text, blanks around it allowed, is read as the double nearest to it. -/
lemma readDouble?_padded {l r : List Char} (hl : ∀ c ∈ l, Text.isBlank c = true)
    (hr : ∀ c ∈ r, Text.isBlank c = true) (n : ℤ) :
    readDouble? (String.ofList (l ++ (intText n).toList ++ r)) = some (Double.ofInt n) := by
  have hall := Json.allDigits_toDigits n.natAbs
  unfold readDouble?
  rw [String.toList_ofList, Text.trimBlanks_padded hl hr (intText_ne_nil n)
    fun c hc => isBlank_of_mem_intText hc, takeSign_intText]
  dsimp only
  -- neither of the infinities by name, and not the value that is no number
  rw [name_ne_of_allDigits hall (by decide), name_ne_of_allDigits hall (by decide),
    name_ne_of_allDigits hall (by decide)]
  simp only [Bool.or_self, Bool.false_eq_true, if_false]
  rw [readMagnitude?_of_allDigits hall Nat.toDigits_ne_nil, Json.digitsOf_toDigits,
    ofDecimal_natAbs]

lemma readDouble?_intText (n : ℤ) : readDouble? (intText n) = some (Double.ofInt n) := by
  have hread := readDouble?_padded (List.forall_mem_nil _) (List.forall_mem_nil _) n
  rwa [List.nil_append, List.append_nil, String.ofList_toList] at hread

end Number

end Stencil
