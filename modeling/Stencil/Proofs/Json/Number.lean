import Mathlib.Data.List.TakeWhile
import Mathlib.Tactic.IntervalCases
import Stencil.Json.Reader
import Stencil.Json.Writer
import Stencil.Proofs.Number.Rounding

/-!
Numbers in a JSON text, read back.

A number is a sign, whole digits, perhaps a fraction and perhaps an exponent, before a rest that
does not continue it (`takeNumber_of_parts`). An integer is read as itself, and a finite double in
the form that is written for it as itself, too (`takeNumber_doubleText`): its digits are read as
a decimal of the same value, which rounds to the double.
-/

namespace Stencil.Json

open Number

/-! ### Digits -/

/-- All characters are decimal digits. -/
def AllDigits (ds : List Char) : Prop := ∀ c ∈ ds, isAsciiDigit c = true

/-- The text does not begin with a character for which the test holds. -/
def HeadFails (p : Char → Bool) (cs : List Char) : Prop := ∀ c ∈ cs.head?, p c = false

/-- A character by which a number might go on. -/
def continuesNumber (c : Char) : Bool := isAsciiDigit c || c == '.' || c == 'e' || c == 'E'

/-- The text does not continue a number before it. -/
def StopsNumber (cs : List Char) : Prop := HeadFails continuesNumber cs

lemma HeadFails.nil {p : Char → Bool} : HeadFails p [] := by
  simp [HeadFails]

lemma HeadFails.cons {p : Char → Bool} {c : Char} (hc : p c = false) (cs : List Char) :
    HeadFails p (c :: cs) := by
  rintro _ ⟨⟩
  exact hc

lemma HeadFails.mono {p q : Char → Bool} {cs : List Char} (h : HeadFails p cs)
    (hq : ∀ c, q c = true → p c = true) : HeadFails q cs := by
  intro c hc
  by_contra htrue
  have hp := hq c (by simpa using htrue)
  rw [h c hc] at hp
  cases hp

lemma StopsNumber.digit {cs : List Char} (h : StopsNumber cs) : HeadFails isAsciiDigit cs :=
  h.mono fun c hc => by simp [continuesNumber, hc]

lemma StopsNumber.point {cs : List Char} (h : StopsNumber cs) : HeadFails (· == '.') cs :=
  h.mono fun c hc => by simp only [continuesNumber, hc, Bool.or_true, Bool.true_or]

lemma takeWhile_append_of_all {p : Char → Bool} {ds rest : List Char} (hds : ∀ c ∈ ds, p c = true)
    (hrest : HeadFails p rest) : (ds ++ rest).takeWhile p = ds := by
  rw [List.takeWhile_append_of_pos hds]
  rcases rest with _ | ⟨c, rest⟩
  · simp
  · rw [List.takeWhile_cons_of_neg (by simp [hrest c rfl]), List.append_nil]

lemma dropWhile_append_of_all {p : Char → Bool} {ds rest : List Char} (hds : ∀ c ∈ ds, p c = true)
    (hrest : HeadFails p rest) : (ds ++ rest).dropWhile p = rest := by
  rw [List.dropWhile_append_of_pos hds]
  rcases rest with _ | ⟨c, rest⟩
  · simp
  · rw [List.dropWhile_cons_of_neg (by simp [hrest c rfl])]

lemma AllDigits.append {ds es : List Char} (hds : AllDigits ds) (hes : AllDigits es) :
    AllDigits (ds ++ es) := fun c hc =>
  (List.mem_append.mp hc).elim (hds c) (hes c)

lemma allDigits_zeros (n : ℕ) : AllDigits (List.replicate n '0') := by
  intro c hc
  rw [List.eq_of_mem_replicate hc]
  rfl

lemma allDigits_toDigits (n : ℕ) : AllDigits (Nat.toDigits 10 n) := by
  intro c hc
  have hdigit := Nat.isDigit_of_mem_toDigits (by decide) (by decide) hc
  simp only [Char.isDigit, Bool.and_eq_true, decide_eq_true_eq] at hdigit
  exact decide_eq_true hdigit

lemma digitsOf_append (ds es : List Char) :
    digitsOf (ds ++ es) = digitsOf ds * 10 ^ es.length + digitsOf es := by
  have hfrom : ∀ (es : List Char) (n : ℕ), es.foldl (fun n c => 10 * n + (c.toNat - 48)) n =
      n * 10 ^ es.length + es.foldl (fun n c => 10 * n + (c.toNat - 48)) 0 := by
    intro es
    induction es with
    | nil => simp
    | cons c es ih =>
      intro n
      rw [List.foldl_cons, List.foldl_cons, ih, ih (10 * 0 + (c.toNat - 48)), List.length_cons,
        pow_succ]
      ring
  unfold digitsOf
  rw [List.foldl_append, hfrom es]

lemma digitsOf_zeros (n : ℕ) : digitsOf (List.replicate n '0') = 0 := by
  induction n with
  | zero => rfl
  | succ n ih => rw [List.replicate_succ', digitsOf_append, ih]; rfl

lemma digitsOf_toDigits (n : ℕ) : digitsOf (Nat.toDigits 10 n) = n :=
  Nat.ofDigitChars_toDigits (by decide) (by decide)

/-- A positive number is written without a zero in front. -/
lemma toDigits_head {n : ℕ} (hn : n ≠ 0) : ∃ c cs, Nat.toDigits 10 n = c :: cs ∧ c ≠ '0' := by
  induction n using Nat.strong_induction_on with
  | _ n ih =>
    rcases Nat.lt_or_ge n 10 with hlt | hge
    · refine ⟨n.digitChar, [], Nat.toDigits_of_lt_base hlt, ?_⟩
      interval_cases n <;> revert hn <;> decide
    · obtain ⟨c, cs, hcs, hc⟩ := ih (n / 10) (by omega) (by omega)
      exact ⟨c, cs ++ [(n % 10).digitChar],
        by rw [Nat.toDigits_of_base_le (by decide) hge, hcs, List.cons_append], hc⟩

/-! ### Parts of a number -/

/-- The whole part of a number: a zero, or digits without a zero in front. -/
def IsWhole (ds : List Char) : Prop :=
  ds = ['0'] ∨ AllDigits ds ∧ ∃ c cs, ds = c :: cs ∧ c ≠ '0'

/-- A sign as it is written. -/
def signText (negative : Bool) : List Char := if negative then ['-'] else []

lemma isWhole_toDigits (n : ℕ) : IsWhole (Nat.toDigits 10 n) := by
  rcases Nat.eq_zero_or_pos n with rfl | hn
  · exact .inl rfl
  · exact .inr ⟨allDigits_toDigits n, toDigits_head hn.ne'⟩

lemma takeFraction_none {cs : List Char} (h : HeadFails (· == '.') cs) :
    takeFraction cs = (none, cs) := by
  unfold takeFraction
  split
  · simpa using h '.' rfl
  · rfl

lemma takeFraction_some {ds rest : List Char} (hds : AllDigits ds) (hne : ds ≠ [])
    (hrest : HeadFails isAsciiDigit rest) :
    takeFraction ('.' :: (ds ++ rest)) = (some ds, rest) := by
  unfold takeFraction
  simp only [takeWhile_append_of_all hds hrest, dropWhile_append_of_all hds hrest]
  rw [if_neg (by simpa using hne)]

lemma takeExponent_none {cs : List Char} (h : StopsNumber cs) :
    takeExponent cs = (none, cs) := by
  unfold takeExponent
  split
  · rename_i c rest
    have hc := h c rfl
    simp only [continuesNumber, Bool.or_eq_false_iff] at hc
    rw [if_neg (by simp [hc])]
  · rfl

lemma takeExponent_some (negative : Bool) {ds rest : List Char} (hds : AllDigits ds)
    (hne : ds ≠ []) (hrest : HeadFails isAsciiDigit rest) :
    takeExponent ('e' :: (if negative then '-' else '+') :: (ds ++ rest)) =
      (some (if negative then -(digitsOf ds : Int) else digitsOf ds), rest) := by
  have hsign : takeSign ((if negative then '-' else '+') :: (ds ++ rest)) =
      (negative, ds ++ rest) := by
    cases negative <;> rfl
  unfold takeExponent
  simp only [hsign, takeWhile_append_of_all hds hrest, dropWhile_append_of_all hds hrest]
  rw [if_pos (by decide), if_neg (by simpa using hne)]

lemma IsWhole.allDigits {ds : List Char} (h : IsWhole ds) : AllDigits ds := by
  rcases h with rfl | ⟨hds, -⟩
  · exact allDigits_zeros 1
  · exact hds

lemma IsWhole.ne_nil {ds : List Char} (h : IsWhole ds) : ds ≠ [] := by
  rcases h with rfl | ⟨-, c, cs, rfl, -⟩ <;> nofun

lemma takeMinus_sign {negative : Bool} {ds tail : List Char} (h : IsWhole ds) :
    takeMinus (signText negative ++ (ds ++ tail)) = (negative, ds ++ tail) := by
  cases negative with
  | true => rfl
  | false =>
    obtain ⟨c, cs, rfl⟩ := List.exists_cons_of_ne_nil h.ne_nil
    have hc : c ≠ '-' := by
      rintro rfl
      exact absurd (h.allDigits '-' List.mem_cons_self) (by decide)
    change takeMinus (c :: (cs ++ tail)) = _
    unfold takeMinus
    split
    · rename_i heq
      exact absurd (List.cons.inj heq).1 hc
    · rfl

lemma wholeDigits_append {ds tail : List Char} (h : IsWhole ds)
    (htail : HeadFails isAsciiDigit tail) : wholeDigits (ds ++ tail) = ds := by
  rcases h with rfl | ⟨hds, c, cs, rfl, hc⟩
  · rfl
  · unfold wholeDigits
    split
    · rename_i heq
      exact absurd (List.cons.inj heq).1 hc
    · exact takeWhile_append_of_all hds htail

/-- A number is read part by part. -/
lemma takeNumber_of_parts (negative : Bool) {whole tail afterFraction rest : List Char}
    {fraction : Option (List Char)} {exponent : Option Int} (hwhole : IsWhole whole)
    (htail : HeadFails isAsciiDigit tail)
    (hfraction : takeFraction tail = (fraction, afterFraction))
    (hexponent : takeExponent afterFraction = (exponent, rest)) :
    takeNumber (signText negative ++ (whole ++ tail)) =
      (numberOf negative whole fraction exponent).map fun v => (v, rest) := by
  unfold takeNumber
  rw [takeMinus_sign hwhole]
  dsimp only
  rw [wholeDigits_append hwhole htail, if_neg (by simpa using hwhole.ne_nil), List.drop_left,
    hfraction]
  dsimp only
  rw [hexponent]

/-! ### Integers -/

lemma length_toDigits_le {n : ℕ} (h : n < 10 ^ ValueFault.digitLimit) :
    (Nat.toDigits 10 n).length ≤ ValueFault.digitLimit :=
  (Nat.length_toDigits_le_iff (by decide) (by decide)).mpr h

lemma toList_intText (n : ℤ) :
    (intText n).toList = signText (n < 0) ++ Nat.toDigits 10 n.natAbs := by
  unfold intText natText signText
  by_cases h : n < 0 <;> simp [h]

/-- An integer that is not too long is read as itself. -/
lemma takeNumber_intText {n : ℤ} (hn : n.natAbs < 10 ^ ValueFault.digitLimit) {rest : List Char}
    (hrest : StopsNumber rest) :
    takeNumber ((intText n).toList ++ rest) = .ok (.int n, rest) := by
  rw [toList_intText, List.append_assoc, takeNumber_of_parts _ (isWhole_toDigits _) hrest.digit
    (takeFraction_none hrest.point) (takeExponent_none hrest)]
  unfold numberOf
  rw [if_neg (not_lt.mpr (length_toDigits_le hn)), digitsOf_toDigits]
  refine congrArg (fun k => Except.ok (Value.int k, rest)) ?_
  by_cases hneg : n < 0
  · simp only [hneg, decide_true, if_true]
    omega
  · simp only [hneg, decide_false, Bool.false_eq_true, if_false]
    omega

/-! ### Doubles -/

/-- The zeros at the end of some digits, split off. -/
lemma exists_zeros (ds : List Char) :
    ∃ n, ds = (ds.reverse.dropWhile (· == '0')).reverse ++ List.replicate n '0' := by
  refine ⟨(ds.reverse.takeWhile (· == '0')).length, ?_⟩
  have hzeros : (ds.reverse.takeWhile (· == '0')).reverse =
      List.replicate (ds.reverse.takeWhile (· == '0')).length '0' := by
    refine List.eq_replicate_iff.mpr ⟨List.length_reverse, fun c hc => ?_⟩
    simpa using List.mem_takeWhile_imp (List.mem_reverse.mp hc)
  rw [← hzeros, ← List.reverse_append, List.takeWhile_append_dropWhile, List.reverse_reverse]

/-- The digits of a positive decimal without the zeros at their end, and the place of its point. -/
lemma digits_of_decimal {d : Decimal} (h : d.digits ≠ 0) :
    ∃ c cs, ((Nat.toDigits 10 d.digits).reverse.dropWhile (· == '0')).reverse = c :: cs ∧
      AllDigits (c :: cs) ∧ c ≠ '0' ∧
      d.value = digitsOf (c :: cs) *
        10 ^ ((Nat.toDigits 10 d.digits).length + d.exponent - (c :: cs).length) := by
  obtain ⟨c, cs, hcs, hc⟩ := toDigits_head h
  obtain ⟨n, hn⟩ := exists_zeros (Nat.toDigits 10 d.digits)
  have hall := allDigits_toDigits d.digits
  have hvalue := digitsOf_toDigits d.digits
  rcases hds : ((Nat.toDigits 10 d.digits).reverse.dropWhile (· == '0')).reverse with _ | ⟨b, bs⟩
  · rw [hds, List.nil_append, hcs] at hn
    exact absurd (List.eq_of_mem_replicate (hn ▸ List.mem_cons_self)) hc
  · rw [hds] at hn
    have hb : b = c := by
      rw [hcs, List.cons_append] at hn
      exact (List.cons.inj hn).1.symm
    rw [hn] at hall hvalue ⊢
    refine ⟨b, bs, rfl, fun a ha => hall a (List.mem_append_left _ ha), hb ▸ hc, ?_⟩
    rw [digitsOf_append, digitsOf_zeros, List.length_replicate, add_zero] at hvalue
    rw [Decimal.value, ← hvalue, List.length_append, List.length_replicate]
    push_cast
    rw [mul_assoc, ← zpow_natCast, ← zpow_add₀ (by norm_num)]
    congr 2
    ring

/-- The parts of a number with a point or an exponent: whole digits, perhaps those behind a point,
and perhaps an exponent with the least number of its digits. -/
structure Parts where
  whole : List Char
  fraction : Option (List Char)
  exponent : Option (ℕ × ℤ)

namespace Parts

def fractionText : Option (List Char) → List Char
  | none => []
  | some ds => '.' :: ds

def exponentText : Option (ℕ × ℤ) → List Char
  | none => []
  | some (width, k) => 'e' :: (if k < 0 then '-' else '+') :: (paddedText width k.natAbs).toList

/-- The number as it is written, but for its sign. -/
def text (p : Parts) : List Char := p.whole ++ (fractionText p.fraction ++ exponentText p.exponent)

/-- What the number's digits are as an integer. -/
def digits (p : Parts) : ℕ := digitsOf (p.whole ++ p.fraction.getD [])

/-- The power of ten that the integer is taken times. -/
def power (p : Parts) : ℤ := p.exponent.elim 0 (·.2) - (p.fraction.getD []).length

/-- The parts are what they are called. -/
structure Proper (p : Parts) : Prop where
  isWhole : IsWhole p.whole
  fraction : ∀ ds ∈ p.fraction, AllDigits ds ∧ ds ≠ []
  marked : p.fraction ≠ none ∨ p.exponent ≠ none

/-- The parts are those of a positive number. -/
structure Spells (p : Parts) (value : ℚ) : Prop extends Proper p where
  digits_ne : p.digits ≠ 0
  value_eq : (p.digits : ℚ) * 10 ^ p.power = value

end Parts

lemma allDigits_paddedText (width n : ℕ) : AllDigits (paddedText width n).toList := by
  rw [paddedText, String.toList_ofList]
  exact (allDigits_zeros _).append (allDigits_toDigits _)

lemma paddedText_ne_nil (width n : ℕ) : (paddedText width n).toList ≠ [] := by
  rw [paddedText, String.toList_ofList]
  exact List.append_ne_nil_of_right_ne_nil _ Nat.toDigits_ne_nil

lemma digitsOf_paddedText (width n : ℕ) : digitsOf (paddedText width n).toList = n := by
  rw [paddedText, String.toList_ofList, digitsOf_append, digitsOf_zeros, zero_mul, zero_add,
    digitsOf_toDigits]

lemma takeExponent_exponentText (exponent : Option (ℕ × ℤ)) {rest : List Char}
    (hrest : StopsNumber rest) :
    takeExponent (Parts.exponentText exponent ++ rest) = (exponent.map (·.2), rest) := by
  rcases exponent with _ | ⟨width, k⟩
  · exact takeExponent_none hrest
  · have htake := takeExponent_some (k < 0) (allDigits_paddedText width k.natAbs)
      (paddedText_ne_nil width k.natAbs) hrest.digit
    simp only [decide_eq_true_eq, digitsOf_paddedText] at htake
    refine htake.trans (congrArg (fun n : ℤ => (some n, rest)) ?_)
    dsimp only
    split_ifs <;> omega

/-- A number in its parts is read as the double nearest to it. -/
lemma takeNumber_text {p : Parts} (h : p.Proper) (negative : Bool) {rest : List Char}
    (hrest : StopsNumber rest) : takeNumber (signText negative ++ (p.text ++ rest)) =
      .ok (.float (ofDecimal negative p.digits p.power), rest) := by
  obtain ⟨whole, fraction, exponent⟩ := p
  obtain ⟨hwhole, hfraction, hmarked⟩ := h
  have hafter : HeadFails isAsciiDigit (Parts.exponentText exponent ++ rest) := by
    rcases exponent with _ | ⟨width, k⟩
    · exact hrest.digit
    · rintro _ ⟨⟩
      rfl
  have hnopoint : HeadFails (· == '.') (Parts.exponentText exponent ++ rest) := by
    rcases exponent with _ | ⟨width, k⟩
    · exact hrest.point
    · rintro _ ⟨⟩
      rfl
  have htake : takeFraction (Parts.fractionText fraction ++ (Parts.exponentText exponent ++ rest)) =
      (fraction, Parts.exponentText exponent ++ rest) := by
    rcases fraction with _ | ds
    · exact takeFraction_none hnopoint
    · exact takeFraction_some (hfraction ds rfl).1 (hfraction ds rfl).2 hafter
  have htail : HeadFails isAsciiDigit
      (Parts.fractionText fraction ++ (Parts.exponentText exponent ++ rest)) := by
    rcases fraction with _ | ds
    · exact hafter
    · exact .cons rfl _
  rw [Parts.text, List.append_assoc, List.append_assoc, takeNumber_of_parts _ hwhole htail htake
    (takeExponent_exponentText exponent hrest)]
  rcases fraction with _ | ds <;> rcases exponent with _ | ⟨width, k⟩ <;>
    first | rfl | exact absurd hmarked (by simp)

lemma digitsOf_cons_ne_zero {c : Char} {cs : List Char} (hc : isAsciiDigit c = true)
    (hzero : c ≠ '0') : digitsOf (c :: cs) ≠ 0 := by
  have hpos : c.toNat - 48 ≠ 0 := by
    intro heq
    obtain ⟨hlow, -⟩ := of_decide_eq_true hc
    have hlow : 48 ≤ c.toNat := hlow
    exact hzero (Char.toNat_inj.mp (by change c.toNat = 48; omega))
  have happend := digitsOf_append [c] cs
  have hsingle : digitsOf [c] = c.toNat - 48 := by simp [digitsOf]
  rw [List.singleton_append, hsingle] at happend
  rw [happend]
  positivity

section

variable {c : Char} {cs : List Char} (hds : AllDigits (c :: cs)) (hc : c ≠ '0')

include hds hc

/-- A number without whole digits. -/
lemma spells_fraction (n : ℕ) :
    Parts.Spells ⟨['0'], some (List.replicate n '0' ++ c :: cs), none⟩
      (digitsOf (c :: cs) * 10 ^ (-(n : ℤ) - (c :: cs).length)) := by
  have hvalue : digitsOf (['0'] ++ (List.replicate n '0' ++ c :: cs)) = digitsOf (c :: cs) := by
    rw [← List.append_assoc, ← List.replicate_one, ← List.replicate_add, digitsOf_append,
      digitsOf_zeros, zero_mul, zero_add]
  refine ⟨⟨.inl rfl, ?_, .inl (Option.some_ne_none _)⟩, ?_, ?_⟩
  · rintro _ ⟨⟩
    exact ⟨(allDigits_zeros _).append hds, by simp⟩
  · rw [Parts.digits, Option.getD_some, hvalue]
    exact digitsOf_cons_ne_zero (hds c List.mem_cons_self) hc
  · rw [Parts.digits, Parts.power, Option.getD_some, hvalue, List.length_append,
      List.length_replicate, Option.elim_none]
    congr 2
    push_cast
    ring

/-- A number without digits behind the point. -/
lemma spells_whole (n : ℕ) : Parts.Spells ⟨c :: cs ++ List.replicate n '0', some ['0'], none⟩
    (digitsOf (c :: cs) * 10 ^ (n : ℤ)) := by
  have hvalue : digitsOf (c :: cs ++ List.replicate n '0' ++ ['0']) =
      digitsOf (c :: cs) * 10 ^ (n + 1) := by
    rw [List.append_assoc, ← List.replicate_one, ← List.replicate_add, digitsOf_append,
      digitsOf_zeros, List.length_replicate, add_zero]
  have hne : digitsOf (c :: cs) ≠ 0 := digitsOf_cons_ne_zero (hds c List.mem_cons_self) hc
  refine ⟨⟨.inr ⟨hds.append (allDigits_zeros _), c, _, rfl, hc⟩, ?_, .inl (Option.some_ne_none _)⟩, ?_, ?_⟩
  · rintro _ ⟨⟩
    exact ⟨allDigits_zeros 1, List.cons_ne_nil _ _⟩
  · rw [Parts.digits, Option.getD_some, hvalue]
    positivity
  · rw [Parts.digits, Parts.power, Option.getD_some, hvalue]
    push_cast
    rw [mul_assoc, ← zpow_natCast, ← zpow_add₀ (by norm_num)]
    congr 2
    simp

/-- A number with the point among its digits. -/
lemma spells_pointed {n : ℕ} (hpos : 0 < n) (hlt : n < (c :: cs).length) :
    Parts.Spells ⟨(c :: cs).take n, some ((c :: cs).drop n), none⟩
      (digitsOf (c :: cs) * 10 ^ ((n : ℤ) - (c :: cs).length)) := by
  have hwhole : IsWhole ((c :: cs).take n) := by
    refine .inr ⟨fun a ha => hds a (List.mem_of_mem_take ha), c, cs.take (n - 1), ?_, hc⟩
    rw [← List.take_succ_cons, Nat.sub_add_cancel hpos]
  refine ⟨⟨hwhole, ?_, .inl (Option.some_ne_none _)⟩, ?_, ?_⟩
  · rintro _ ⟨⟩
    exact ⟨fun a ha => hds a (List.mem_of_mem_drop ha), List.drop_eq_nil_iff.not.mpr
      (not_le.mpr hlt)⟩
  · rw [Parts.digits, Option.getD_some, List.take_append_drop]
    exact digitsOf_cons_ne_zero (hds c List.mem_cons_self) hc
  · rw [Parts.digits, Parts.power, Option.getD_some, List.take_append_drop, List.length_drop,
      Option.elim_none]
    congr 2
    push_cast [Nat.cast_sub hlt.le]
    ring

lemma exists_parts_positional (place : ℤ) : ∃ p : Parts, p.text = positional (c :: cs) place ∧
    p.Spells (digitsOf (c :: cs) * 10 ^ (place - (c :: cs).length)) := by
  unfold positional
  split_ifs with hplace
  · have hspells := spells_fraction hds hc (-place).toNat
    rw [Int.toNat_of_nonneg (by omega), neg_neg] at hspells
    exact ⟨_, by simp [Parts.text, Parts.fractionText, Parts.exponentText], hspells⟩
  · dsimp only
    split_ifs with hlength
    · have hspells := spells_whole hds hc (place.toNat - (c :: cs).length)
      rw [Nat.cast_sub hlength, Int.toNat_of_nonneg (by omega)] at hspells
      exact ⟨_, by simp [Parts.text, Parts.fractionText, Parts.exponentText], hspells⟩
    · have hspells := spells_pointed hds hc (by omega) (not_le.mp hlength)
      rw [Int.toNat_of_nonneg (by omega)] at hspells
      exact ⟨_, by simp [Parts.text, Parts.fractionText, Parts.exponentText], hspells⟩

lemma exists_parts_scientific (width : ℕ) (place : ℤ) :
    ∃ p : Parts, p.text = scientific width (c :: cs) place ∧
      p.Spells (digitsOf (c :: cs) * 10 ^ (place - (c :: cs).length)) := by
  have hne : digitsOf (c :: cs) ≠ 0 := digitsOf_cons_ne_zero (hds c List.mem_cons_self) hc
  have hwhole : IsWhole [c] := .inr ⟨fun a ha => hds a (by simp_all), c, [], rfl, hc⟩
  rcases cs with _ | ⟨b, bs⟩
  · refine ⟨⟨[c], none, some (width, place - 1)⟩, rfl, ⟨hwhole, by simp, .inr (Option.some_ne_none _)⟩, hne, ?_⟩
    simp [Parts.digits, Parts.power]
  · refine ⟨⟨[c], some (b :: bs), some (width, place - 1)⟩, by
      simp [Parts.text, Parts.fractionText, Parts.exponentText, scientific],
      ⟨hwhole, ?_, .inr (Option.some_ne_none _)⟩, hne, ?_⟩
    · rintro _ ⟨⟩
      exact ⟨fun a ha => hds a (List.mem_cons_of_mem _ ha), List.cons_ne_nil _ _⟩
    · rw [Parts.digits, Parts.power, Option.getD_some, List.singleton_append]
      congr 2
      simp only [Option.elim_some, List.length_cons]
      push_cast
      ring

end

lemma exists_parts (style : Number.Style) {d : Decimal} (h : d.digits ≠ 0) :
    ∃ p : Parts, p.text = decimalText style d ∧ p.Spells d.value := by
  obtain ⟨c, cs, hcs, hds, hc, hvalue⟩ := digits_of_decimal h
  unfold decimalText
  dsimp only
  rw [hcs, hvalue]
  split_ifs
  · exact exists_parts_positional hds hc _
  · exact exists_parts_scientific hds hc _ _

lemma toList_doubleTextIn (style : Number.Style) {s : Bool} {m : ℕ} {e : ℤ}
    (h : Double.Canonical m e) : (doubleTextIn style (.finite s m e h)).toList = signText s ++
      (if m = 0 then ['0', '.', '0'] else decimalText style (shortestDecimal m e)) := by
  unfold doubleTextIn signText
  cases s <;> simp

/-- **A finite double is read back from the text that is written for it.** -/
theorem takeNumber_doubleText {x : Double} (hx : x.isFinite = true) (style : Number.Style)
    {rest : List Char} (hrest : StopsNumber rest) :
    takeNumber ((doubleTextIn style x).toList ++ rest) = .ok (.float x, rest) := by
  cases x with
  | nan => cases hx
  | infinite => cases hx
  | finite s m e h =>
    rw [toList_doubleTextIn, List.append_assoc]
    split_ifs with hzero
    · subst hzero
      have hread := takeNumber_of_parts s (.inl rfl) (.cons (c := '.') rfl ('0' :: rest))
        (takeFraction_some (allDigits_zeros 1) (List.cons_ne_nil _ _) hrest.digit)
        (takeExponent_none hrest)
      refine Eq.trans hread ?_
      obtain rfl : e = -1074 := by
        obtain ⟨-, -, -, hnormal | hleast⟩ := h
        · exact absurd hnormal (by decide)
        · exact hleast
      rfl
    · have hm := Nat.pos_of_ne_zero hzero
      obtain ⟨hdigits, hrounds⟩ := rounds_shortestDecimal (e := e) hm h.1
      obtain ⟨p, hp, hspells⟩ := exists_parts style hdigits
      rw [← hspells.value_eq] at hrounds
      rw [← hp, takeNumber_text hspells.toProper s hrest,
        ofDecimal_of_rounds h hm hspells.digits_ne hrounds]

/-! ### The beginning of a number -/

/-- The text begins with a digit. -/
def LeadsDigit (text : List Char) : Prop := ∃ c cs, text = c :: cs ∧ isAsciiDigit c = true

lemma Parts.Proper.leadsDigit {p : Parts} (h : p.Proper) : LeadsDigit p.text := by
  obtain ⟨c, cs, hcs⟩ := List.exists_cons_of_ne_nil h.isWhole.ne_nil
  exact ⟨c, _, by rw [Parts.text, hcs, List.cons_append],
    h.isWhole.allDigits c (hcs ▸ List.mem_cons_self)⟩

/-- The text begins as numbers do: with a digit, a sign in front of it or not. -/
def LeadsNumber (text : List Char) : Prop :=
  ∃ negative body, text = signText negative ++ body ∧ LeadsDigit body

lemma leadsNumber_intText (n : ℤ) : LeadsNumber (intText n).toList := by
  obtain ⟨c, cs, hcs⟩ := List.exists_cons_of_ne_nil (Nat.toDigits_ne_nil (b := 10) (n := n.natAbs))
  exact ⟨_, _, toList_intText n, c, cs, hcs,
    allDigits_toDigits n.natAbs c (hcs ▸ List.mem_cons_self)⟩

lemma leadsNumber_doubleText {x : Double} (hx : x.isFinite = true) (style : Number.Style) :
    LeadsNumber (doubleTextIn style x).toList := by
  cases x with
  | nan => cases hx
  | infinite => cases hx
  | finite s m e h =>
    refine ⟨_, _, toList_doubleTextIn style h, ?_⟩
    split_ifs with hzero
    · exact ⟨'0', ['.', '0'], rfl, rfl⟩
    · have hm := Nat.pos_of_ne_zero hzero
      obtain ⟨p, hp, hspells⟩ := exists_parts style (rounds_shortestDecimal (e := e) hm h.1).1
      exact hp ▸ hspells.toProper.leadsDigit

end Stencil.Json
