import Mathlib.Tactic.NormNum
import Stencil.Proofs.Number.Rounding

/-!
Doubles in order, and the order that rounding keeps.

A quotient is rounded to a multiple of the least positive double (`roundedUnits`), or to an infinity
if that is too far out; a greater quotient is never rounded to less (`roundedUnits_mono`). So a
difference of doubles grows with the number that is subtracted from (`lt_sub_of_le`), and an integer
has a double near it up to a bound (`ofInt?_eq_none_iff`).
-/

namespace Stencil.Double

/-! ### The order -/

lemma Place.lt_trans {p q r : Place} (hpq : p.lt q = true) (hqr : q.lt r = true) :
    p.lt r = true := by
  cases p <;> cases q <;> cases r <;> simp_all [Place.lt]
  omega

/-- What comes after a number is one. -/
lemma le_right {x y : Double} (h : le x y = true) : le y y = true := by
  unfold le lt eq at *
  generalize x.place? = p, y.place? = q at *
  rcases p with _ | p <;> rcases q with _ | q <;> simp at *

lemma le_trans {x y z : Double} (hxy : le x y = true) (hyz : le y z = true) : le x z = true := by
  unfold le lt eq at *
  generalize x.place? = p, y.place? = q, z.place? = r at *
  rcases p with _ | p <;> rcases q with _ | q <;> rcases r with _ | r <;> simp at *
  rcases hxy with hpq | rfl
  · rcases hyz with hqr | rfl
    · exact .inl (Place.lt_trans hpq hqr)
    · exact .inl hpq
  · exact hyz

lemma lt_of_lt_of_le {x y z : Double} (hxy : lt x y = true) (hyz : le y z = true) :
    lt x z = true := by
  unfold le lt eq at *
  generalize x.place? = p, y.place? = q, z.place? = r at *
  rcases p with _ | p <;> rcases q with _ | q <;> rcases r with _ | r <;> simp at *
  rcases hyz with hqr | rfl
  · exact Place.lt_trans hxy hqr
  · exact hxy

/-! ### Rounded quotients -/

/-- A quotient rounded, as a multiple of the least positive double. -/
def roundedUnits (num den : ℕ) : ℕ :=
  let e := exponentFor num den
  roundDiv (num * 2 ^ (-e).toNat) (den * 2 ^ e.toNat) * 2 ^ (e + 1074).toNat

/-- From this multiple on there are no doubles. -/
def limitUnits : ℕ := 2 ^ 53 * 2 ^ 2045

lemma limitUnits_pos : 0 < limitUnits := by
  unfold limitUnits
  positivity

/-- The place of a multiple; one that no double is stands for an infinity. -/
def Place.ofUnits (u : ℤ) : Place :=
  if u ≤ -(limitUnits : ℤ) then .below else if (limitUnits : ℤ) ≤ u then .above else .at u

/-- Both zeros are at no multiple. -/
lemma place?_zero (negative : Bool) : (zero negative).place? = some (.ofUnits 0) := by
  have hpos := limitUnits_pos
  have hplace : Place.ofUnits 0 = .at 0 := by
    rw [Place.ofUnits, if_neg (by omega), if_neg (by omega)]
  rw [hplace]
  cases negative <;> rfl

variable {num den num' den' : ℕ}

/-- What a quotient is rounded to at its exponent has 53 binary digits, or is 2 ^ 53. -/
lemma roundDiv_bounds (hnum : 0 < num) (hden : 0 < den) {e : ℤ} (he : exponentFor num den = e) :
    let n := roundDiv (num * 2 ^ (-e).toNat) (den * 2 ^ e.toNat)
    n ≤ 2 ^ 53 ∧ (2 ^ 52 ≤ n ∨ e = -1074) ∧ -1074 ≤ e := by
  have hx : (0 : ℚ) < num / den := by positivity
  have hulp : (0 : ℚ) < 2 ^ e := by positivity
  have hnear := nearest_roundDiv (num * 2 ^ (-e).toNat)
    (by positivity : 0 < den * 2 ^ e.toNat)
  rw [scaled_div] at hnear
  rw [exponentFor_eq hnum hden] at he
  refine ⟨hnear.mono (nearest_natCast _) ?_, ?_, by omega⟩
  · have hlt := (Int.lt_zpow_iff_log_lt (b := 2) (by decide) hx).mpr
      (show Int.log 2 ((num : ℚ) / den) < 53 + e by omega)
    rw [div_le_iff₀ hulp]
    push_cast
    rw [Nat.cast_ofNat, zpow_add₀ two_ne_zero] at hlt
    exact_mod_cast hlt.le
  · by_cases hleast : e = -1074
    · exact .inr hleast
    · refine .inl ((nearest_natCast _).mono hnear ?_)
      have hle := (Int.zpow_le_iff_le_log (b := 2) (by decide) hx).mpr
        (show 52 + e ≤ Int.log 2 ((num : ℚ) / den) by omega)
      rw [le_div_iff₀ hulp]
      push_cast
      rw [Nat.cast_ofNat, zpow_add₀ two_ne_zero] at hle
      exact_mod_cast hle

/-- A greater quotient is not rounded to less. -/
lemma roundedUnits_mono (hnum : 0 < num) (hden : 0 < den) (hnum' : 0 < num') (hden' : 0 < den')
    (h : (num : ℚ) / den ≤ num' / den') : roundedUnits num den ≤ roundedUnits num' den' := by
  have hx : (0 : ℚ) < num / den := by positivity
  obtain ⟨e, he⟩ : ∃ e, exponentFor num den = e := ⟨_, rfl⟩
  obtain ⟨e', he'⟩ : ∃ e, exponentFor num' den' = e := ⟨_, rfl⟩
  have hle : e ≤ e' := by
    rw [exponentFor_eq hnum hden] at he
    rw [exponentFor_eq hnum' hden'] at he'
    have hlog := Int.log_mono_right (b := 2) hx h
    omega
  obtain ⟨hhigh, -, hleast⟩ := roundDiv_bounds hnum hden he
  obtain ⟨-, hlow', -⟩ := roundDiv_bounds hnum' hden' he'
  unfold roundedUnits
  simp only [he, he']
  rcases hle.eq_or_lt with rfl | hlt
  · gcongr
    refine (nearest_roundDiv _ (by positivity)).mono (nearest_roundDiv _ (by positivity)) ?_
    rw [scaled_div, scaled_div]
    gcongr
  · -- the powers of two between the exponents make up for the digits
    have hlow' := hlow'.resolve_right (by omega)
    calc _ ≤ 2 ^ 53 * 2 ^ (e + 1074).toNat := by gcongr
      _ = 2 ^ 52 * 2 ^ (1 + (e + 1074).toNat) := by ring
      _ ≤ 2 ^ 52 * 2 ^ (e' + 1074).toNat := by
        gcongr
        · norm_num
        · omega
      _ ≤ _ := by gcongr

lemma place?_ofFields {m : ℕ} {e : ℤ} (hfine : m < 2 ^ 53) (hleast : -1074 ≤ e)
    (hnormal : 2 ^ 52 ≤ m ∨ e = -1074) (negative : Bool) :
    (ofFields negative m e).place? = some (.ofUnits (if negative
      then -((m * 2 ^ (e + 1074).toNat : ℕ) : ℤ) else (m * 2 ^ (e + 1074).toNat : ℕ))) := by
  by_cases hmost : e ≤ 971
  · have hlt : m * 2 ^ (e + 1074).toNat < limitUnits :=
      calc m * 2 ^ (e + 1074).toNat < 2 ^ 53 * 2 ^ (e + 1074).toNat := by gcongr
        _ ≤ limitUnits := by
          unfold limitUnits
          gcongr
          · norm_num
          · omega
    rw [ofFields_eq ⟨hfine, hleast, hmost, hnormal⟩, place?.eq_def]
    simp only [Nat.pow_eq]
    generalize m * 2 ^ (e + 1074).toNat = u at hlt ⊢
    unfold Place.ofUnits
    cases negative
    · simp only [Bool.false_eq_true, if_false]
      rw [if_neg (by omega), if_neg (by omega)]
    · simp only [if_true]
      rw [if_neg (by omega), if_neg (by omega)]
  · have hlimit : limitUnits = 2 ^ 52 * 2 ^ (2045 + 1) := by
      rw [limitUnits, pow_succ 2 52, pow_succ 2 2045, mul_assoc, mul_comm 2]
    have hle : limitUnits ≤ m * 2 ^ (e + 1074).toNat :=
      calc limitUnits = 2 ^ 52 * 2 ^ (2045 + 1) := hlimit
        _ ≤ 2 ^ 52 * 2 ^ (e + 1074).toNat := by
          gcongr
          · norm_num
          · omega
        _ ≤ m * 2 ^ (e + 1074).toNat := by
          gcongr
          exact hnormal.resolve_right (by omega)
    have hpos := limitUnits_pos
    have hfields : ofFields negative m e = .infinite negative :=
      dif_neg fun h : Canonical m e => hmost h.2.2.1
    rw [hfields]
    generalize m * 2 ^ (e + 1074).toNat = u at hle ⊢
    unfold Place.ofUnits
    cases negative
    · simp only [Bool.false_eq_true, if_false]
      rw [if_neg (by omega), if_pos (by omega)]
      rfl
    · simp only [if_true]
      rw [if_pos (by omega)]
      rfl

/-- Where a quotient is rounded to. -/
lemma place?_ofRatio (hnum : 0 < num) (hden : 0 < den) (negative : Bool) :
    (ofRatio negative num den).place? = some (.ofUnits
      (if negative then -(roundedUnits num den : ℤ) else roundedUnits num den)) := by
  obtain ⟨e, he⟩ : ∃ e, exponentFor num den = e := ⟨_, rfl⟩
  obtain ⟨hhigh, hlow, hleast⟩ := roundDiv_bounds hnum hden he
  have hunits : roundedUnits num den =
      roundDiv (num * 2 ^ (-e).toNat) (den * 2 ^ e.toNat) * 2 ^ (e + 1074).toNat := by
    rw [← he]
    rfl
  rw [hunits, ofRatio_eq hnum negative he rfl]
  generalize roundDiv (num * 2 ^ (-e).toNat) (den * 2 ^ e.toNat) = n at hhigh hlow ⊢
  by_cases hn : n = 2 ^ 53
  · have hshift : (e + 1 + 1074).toNat = (e + 1074).toNat + 1 := by omega
    have hsame : 2 ^ 52 * 2 ^ (e + 1 + 1074).toNat = n * 2 ^ (e + 1074).toNat := by
      rw [hn, hshift]
      ring
    rw [if_pos hn, place?_ofFields (by norm_num) (by omega) (.inl le_rfl), hsame]
  · rw [if_neg hn]
    exact place?_ofFields (by omega) hleast hlow negative

/-! ### Rounded integers and differences -/

/-- An integer multiple of a double that goes `den` times into one, rounded. -/
def roundedInt (n : ℤ) (den : ℕ) : ℤ :=
  if n < 0 then -(roundedUnits n.natAbs den : ℤ)
  else if n = 0 then 0
  else roundedUnits n.natAbs den

lemma roundedInt_mono {a b : ℤ} (h : a ≤ b) (hden : 0 < den) :
    roundedInt a den ≤ roundedInt b den := by
  have hden' : (0 : ℚ) < den := by exact_mod_cast hden
  have key {m n : ℕ} (hm : 0 < m) (hmn : m ≤ n) : roundedUnits m den ≤ roundedUnits n den := by
    refine roundedUnits_mono hm hden (by omega) hden ?_
    gcongr
  unfold roundedInt
  rcases lt_trichotomy a 0 with ha | rfl | ha
  · rw [if_pos ha]
    by_cases hb : b < 0
    · rw [if_pos hb]
      have hle := key (m := b.natAbs) (n := a.natAbs) (by omega) (by omega)
      omega
    · rw [if_neg hb]
      split_ifs <;> omega
  · rw [if_neg (by decide), if_pos rfl, if_neg (by omega)]
    split_ifs <;> omega
  · rw [if_neg (by omega), if_neg (by omega), if_neg (by omega), if_neg (by omega)]
    have hle := key (m := a.natAbs) (n := b.natAbs) (by omega) (by omega)
    omega

lemma place?_ofRatio_int (n : ℤ) (hden : 0 < den) :
    (ofRatio (n < 0) n.natAbs den).place? = some (.ofUnits (roundedInt n den)) := by
  unfold roundedInt
  by_cases hzero : n = 0
  · rw [hzero]
    exact place?_zero false
  · rw [place?_ofRatio (by omega) hden]
    by_cases hneg : n < 0
    · simp [hneg]
    · simp [hneg, hzero]

lemma Place.ofUnits_mono {u v : ℤ} (h : u ≤ v) :
    (Place.ofUnits u).lt (.ofUnits v) = true ∨ Place.ofUnits u = .ofUnits v := by
  unfold Place.ofUnits
  split_ifs <;> first
    | exact .inr rfl
    | exact .inl rfl
    | omega
    | skip
  rcases h.lt_or_eq with hlt | rfl
  · exact .inl (by simpa [Place.lt] using hlt)
  · exact .inr rfl

/-- A double's multiple of the least positive one is its place. -/
lemma place?_eq_units? {x : Double} {a : ℤ} (h : x.units? = some a) : x.place? = some (.at a) := by
  cases x with
  | finite s m e hc =>
    cases h
    rfl
  | _ => cases h

lemma units?_neg {x : Double} {a : ℤ} (h : x.units? = some a) : x.neg.units? = some (-a) := by
  cases x with
  | finite s m e hc =>
    obtain rfl := Option.some.inj h
    cases s <;> simp [neg, units?]
  | _ => cases h

lemma unitsInOne_pos : 0 < unitsInOne := by
  unfold unitsInOne
  generalize 1074 = k
  exact Nat.pow_pos (by decide)

/-- A sum of finite doubles is the sum of their multiples, rounded. -/
lemma place?_add {x y : Double} {a b : ℤ} (hx : x.units? = some a) (hy : y.units? = some b) :
    (x.add y).place? = some (.ofUnits (roundedInt (a + b) unitsInOne)) := by
  cases x with
  | finite s m e hc =>
    cases y with
    | finite s' m' e' hc' =>
      rw [add, hx, hy]
      dsimp only
      split_ifs with hsum
      · rw [hsum]
        exact place?_zero _
      · exact place?_ofRatio_int (a + b) unitsInOne_pos
    | _ => cases hy
  | _ => cases hx

/-- A difference of finite doubles grows with what it is taken from. -/
lemma le_sub {x y z : Double} {a b c : ℤ} (hx : x.units? = some a) (hy : y.units? = some b)
    (hz : z.units? = some c) (h : le x y = true) : le (sub x z) (sub y z) = true := by
  have hab : a ≤ b := by
    simp only [le, lt, eq, place?_eq_units? hx, place?_eq_units? hy, Place.lt, Bool.or_eq_true,
      decide_eq_true_eq, beq_iff_eq, Place.at.injEq] at h
    omega
  have hround := roundedInt_mono (show a + -c ≤ b + -c by omega) unitsInOne_pos
  unfold sub le lt eq
  rw [place?_add hx (units?_neg hz), place?_add hy (units?_neg hz)]
  simpa using Place.ofUnits_mono hround

lemma lt_nan (w : Double) : lt w .nan = false := by
  unfold lt
  rcases w.place? with _ | p <;> rfl

lemma not_lt_below (w : Double) : lt w (.infinite true) = false := by
  unfold lt
  rcases w.place? with _ | _ | _ | _ <;> rfl

lemma lt_above_of_lt {w x : Double} (h : lt w x = true) : lt w (.infinite false) = true := by
  have habove : (infinite false).place? = some .above := rfl
  unfold lt at *
  rw [habove]
  generalize w.place? = p, x.place? = q at *
  rcases p with _ | _ | _ | _ <;> rcases q with _ | _ | _ | _ <;> simp_all [Place.lt]

lemma lt_sub_below (w z : Double) : lt w (sub (.infinite true) z) = false := by
  cases z with
  | nan => exact lt_nan w
  | infinite t => cases t <;> simp [sub, neg, add, lt_nan, not_lt_below]
  | finite t m e hc => exact not_lt_below w

/-- **A difference grows with what it is taken from**: what it exceeds once, it exceeds from then
on. -/
theorem lt_sub_of_le {w x y z : Double} (hxy : le x y = true) (h : lt w (sub x z) = true) :
    lt w (sub y z) = true := by
  cases x with
  | nan => simp [le, lt, eq, place?] at hxy
  | infinite s =>
    cases s with
    | true => simp [lt_sub_below] at h
    | false =>
      cases y with
      | infinite t =>
        cases t with
        | true => simp [le, lt, eq, place?, Place.lt] at hxy
        | false => exact h
      | _ => simp [le, lt, eq, place?, Place.lt] at hxy
  | finite s m e hc =>
    cases y with
    | nan => simp [le, lt, eq, place?] at hxy
    | infinite t =>
      cases t with
      | true => simp [le, lt, eq, place?, Place.lt] at hxy
      | false =>
        cases z with
        | nan => simp [sub, neg, add, lt_nan] at h
        | infinite t =>
          cases t with
          | true => exact h
          | false => simp [sub, neg, add, not_lt_below] at h
        | finite t k j hz => exact lt_above_of_lt h
    | finite s' m' e' hc' =>
      cases z with
      | nan => simp [sub, neg, add, lt_nan] at h
      | infinite t => exact h
      | finite t k j hz => exact lt_of_lt_of_le h (le_sub rfl rfl rfl hxy)

/-! ### Integers that have a double near them -/

/-- The least natural that is too far out for a double. -/
def limitInt : ℕ := 2 ^ 1024 - 2 ^ 970

lemma natAbs_roundedInt {n : ℤ} (hn : n ≠ 0) :
    (roundedInt n den).natAbs = roundedUnits n.natAbs den := by
  unfold roundedInt
  split_ifs <;> omega

lemma limitUnits_le_natAbs_iff {u : ℤ} :
    limitUnits ≤ u.natAbs ↔ Place.ofUnits u = .below ∨ Place.ofUnits u = .above := by
  have hpos := limitUnits_pos
  unfold Place.ofUnits
  split_ifs <;> simp <;> omega

lemma isFinite_ofRatio_iff_units (n : ℤ) (hden : 0 < den) :
    (ofRatio (n < 0) n.natAbs den).isFinite = false ↔ limitUnits ≤ (roundedInt n den).natAbs := by
  have hplace := place?_ofRatio_int n hden
  rw [limitUnits_le_natAbs_iff]
  generalize Place.ofUnits (roundedInt n den) = p, ofRatio (n < 0) n.natAbs den = x at hplace ⊢
  cases x with
  | nan => cases hplace
  | infinite s => cases s <;> cases hplace <;> simp [isFinite]
  | finite s m e hc =>
    cases hplace
    simp [isFinite]

/-- A quotient is too far out from the first numerator on that is. -/
lemma isFinite_ofRatio_iff {limit : ℕ} (hden : 0 < den) (hlimit : 0 < limit)
    (hbelow : roundedUnits (limit - 1) den < limitUnits)
    (habove : limitUnits ≤ roundedUnits limit den) (n : ℤ) :
    (ofRatio (n < 0) n.natAbs den).isFinite = false ↔ limit ≤ n.natAbs := by
  have hmono {a b : ℕ} (ha : 0 < a) (hab : a ≤ b) : roundedUnits a den ≤ roundedUnits b den := by
    refine roundedUnits_mono ha hden (by omega) hden ?_
    gcongr
  rw [isFinite_ofRatio_iff_units n hden]
  by_cases hn : n = 0
  · subst hn
    have hpos := limitUnits_pos
    have hzero : roundedInt 0 den = 0 := rfl
    rw [hzero]
    omega
  · rw [natAbs_roundedInt hn]
    constructor
    · intro h
      by_contra! hlt
      have hle := hmono (Int.natAbs_pos.mpr hn) (Nat.le_sub_one_of_lt hlt)
      omega
    · exact fun h => habove.trans (hmono hlimit h)

lemma ofInt?_eq_none_iff_isFinite (n : ℤ) : ofInt? n = none ↔ (ofInt n).isFinite = false := by
  unfold ofInt?
  cases ofInt n <;> simp [isFinite]

lemma ofInt?_eq_none_iff_units (n : ℤ) :
    ofInt? n = none ↔ limitUnits ≤ (roundedInt n 1).natAbs :=
  (ofInt?_eq_none_iff_isFinite n).trans (isFinite_ofRatio_iff_units n one_pos)

/-- **The integers that have a double near them** are those up to half a place beyond the greatest
double. -/
theorem ofInt?_eq_none_iff (n : ℤ) : ofInt? n = none ↔ limitInt ≤ n.natAbs := by
  rw [ofInt?_eq_none_iff_isFinite]
  exact isFinite_ofRatio_iff one_pos (by decide +kernel) (by decide +kernel) (by decide +kernel) n

end Stencil.Double
