import Mathlib.Algebra.Order.Field.Power
import Mathlib.Algebra.Order.Floor.Semifield
import Mathlib.Data.Int.Log
import Mathlib.Data.Rat.Floor
import Mathlib.Tactic.FieldSimp
import Mathlib.Tactic.Linarith
import Mathlib.Tactic.NormNum
import Mathlib.Tactic.Positivity
import Mathlib.Tactic.Ring
import Stencil.Number.Decimal

/-!
The numbers that round to a double, and the double that a decimal is read as.

A finite double `m * 2 ^ e` stands for an interval around it (`Rounds`), half a unit of its last
place wide on either side, but for the least significand of an exponent, below which doubles lie
closer. The decimal that is written for a double lies in its interval (`rounds_shortestDecimal`),
and every decimal there is read as the double (`ofDecimal_of_rounds`). So the text of a double
determines it, without any bound on the digits being tried out.
-/

namespace Stencil

/-- A power as the quotient of the powers that are computed. -/
lemma zpow_eq_div {b : ℚ} (hb : b ≠ 0) (e : ℤ) : b ^ e = b ^ e.toNat / b ^ (-e).toNat := by
  rw [← zpow_natCast, ← zpow_natCast, ← zpow_sub₀ hb, Int.toNat_sub_toNat_neg]

/-! ### Intervals -/

namespace Double

/-- The least number that can round to `m * 2 ^ e`. -/
def lower (m : ℕ) (e : ℤ) : ℚ :=
  (if m = 2 ^ 52 ∧ -1074 < e then (m : ℚ) - 1 / 4 else m - 1 / 2) * 2 ^ e

/-- The greatest number that can round to `m * 2 ^ e`. -/
def upper (m : ℕ) (e : ℤ) : ℚ := (m + 1 / 2) * 2 ^ e

/-- The number rounds to `m * 2 ^ e`. The ends of the interval do if the significand is even. -/
structure Rounds (m : ℕ) (e : ℤ) (x : ℚ) : Prop where
  low : lower m e ≤ x
  high : x ≤ upper m e
  atLow : x = lower m e → m % 2 = 0
  atHigh : x = upper m e → m % 2 = 0

variable {m : ℕ} {e : ℤ} {x : ℚ}

lemma Rounds.of_lt (hlow : lower m e < x) (hhigh : x < upper m e) : Rounds m e x :=
  ⟨hlow.le, hhigh.le, fun h => absurd h hlow.ne', fun h => absurd h hhigh.ne⟩

lemma half_le_lower : ((m : ℚ) - 1 / 2) * 2 ^ e ≤ lower m e := by
  unfold lower
  gcongr
  split_ifs <;> linarith

lemma lower_le_quarter : lower m e ≤ ((m : ℚ) - 1 / 4) * 2 ^ e := by
  unfold lower
  gcongr
  split_ifs <;> linarith

end Double

namespace Number

open Double

/-- The value of a decimal. -/
def Decimal.value (d : Decimal) : ℚ := d.digits * 10 ^ d.exponent

section

variable {m : ℕ} {e : ℤ}

lemma den_of_pos : (0 : ℚ) < (Rounding.of m e).den := by
  simp [Rounding.of]

lemma value_of : ((Rounding.of m e).value : ℚ) / (Rounding.of m e).den = m * 2 ^ e := by
  rw [zpow_eq_div two_ne_zero]
  simp only [Rounding.of, Nat.pow_eq]
  push_cast
  field_simp

lemma high_of : ((Rounding.of m e).high : ℚ) / (Rounding.of m e).den = upper m e := by
  rw [upper, zpow_eq_div two_ne_zero]
  simp only [Rounding.of, Nat.pow_eq]
  push_cast
  field_simp
  ring

lemma low_of (hm : 0 < m) :
    ((Rounding.of m e).low : ℚ) / (Rounding.of m e).den = lower m e := by
  have h2 : ((4 * m - 2 : ℕ) : ℚ) = 4 * m - 2 := by
    rw [Nat.cast_sub (by omega)]
    push_cast
    ring
  have h1 : ((4 * m - 1 : ℕ) : ℚ) = 4 * m - 1 := by
    rw [Nat.cast_sub (by omega)]
    push_cast
    ring
  rw [lower, zpow_eq_div two_ne_zero]
  by_cases h : m = 2 ^ 52 ∧ -1074 < e
  · have hlow : (Rounding.of m e).low = (4 * m - 1) * 2 ^ e.toNat := by
      simp [Rounding.of, h]
    rw [if_pos h, hlow]
    simp only [Rounding.of, Nat.pow_eq]
    push_cast [h1]
    field_simp
  · have hlow : (Rounding.of m e).low = (4 * m - 2) * 2 ^ e.toNat := by
      simp only [Rounding.of, Nat.pow_eq]
      rw [if_neg (by simpa using h)]
    rw [if_neg h, hlow]
    simp only [Rounding.of, Nat.pow_eq]
    push_cast [h2]
    field_simp
    ring

/-- The test for an interval tests for it. -/
lemma holds_of_iff (hm : 0 < m) {a b : ℕ} (hb : 0 < b) :
    (Rounding.of m e).holds a b = true ↔ Rounds m e (a / b) := by
  have hb : (0 : ℚ) < b := by exact_mod_cast hb
  have hden := den_of_pos (m := m) (e := e)
  have hlow : (Rounding.of m e).low * b ≤ a * (Rounding.of m e).den ↔
      lower m e ≤ (a : ℚ) / b := by
    rw [← low_of hm, div_le_div_iff₀ hden hb]
    exact_mod_cast Iff.rfl
  have hlow' : (Rounding.of m e).low * b < a * (Rounding.of m e).den ↔
      lower m e < (a : ℚ) / b := by
    rw [← low_of hm, div_lt_div_iff₀ hden hb]
    exact_mod_cast Iff.rfl
  have hhigh : a * (Rounding.of m e).den ≤ (Rounding.of m e).high * b ↔
      (a : ℚ) / b ≤ upper m e := by
    rw [← high_of, div_le_div_iff₀ hb hden]
    exact_mod_cast Iff.rfl
  have hhigh' : a * (Rounding.of m e).den < (Rounding.of m e).high * b ↔
      (a : ℚ) / b < upper m e := by
    rw [← high_of, div_lt_div_iff₀ hb hden]
    exact_mod_cast Iff.rfl
  have hclosed : (Rounding.of m e).closed = (m % 2 == 0) := rfl
  unfold Rounding.holds
  rw [hclosed]
  by_cases heven : m % 2 = 0
  · simp only [heven, beq_self_eq_true, if_true, Bool.and_eq_true, decide_eq_true_eq, hlow, hhigh]
    exact ⟨fun h => ⟨h.1, h.2, fun _ => heven, fun _ => heven⟩, fun h => ⟨h.low, h.high⟩⟩
  · simp only [beq_eq_false_iff_ne.mpr heven, Bool.false_eq_true, if_false, Bool.and_eq_true,
      decide_eq_true_eq, hlow', hhigh']
    refine ⟨fun h => .of_lt h.1 h.2, fun h => ⟨?_, ?_⟩⟩
    · exact lt_of_le_of_ne h.low fun heq => heven (h.atLow heq.symm)
    · exact lt_of_le_of_ne h.high fun heq => heven (h.atHigh heq)

/-! ### The shortest decimal -/

lemma lt_pow_digitCount (n : ℕ) : n < 10 ^ digitCount n :=
  (Nat.length_toDigits_le_iff (by decide) Nat.length_toDigits_pos).mp le_rfl

lemma pow_le_of_digitCount {n : ℕ} (hn : 0 < n) : 10 ^ (digitCount n - 1) ≤ n := by
  by_contra! hlt
  rcases Nat.eq_zero_or_pos (digitCount n - 1) with hone | hmore
  · rw [hone] at hlt
    omega
  · have hle := (Nat.length_toDigits_le_iff (by decide) hmore).mpr hlt
    change digitCount n ≤ digitCount n - 1 at hle
    omega

/-- How a quotient is compared with a power of ten in naturals. -/
lemma pow_le_div_of_reached {num den : ℕ} (hden : 0 < den) {k : ℤ}
    (h : if 0 ≤ k then den * 10 ^ k.toNat ≤ num else den ≤ num * 10 ^ (-k).toNat) :
    (10 : ℚ) ^ k ≤ num / den := by
  have hden' : (0 : ℚ) < den := by exact_mod_cast hden
  rw [le_div_iff₀ hden']
  split_ifs at h with hpos
  · rw [← Int.toNat_of_nonneg hpos, zpow_natCast, mul_comm]
    exact_mod_cast h
  · have hneg : (10 : ℚ) ^ k * 10 ^ (-k).toNat = 1 := by
      rw [← zpow_natCast, ← zpow_add₀ (by norm_num), Int.toNat_of_nonneg (by omega),
        add_neg_cancel, zpow_zero]
    have hle : (den : ℚ) ≤ num * 10 ^ (-k).toNat := by exact_mod_cast h
    calc (10 : ℚ) ^ k * den ≤ 10 ^ k * (num * 10 ^ (-k).toNat) := by gcongr
      _ = num * (10 ^ k * 10 ^ (-k).toNat) := by ring
      _ = num := by rw [hneg, mul_one]

/-- The numbers of digits of a quotient say its magnitude to one place. -/
lemma pow_digitCount_le_div {num den : ℕ} (hnum : 0 < num) (hden : 0 < den) :
    (10 : ℚ) ^ ((digitCount num : ℤ) - digitCount den - 1) ≤ num / den := by
  have hden' : (0 : ℚ) < den := by exact_mod_cast hden
  have hlow : ((10 : ℚ) ^ (digitCount num - 1)) ≤ num := by
    exact_mod_cast pow_le_of_digitCount hnum
  have hhigh : (den : ℚ) ≤ 10 ^ digitCount den := by
    exact_mod_cast (lt_pow_digitCount den).le
  have hpos : 0 < digitCount num := Nat.length_toDigits_pos
  rw [le_div_iff₀ hden']
  calc (10 : ℚ) ^ ((digitCount num : ℤ) - digitCount den - 1) * den
      ≤ 10 ^ ((digitCount num : ℤ) - digitCount den - 1) * 10 ^ digitCount den := by gcongr
    _ = 10 ^ (digitCount num - 1) := by
      rw [← zpow_natCast, ← zpow_natCast, ← zpow_add₀ (by norm_num)]
      congr 1
      omega
    _ ≤ num := hlow

/-- The logarithm is no more than that of the quotient. -/
lemma pow_decimalLog_le {num den : ℕ} (hnum : 0 < num) (hden : 0 < den) :
    (10 : ℚ) ^ decimalLog num den ≤ num / den := by
  unfold decimalLog
  simp only [Nat.pow_eq]
  have hbelow := pow_digitCount_le_div hnum hden
  generalize (digitCount num : ℤ) - digitCount den = k at *
  by_cases h : if 0 ≤ k then den * 10 ^ k.toNat ≤ num else den ≤ num * 10 ^ (-k).toNat
  · rw [if_pos h]
    exact pow_le_div_of_reached hden h
  · rw [if_neg h]
    exact hbelow

lemma holds_of_onGrid {r : Rounding} {k : ℤ} {d : ℕ} (h : r.onGrid k = some d) :
    r.holds (d * 10 ^ k.toNat) (10 ^ (-k).toNat) = true := by
  unfold Rounding.onGrid at h
  simp only [Nat.pow_eq] at h
  generalize r.value * 10 ^ (-k).toNat / (r.den * 10 ^ k.toNat) = below at h
  split_ifs at h with hboth hnear hfar hbelow habove
  all_goals obtain rfl := Option.some.inj h
  · exact ((Bool.and_eq_true _ _).mp hboth).1
  · exact ((Bool.and_eq_true _ _).mp hboth).2
  · rcases Nat.mod_two_eq_zero_or_one below with heven | hodd
    · rw [heven]
      exact ((Bool.and_eq_true _ _).mp hboth).1
    · rw [hodd]
      exact ((Bool.and_eq_true _ _).mp hboth).2
  · exact hbelow
  · exact habove

lemma rounds_of_onGrid (hm : 0 < m) {k : ℤ} {d : ℕ} (h : (Rounding.of m e).onGrid k = some d) :
    Rounds m e (d * 10 ^ k) := by
  have hrounds := (holds_of_iff hm (by positivity)).mp (holds_of_onGrid h)
  rw [zpow_eq_div (by norm_num : (10 : ℚ) ≠ 0), ← mul_div_assoc]
  exact_mod_cast hrounds

/-- On a grid that is fine enough the neighbour below rounds to the double. -/
lemma rounds_floor (hm : m < 2 ^ 53) {k : ℤ} (hk : (10 : ℚ) ^ k * 10 ^ 17 ≤ m * 2 ^ e) {q : ℕ}
    (hlow : q * (10 : ℚ) ^ k ≤ m * 2 ^ e) (hhigh : (m : ℚ) * 2 ^ e < (q + 1) * 10 ^ k) :
    q ≠ 0 ∧ Rounds m e (q * 10 ^ k) := by
  have hm : (m : ℚ) < 2 ^ 53 := by exact_mod_cast hm
  have hten : (0 : ℚ) < 10 ^ k := by positivity
  have htwo : (0 : ℚ) < 2 ^ e := by positivity
  constructor
  · rintro rfl
    rw [Nat.cast_zero, zero_add, one_mul] at hhigh
    nlinarith
  · refine .of_lt (lower_le_quarter.trans_lt ?_) ?_
    · nlinarith
    · unfold upper
      nlinarith

lemma rounds_shortest (hm : 0 < m) (hm' : m < 2 ^ 53) (tries : ℕ) (k : ℤ)
    (hk : (10 : ℚ) ^ (k - tries) * 10 ^ 17 ≤ m * 2 ^ e) :
    ((Rounding.of m e).shortest tries k).digits ≠ 0 ∧
      Rounds m e ((Rounding.of m e).shortest tries k).value := by
  induction tries generalizing k with
  | zero =>
    have hk : (10 : ℚ) ^ k * 10 ^ 17 ≤ m * 2 ^ e := by simpa using hk
    have hten : (0 : ℚ) < 10 ^ k := by positivity
    have hquot : (((Rounding.of m e).value * 10 ^ (-k).toNat : ℕ) : ℚ) /
        ((Rounding.of m e).den * 10 ^ k.toNat : ℕ) = m * 2 ^ e / 10 ^ k := by
      have hden := den_of_pos (m := m) (e := e)
      rw [← value_of, zpow_eq_div (by norm_num : (10 : ℚ) ≠ 0)]
      push_cast
      field_simp
    have hpos : (0 : ℚ) ≤ m * 2 ^ e / 10 ^ k := by positivity
    have hlow := Nat.floor_le hpos
    have hhigh := Nat.lt_floor_add_one ((m : ℚ) * 2 ^ e / 10 ^ k)
    rw [le_div_iff₀ hten] at hlow
    rw [div_lt_iff₀ hten] at hhigh
    rw [← hquot, Nat.floor_div_eq_div] at hlow hhigh
    exact rounds_floor hm' hk hlow hhigh
  | succ n ih =>
    have hnext := ih (k - 1) (by rwa [sub_sub, add_comm, ← Nat.cast_succ])
    rw [Rounding.shortest]
    rcases hd : (Rounding.of m e).onGrid k with _ | d
    · exact hnext
    · dsimp only
      split_ifs with hzero
      · exact hnext
      · exact ⟨hzero, rounds_of_onGrid hm hd⟩

/-- **The shortest decimal of a double rounds to it.** -/
theorem rounds_shortestDecimal (hm : 0 < m) (hm' : m < 2 ^ 53) :
    (shortestDecimal m e).digits ≠ 0 ∧ Rounds m e (shortestDecimal m e).value := by
  refine rounds_shortest hm hm' 18 _ ?_
  have hvalue : 0 < (Rounding.of m e).value := by
    simp [Rounding.of, hm]
  have hden : 0 < (Rounding.of m e).den := by exact_mod_cast den_of_pos (m := m) (e := e)
  have hlog := pow_decimalLog_le hvalue hden
  rw [value_of] at hlog
  refine le_trans (le_of_eq ?_) hlog
  rw [← zpow_natCast, ← zpow_add₀ (by norm_num)]
  congr 1
  push_cast
  ring

end

end Number

/-! ### Rounding a quotient -/

namespace Double

variable {num den : ℕ}

/-- The natural is nearest to the number; halfway between two, the even one is. -/
structure Nearest (n : ℕ) (x : ℚ) : Prop where
  low : (n : ℚ) - 1 / 2 ≤ x
  high : x ≤ n + 1 / 2
  atLow : x = n - 1 / 2 → n % 2 = 0
  atHigh : x = n + 1 / 2 → n % 2 = 0

lemma nearest_natCast (n : ℕ) : Nearest n n where
  low := by linarith
  high := by linarith
  atLow h := by linarith
  atHigh h := by linarith

lemma Nearest.mono {m n : ℕ} {x y : ℚ} (hm : Nearest m x) (hn : Nearest n y) (h : x ≤ y) :
    m ≤ n := by
  by_contra! hlt
  have hle : (n : ℚ) + 1 ≤ m := by exact_mod_cast hlt
  have hlow := hm.low
  have hhigh := hn.high
  -- both are halfway between the two
  have hx : x = m - 1 / 2 := by linarith
  have hy : y = n + 1 / 2 := by linarith
  have hnext : m = n + 1 := by
    have heq : (m : ℚ) = n + 1 := by linarith
    exact_mod_cast heq
  have hmeven := hm.atLow hx
  have hneven := hn.atHigh hy
  omega

lemma nearest_roundDiv (num : ℕ) {den : ℕ} (hden : 0 < den) :
    Nearest (roundDiv num den) (num / den) := by
  have hden' : (0 : ℚ) < den := by exact_mod_cast hden
  have hsplit : (num : ℚ) = den * (num / den : ℕ) + (num % den : ℕ) := by
    exact_mod_cast (Nat.div_add_mod num den).symm
  have hrest : ((num % den : ℕ) : ℚ) < den := by exact_mod_cast Nat.mod_lt num hden
  have hquotient : (num : ℚ) / den = (num / den : ℕ) + (num % den : ℕ) / den := by
    rw [div_eq_iff hden'.ne', add_mul, div_mul_cancel₀ _ hden'.ne']
    linarith
  have hnonneg : (0 : ℚ) ≤ ((num % den : ℕ) : ℚ) / den := by positivity
  have hone : ((num % den : ℕ) : ℚ) / den < 1 := (div_lt_one hden').mpr hrest
  have hhalf : ((num % den : ℕ) : ℚ) / den < 1 / 2 ↔ 2 * (num % den) < den := by
    rw [div_lt_div_iff₀ hden' two_pos, one_mul, mul_comm]
    exact_mod_cast Iff.rfl
  have hhalf' : 1 / 2 < ((num % den : ℕ) : ℚ) / den ↔ den < 2 * (num % den) := by
    rw [div_lt_div_iff₀ two_pos hden', one_mul, mul_comm 2]
    exact_mod_cast Iff.rfl
  rw [hquotient]
  unfold roundDiv
  dsimp only
  generalize num / den = q at *
  generalize ((num % den : ℕ) : ℚ) / den = f at *
  split_ifs with hless hmore
  · have hf := hhalf.mpr hless
    exact ⟨by linarith, by linarith, fun h => by linarith, fun h => by linarith⟩
  · have hf := hhalf'.mpr hmore
    exact ⟨by push_cast; linarith, by push_cast; linarith, fun h => by push_cast at h; linarith,
      fun h => by push_cast at h; linarith⟩
  · have hf : f = 1 / 2 :=
      le_antisymm (not_lt.mp (hhalf'.not.mpr hmore)) (not_lt.mp (hhalf.not.mpr hless))
    rcases Nat.mod_two_eq_zero_or_one q with heven | hodd
    · rw [heven, Nat.add_zero]
      exact ⟨by linarith, by linarith, fun _ => heven, fun _ => heven⟩
    · rw [hodd]
      have hnext : (q + 1) % 2 = 0 := by omega
      exact ⟨by push_cast; linarith, by push_cast; linarith, fun _ => hnext, fun _ => hnext⟩

/-- A quotient that a natural is nearest to is rounded to it. -/
lemma roundDiv_eq (hden : 0 < den) {n : ℕ} (h : Nearest n (num / den)) : roundDiv num den = n :=
  le_antisymm ((nearest_roundDiv num hden).mono h le_rfl)
    (h.mono (nearest_roundDiv num hden) le_rfl)

lemma log_eq {x : ℚ} (hx : 0 < x) {t : ℤ} (hlow : (2 : ℚ) ^ t ≤ x) (hhigh : x < 2 ^ (t + 1)) :
    Int.log 2 x = t := by
  have hle := (Int.zpow_le_iff_le_log (b := 2) (by decide) hx).mp (by exact_mod_cast hlow)
  have hlt := (Int.lt_zpow_iff_log_lt (b := 2) (by decide) hx).mp (by exact_mod_cast hhigh)
  omega

/-- A natural lies between the powers of two that its binary length says. -/
lemma two_zpow_log2_le {n : ℕ} (hn : 0 < n) :
    (2 : ℚ) ^ (n.log2 : ℤ) ≤ n ∧ (n : ℚ) < 2 ^ ((n.log2 : ℤ) + 1) := by
  exact_mod_cast And.intro (Nat.log2_self_le hn.ne') (Nat.lt_log2_self (n := n))

/-- And so does a quotient, within twice as much. -/
lemma two_zpow_le_div (hnum : 0 < num) (hden : 0 < den) :
    (2 : ℚ) ^ ((num.log2 : ℤ) - den.log2 - 1) ≤ num / den ∧
      (num : ℚ) / den < 2 ^ ((num.log2 : ℤ) - den.log2 + 1) := by
  have hden' : (0 : ℚ) < den := by exact_mod_cast hden
  have hn := two_zpow_log2_le hnum
  have hd := two_zpow_log2_le hden
  constructor
  · rw [le_div_iff₀ hden']
    calc (2 : ℚ) ^ ((num.log2 : ℤ) - den.log2 - 1) * den
        ≤ 2 ^ ((num.log2 : ℤ) - den.log2 - 1) * 2 ^ ((den.log2 : ℤ) + 1) := by
          gcongr
          exact hd.2.le
      _ = 2 ^ (num.log2 : ℤ) := by
        rw [← zpow_add₀ two_ne_zero]
        congr 1
        omega
      _ ≤ num := hn.1
  · rw [div_lt_iff₀ hden']
    calc (num : ℚ) < 2 ^ ((num.log2 : ℤ) + 1) := hn.2
      _ = 2 ^ ((num.log2 : ℤ) - den.log2 + 1) * 2 ^ (den.log2 : ℤ) := by
        rw [← zpow_add₀ two_ne_zero]
        congr 1
        omega
      _ ≤ 2 ^ ((num.log2 : ℤ) - den.log2 + 1) * den := by
        gcongr
        exact hd.1

/-- How a quotient is compared with a power of two in naturals. -/
lemma short_iff_lt (hden : 0 < den) (l : ℤ) :
    (if 0 ≤ l - 52 then num < den * 2 ^ (52 + (l - 52).toNat)
      else num * 2 ^ (-(l - 52)).toNat < den * 2 ^ 52) ↔ (num : ℚ) / den < 2 ^ l := by
  have hden' : (0 : ℚ) < den := by exact_mod_cast hden
  have hpow : (2 : ℚ) ^ l = 2 ^ 52 * (2 ^ (l - 52).toNat / 2 ^ (-(l - 52)).toNat) := by
    rw [← zpow_eq_div two_ne_zero, ← zpow_natCast, ← zpow_add₀ two_ne_zero]
    congr 1
    push_cast
    ring
  rw [hpow, div_lt_iff₀ hden']
  split_ifs with hpos
  · have hzero : (-(l - 52)).toNat = 0 := by omega
    rw [hzero, pow_zero, div_one, ← pow_add, mul_comm]
    exact_mod_cast Iff.rfl
  · have hzero : (l - 52).toNat = 0 := by omega
    rw [hzero, pow_zero, mul_one_div, div_mul_eq_mul_div, lt_div_iff₀ (by positivity),
      mul_comm (2 ^ 52 : ℚ)]
    exact_mod_cast Iff.rfl

/-- The exponent is the one at which the quotient has 53 binary digits, or the least one. -/
lemma exponentFor_eq (hnum : 0 < num) (hden : 0 < den) :
    exponentFor num den = max (-1074) (Int.log 2 ((num : ℚ) / den) - 52) := by
  have hx : (0 : ℚ) < num / den := by positivity
  obtain ⟨hbelow, habove⟩ := two_zpow_le_div hnum hden
  have hshort := @short_iff_lt num den hden ((num.log2 : ℤ) - den.log2)
  unfold exponentFor
  generalize (num.log2 : ℤ) - den.log2 = l at *
  simp only [Nat.pow_eq]
  congr 1
  by_cases h : (num : ℚ) / den < 2 ^ l
  · rw [if_pos (hshort.mpr h), log_eq hx hbelow (by simpa using h)]
    ring
  · rw [if_neg (hshort.not.mpr h), log_eq hx (not_lt.mp h) habove]

lemma ofRatio_eq (hnum : 0 < num) (negative : Bool) {e : ℤ} (he : exponentFor num den = e)
    {n : ℕ} (hn : roundDiv (num * 2 ^ (-e).toNat) (den * 2 ^ e.toNat) = n) :
    ofRatio negative num den =
      if n = 2 ^ 53 then ofFields negative (2 ^ 52) (e + 1) else ofFields negative n e := by
  have hround : (if 0 ≤ e then roundDiv num (den * 2 ^ e.toNat)
      else roundDiv (num * 2 ^ (-e).toNat) den) = n := by
    rw [← hn]
    split_ifs with hpos
    · have hzero : (-e).toNat = 0 := by omega
      rw [hzero, pow_zero, mul_one]
    · have hzero : e.toNat = 0 := by omega
      rw [hzero, pow_zero, mul_one]
  unfold ofRatio
  simp only [Nat.pow_eq, he, hround]
  rw [if_neg hnum.ne']

lemma ofFields_eq {m : ℕ} {e : ℤ} (h : Canonical m e) (negative : Bool) :
    ofFields negative m e = .finite negative m e h := dif_pos h

/-- The quotient in units of a power of two. -/
lemma scaled_div (e : ℤ) : ((num * 2 ^ (-e).toNat : ℕ) : ℚ) / ((den * 2 ^ e.toNat : ℕ) : ℚ) =
    (num : ℚ) / den / 2 ^ e := by
  rw [zpow_eq_div two_ne_zero]
  push_cast
  field_simp

section

variable {m : ℕ} {e : ℤ} (h : Canonical m e) (hnum : 0 < num) (hden : 0 < den)

/-! A quotient that rounds to a double is cut at the exponent of the double. -/

include hden in
lemma roundDiv_of_rounds (hx : Rounds m e (num / den)) :
    roundDiv (num * 2 ^ (-e).toNat) (den * 2 ^ e.toNat) = m := by
  have hulp : (0 : ℚ) < 2 ^ e := by positivity
  have hhigh := hx.high
  unfold upper at hhigh
  refine roundDiv_eq (by positivity) ⟨?_, ?_, ?_, ?_⟩ <;> rw [scaled_div]
  · rw [le_div_iff₀ hulp]
    exact half_le_lower.trans hx.low
  · rwa [div_le_iff₀ hulp]
  · intro heq
    rw [div_eq_iff hulp.ne'] at heq
    exact hx.atLow (le_antisymm (heq.trans_le half_le_lower) hx.low)
  · intro heq
    rw [div_eq_iff hulp.ne'] at heq
    exact hx.atHigh heq

include h hnum hden in
lemma exponentFor_of_le (hx : Rounds m e (num / den))
    (hbig : 2 ^ (52 + e) ≤ (num : ℚ) / den ∨ e = -1074) : exponentFor num den = e := by
  obtain ⟨hfine, hleast, -⟩ := h
  have hpos : (0 : ℚ) < num / den := by positivity
  have hlt : (num : ℚ) / den < 2 ^ (53 + e) := by
    have hm : (m : ℚ) + 1 ≤ 2 ^ 53 := by exact_mod_cast hfine
    have hulp : (0 : ℚ) < 2 ^ e := by positivity
    calc (num : ℚ) / den ≤ (m + 1 / 2) * 2 ^ e := hx.high
      _ < 2 ^ 53 * 2 ^ e := by
        gcongr
        linarith
      _ = 2 ^ (53 + e) := by rw [zpow_add₀ two_ne_zero]; rfl
  have hlog := (Int.lt_zpow_iff_log_lt (b := 2) (by decide) hpos).mp (by exact_mod_cast hlt)
  rw [exponentFor_eq hnum hden]
  rcases hbig with hle | rfl
  · have hlog' := (Int.zpow_le_iff_le_log (b := 2) (by decide) hpos).mp (by exact_mod_cast hle)
    omega
  · omega

/-! Below the least significand of that exponent, the quotient is cut one place further down, and
rounds up to the next power of two there. -/

include h in
lemma eq_least_of_lt {x : ℚ} (hx : Rounds m e x) (hsmall : x < 2 ^ (52 + e)) (he : e ≠ -1074) :
    m = 2 ^ 52 ∧ ((2 : ℚ) ^ 52 - 1 / 4) * 2 ^ e ≤ x := by
  obtain ⟨-, hleast, -, hnormal⟩ := h
  have hulp : (0 : ℚ) < 2 ^ e := by positivity
  have hmin : m = 2 ^ 52 := by
    have hge := hnormal.resolve_right he
    have hlt : ((m : ℚ) - 1 / 2) * 2 ^ e < 2 ^ 52 * 2 ^ e := by
      refine (half_le_lower.trans hx.low).trans_lt ?_
      rwa [zpow_add₀ two_ne_zero] at hsmall
    have hlt : (m : ℚ) < 2 ^ 52 + 1 := by linarith [lt_of_mul_lt_mul_right hlt hulp.le]
    have hlt : m < 2 ^ 52 + 1 := by exact_mod_cast hlt
    rw [Nat.pow_eq] at hge
    omega
  have hlow := hx.low
  rw [lower, if_pos ⟨hmin, by omega⟩, hmin] at hlow
  exact ⟨hmin, by exact_mod_cast hlow⟩

include hnum hden in
lemma exponentFor_of_lt (hlow : ((2 : ℚ) ^ 52 - 1 / 4) * 2 ^ e ≤ num / den)
    (hsmall : (num : ℚ) / den < 2 ^ (52 + e)) (he : -1074 < e) : exponentFor num den = e - 1 := by
  have hpos : (0 : ℚ) < num / den := by positivity
  have hulp : (0 : ℚ) < 2 ^ e := by positivity
  have hge : (2 : ℚ) ^ (51 + e) ≤ num / den := by
    rw [zpow_add₀ two_ne_zero]
    norm_num at hlow ⊢
    nlinarith
  rw [exponentFor_eq hnum hden, log_eq hpos hge]
  · omega
  · rwa [show 51 + e + 1 = 52 + e by ring]

include hden in
lemma roundDiv_of_lt (hlow : ((2 : ℚ) ^ 52 - 1 / 4) * 2 ^ e ≤ num / den)
    (hsmall : (num : ℚ) / den < 2 ^ (52 + e)) :
    roundDiv (num * 2 ^ (-(e - 1)).toNat) (den * 2 ^ (e - 1).toNat) = 2 ^ 53 := by
  have hulp : (2 : ℚ) ^ e = 2 * 2 ^ (e - 1) := by
    rw [← zpow_one_add₀ two_ne_zero]
    congr 1
    ring
  have hpred : (0 : ℚ) < 2 ^ (e - 1) := by positivity
  rw [hulp] at hlow
  rw [zpow_add₀ two_ne_zero, hulp] at hsmall
  refine roundDiv_eq (by positivity) ⟨?_, ?_, fun _ => by norm_num, fun _ => by norm_num⟩ <;>
    rw [scaled_div]
  · rw [le_div_iff₀ hpred]
    norm_num at hlow ⊢
    linarith
  · rw [div_le_iff₀ hpred]
    norm_num at hsmall ⊢
    linarith

include hnum hden in
/-- A quotient that rounds to a double is rounded to it. -/
lemma ofRatio_of_rounds (hx : Rounds m e (num / den)) (negative : Bool) :
    ofRatio negative num den = .finite negative m e h := by
  by_cases hbig : 2 ^ (52 + e) ≤ (num : ℚ) / den ∨ e = -1074
  · have hfine : m < 2 ^ 53 := h.1
    rw [ofRatio_eq hnum negative (exponentFor_of_le h hnum hden hx hbig)
      (roundDiv_of_rounds hden hx), if_neg hfine.ne, ofFields_eq h]
  · obtain ⟨hsmall, hne⟩ := not_or.mp hbig
    have hsmall := not_le.mp hsmall
    obtain ⟨hmin, hlow⟩ := eq_least_of_lt h hx hsmall hne
    have hlt : -1074 < e := lt_of_le_of_ne h.2.1 (Ne.symm hne)
    subst hmin
    rw [ofRatio_eq hnum negative (exponentFor_of_lt hnum hden hlow hsmall hlt)
      (roundDiv_of_lt hden hlow hsmall), if_pos rfl, ofFields_eq (by rwa [sub_add_cancel])]
    congr 1
    ring

end

end Double

namespace Number

open Double

lemma two_pow_lt : (2 : ℚ) ^ 1075 < 10 ^ 400 :=
  calc (2 : ℚ) ^ 1075 ≤ 2 ^ (13 * 83) := by gcongr <;> norm_num
    _ = (2 ^ 13) ^ 83 := pow_mul _ _ _
    _ ≤ (10 ^ 4) ^ 83 := by
      gcongr
      norm_num
    _ = 10 ^ (4 * 83) := (pow_mul _ _ _).symm
    _ < 10 ^ 400 := by gcongr <;> norm_num

/-- What rounds to a double has a magnitude for which the power of ten is computed. -/
lemma upper_lt {m : ℕ} {e : ℤ} (h : Canonical m e) : upper m e < 10 ^ (400 : ℤ) := by
  obtain ⟨hfine, -, hmost, -⟩ := h
  have hm : (m : ℚ) + 1 ≤ 2 ^ 53 := by exact_mod_cast hfine
  have hulp : (0 : ℚ) < 2 ^ e := by positivity
  calc upper m e ≤ 2 ^ 53 * 2 ^ e := by
        unfold upper
        gcongr
        linarith
    _ = 2 ^ (53 + e) := by rw [zpow_add₀ two_ne_zero]; rfl
    _ ≤ 2 ^ ((1075 : ℕ) : ℤ) := by
      gcongr
      · norm_num
      · push_cast
        omega
    _ < 10 ^ ((400 : ℕ) : ℤ) := by
      rw [zpow_natCast, zpow_natCast]
      exact two_pow_lt

lemma lt_lower {m : ℕ} {e : ℤ} (h : Canonical m e) (hm : 0 < m) :
    (10 : ℚ) ^ (-400 : ℤ) < lower m e := by
  obtain ⟨-, hleast, -, -⟩ := h
  have hm : (1 : ℚ) ≤ m := by exact_mod_cast hm
  have hulp : (0 : ℚ) < 2 ^ e := by positivity
  calc (10 : ℚ) ^ (-((400 : ℕ) : ℤ)) < 2 ^ (-((1075 : ℕ) : ℤ)) := by
        rw [zpow_neg, zpow_neg, zpow_natCast, zpow_natCast]
        exact inv_strictAnti₀ (by positivity) two_pow_lt
    _ = 1 / 2 * 2 ^ (-1074 : ℤ) := by
      rw [one_div, ← zpow_neg_one, ← zpow_add₀ two_ne_zero]
      rfl
    _ ≤ (m - 1 / 2) * 2 ^ e := by
      gcongr
      · linarith
      · linarith
      · norm_num
    _ ≤ lower m e := half_le_lower

/-- A decimal of such a magnitude is not too large for its power of ten to be computed. -/
lemma digitCount_add_le {d : ℕ} (hd : 0 < d) {k : ℤ} (h : (d : ℚ) * 10 ^ k < 10 ^ (400 : ℤ)) :
    (digitCount d : ℤ) + k ≤ 400 := by
  have hcount : 0 < digitCount d := Nat.length_toDigits_pos
  have hlow : ((10 : ℚ) ^ (digitCount d - 1)) ≤ d := by exact_mod_cast pow_le_of_digitCount hd
  have hlt : (10 : ℚ) ^ ((digitCount d : ℤ) - 1 + k) < 10 ^ (400 : ℤ) :=
    calc (10 : ℚ) ^ ((digitCount d : ℤ) - 1 + k) = 10 ^ (digitCount d - 1) * 10 ^ k := by
          rw [← zpow_natCast, ← zpow_add₀ (by norm_num)]
          congr 1
          omega
      _ ≤ d * 10 ^ k := by gcongr
      _ < 10 ^ (400 : ℤ) := h
  have hexponent := (zpow_lt_zpow_iff_right₀ (by norm_num : (1 : ℚ) < 10)).mp hlt
  omega

/-- Nor is it too small. -/
lemma le_digitCount_add {d : ℕ} {k : ℤ} (h : (10 : ℚ) ^ (-400 : ℤ) < d * 10 ^ k) :
    -400 ≤ (digitCount d : ℤ) + k := by
  have hhigh : (d : ℚ) < 10 ^ digitCount d := by exact_mod_cast lt_pow_digitCount d
  have hlt : (10 : ℚ) ^ (-400 : ℤ) < 10 ^ ((digitCount d : ℤ) + k) :=
    calc (10 : ℚ) ^ (-400 : ℤ) < d * 10 ^ k := h
      _ ≤ 10 ^ digitCount d * 10 ^ k := by gcongr
      _ = 10 ^ ((digitCount d : ℤ) + k) := by rw [← zpow_natCast, ← zpow_add₀ (by norm_num)]
  have hexponent := (zpow_lt_zpow_iff_right₀ (by norm_num : (1 : ℚ) < 10)).mp hlt
  omega

/-- **A decimal that rounds to a double is read as it.** -/
theorem ofDecimal_of_rounds {m : ℕ} {e : ℤ} (h : Canonical m e) (hm : 0 < m) {d : ℕ} {k : ℤ}
    (hd : d ≠ 0) (hx : Rounds m e (d * 10 ^ k)) (negative : Bool) :
    ofDecimal negative d k = .finite negative m e h := by
  have hpos : 0 < d := Nat.pos_of_ne_zero hd
  have hmost := digitCount_add_le hpos (hx.high.trans_lt (upper_lt h))
  have hleast := le_digitCount_add ((lt_lower h hm).trans_le hx.low)
  unfold ofDecimal
  simp only [Nat.pow_eq]
  rw [if_neg hd, if_neg (by omega), if_neg (by omega)]
  rw [zpow_eq_div (by norm_num : (10 : ℚ) ≠ 0)] at hx
  split_ifs with hk
  · have hzero : (-k).toNat = 0 := by omega
    rw [hzero, pow_zero, div_one] at hx
    exact ofRatio_of_rounds h (by positivity) one_pos (by simpa using hx) negative
  · have hzero : k.toNat = 0 := by omega
    rw [hzero, pow_zero, mul_one_div] at hx
    exact ofRatio_of_rounds h hpos (by positivity) (by exact_mod_cast hx) negative

end Number

end Stencil
