import Stencil.Proofs.Number.Order

/-!
Integers among the doubles.

An integer has a double of its own (`IsExact`) up to 2 ^ 53 on either side of zero, and further out
only now and then. The double nearest to an integer is always whole (`exists_eqInt_ofInt`), and in
the order of the integers; so two integers have the same one or are told apart as they are
(`lt_ofInt_iff`). What is beyond the doubles has an infinity instead.
-/

namespace Stencil

namespace Double

variable {x : Double} {n k v w : ℤ}

/-- Some double is the integer, without rounding. -/
def IsExact (n : ℤ) : Prop := ∃ x : Double, x.eqInt n = true

lemma eqInt_iff : x.eqInt n = true ↔ x.place? = some (.at (n * unitsInOne)) := beq_iff_eq

lemma eqInt_nan : nan.eqInt n = false := rfl

lemma eqInt_infinite (s : Bool) : (infinite s).eqInt n = false := by
  cases s <;> rfl

lemma place?_ofInt (n : ℤ) : (ofInt n).place? = some (.ofUnits (roundedInt n 1)) :=
  place?_ofRatio_int n one_pos

lemma Place.ofUnits_of_lt {u : ℤ} (h : u.natAbs < limitUnits) : Place.ofUnits u = .at u := by
  rw [Place.ofUnits, if_neg (by omega), if_neg (by omega)]

lemma unitsInOne_eq : unitsInOne = 2 ^ 1074 := by
  unfold unitsInOne
  generalize 1074 = k
  exact Nat.pow_eq

/-! ### Up to 2 ^ 53 -/

lemma roundDiv_one (n : ℕ) : roundDiv n 1 = n := by
  simp [roundDiv, Nat.mod_one]

lemma log_natCast_lt {n : ℕ} {t : ℤ} (hn : 0 < n) (h : (n : ℚ) < 2 ^ t) :
    Int.log 2 (n : ℚ) < t :=
  (Int.lt_zpow_iff_log_lt (b := 2) (by decide) (by exact_mod_cast hn)).mp (by exact_mod_cast h)

/-- At an exponent that is not positive, nothing is cut off. -/
lemma roundedUnits_of_exponent {n : ℕ} {e : ℤ} (he : exponentFor n 1 = e) (hneg : e ≤ 0)
    (hleast : -1074 ≤ e) : roundedUnits n 1 = n * unitsInOne := by
  have hzero : e.toNat = 0 := by omega
  have hsum : (-e).toNat + (e + 1074).toNat = 1074 := by omega
  unfold roundedUnits
  simp only [he]
  rw [hzero, pow_zero, mul_one, roundDiv_one, mul_assoc, ← pow_add, hsum, unitsInOne_eq]

lemma roundedUnits_of_le {n : ℕ} (hpos : 0 < n) (h : n ≤ 2 ^ 53) :
    roundedUnits n 1 = n * unitsInOne := by
  rcases h.lt_or_eq with hlt | rfl
  · have hlog : Int.log 2 (n : ℚ) < 53 := log_natCast_lt hpos (by exact_mod_cast hlt)
    have he := exponentFor_eq hpos one_pos
    rw [Nat.cast_one, div_one] at he
    exact roundedUnits_of_exponent he (by omega) (by omega)
  · decide +kernel

lemma roundedInt_of_le (h : n.natAbs ≤ 2 ^ 53) : roundedInt n 1 = n * unitsInOne := by
  unfold roundedInt
  split_ifs with hneg hzero
  · rw [roundedUnits_of_le (by omega) h]
    push_cast
    rw [abs_of_neg hneg]
    ring
  · rw [hzero, zero_mul]
  · rw [roundedUnits_of_le (by omega) h]
    push_cast
    rw [abs_of_pos (by omega)]

lemma mul_unitsInOne_lt_limitUnits {n : ℕ} (h : n ≤ 2 ^ 53) : n * unitsInOne < limitUnits := by
  unfold limitUnits
  rw [unitsInOne_eq]
  calc n * 2 ^ 1074 ≤ 2 ^ 53 * 2 ^ 1074 := by gcongr
    _ < 2 ^ 53 * 2 ^ 2045 := by
      gcongr
      · norm_num
      · norm_num

lemma place?_ofInt_of_le (h : n.natAbs ≤ 2 ^ 53) :
    (ofInt n).place? = some (.at (n * unitsInOne)) := by
  have hlt : (n * unitsInOne).natAbs < limitUnits := by
    rw [Int.natAbs_mul, Int.natAbs_natCast]
    exact mul_unitsInOne_lt_limitUnits h
  rw [place?_ofInt, roundedInt_of_le h, Place.ofUnits_of_lt hlt]

/-- Integers up to 2 ^ 53 are doubles. -/
lemma isExact_of_le (h : n.natAbs ≤ 2 ^ 53) : IsExact n :=
  ⟨ofInt n, eqInt_iff.mpr (place?_ofInt_of_le h)⟩

/-! ### Doubles that are integers -/

/-- What a finite double says of an integer. -/
lemma eqInt_finite_iff {s : Bool} {m : ℕ} {e : ℤ} {h : Canonical m e} :
    (finite s m e h).eqInt k = true ↔
      (if s then -((m * 2 ^ (e + 1074).toNat : ℕ) : ℤ) else (m * 2 ^ (e + 1074).toNat : ℕ)) =
        k * unitsInOne := by
  rw [eqInt_iff, place?, Option.some_inj, Place.at.injEq]
  rfl

/-- The whole number that a significand and an exponent stand for, if it is one. -/
lemma mul_two_pow_eq_iff {m i : ℕ} {e : ℤ} (hleast : -1074 ≤ e) :
    m * 2 ^ (e + 1074).toNat = i * unitsInOne ↔
      m * 2 ^ e.toNat = i * 2 ^ (-e).toNat := by
  have hpos : 0 < 2 ^ (1074 - (-e).toNat) := by positivity
  have hleft : (e + 1074).toNat = e.toNat + (1074 - (-e).toNat) := by omega
  have hright : 1074 = (-e).toNat + (1074 - (-e).toNat) := by omega
  have hunits : unitsInOne = 2 ^ (-e).toNat * 2 ^ (1074 - (-e).toNat) := by
    rw [← pow_add, ← hright, unitsInOne_eq]
  rw [hunits, hleft, pow_add, ← mul_assoc, ← mul_assoc]
  exact Nat.mul_left_inj hpos.ne'

lemma natCast_eq_mul_iff {u t : ℕ} (ht : 0 < t) :
    (u : ℤ) = k * t ↔ ∃ i : ℕ, u = i * t ∧ (i : ℤ) = k := by
  constructor
  · intro h
    have hk : 0 ≤ k := nonneg_of_mul_nonneg_left (h ▸ Int.natCast_nonneg u) (by exact_mod_cast ht)
    obtain ⟨i, rfl⟩ := Int.eq_ofNat_of_zero_le hk
    exact ⟨i, by exact_mod_cast h, rfl⟩
  · rintro ⟨i, rfl, rfl⟩
    push_cast
    rfl

/-- The whole number that the conversion finds: a multiple, or a quotient without a rest. -/
lemma whole_eq_some_iff {m i : ℕ} {e : ℤ} (hleast : -1074 ≤ e) :
    (if 0 ≤ e then some (m * 2 ^ e.toNat)
      else if m % 2 ^ (-e).toNat = 0 then some (m / 2 ^ (-e).toNat) else none) = some i ↔
        m * 2 ^ (e + 1074).toNat = i * unitsInOne := by
  rw [mul_two_pow_eq_iff hleast]
  split_ifs with hpos hdvd
  · have hzero : (-e).toNat = 0 := by omega
    rw [hzero, pow_zero, mul_one, Option.some_inj]
  · have hzero : e.toNat = 0 := by omega
    rw [hzero, pow_zero, mul_one, Option.some_inj,
      Nat.div_eq_iff_eq_mul_left (by positivity) (Nat.dvd_of_mod_eq_zero hdvd)]
  · have hzero : e.toNat = 0 := by omega
    rw [hzero, pow_zero, mul_one]
    refine ⟨nofun, fun heq => absurd ?_ hdvd⟩
    rw [heq, Nat.mul_mod_left]

/-- A double is the integer that it is turned into, and no other. -/
lemma toInt?_eq_some_iff : x.toInt? = some k ↔ x.eqInt k = true := by
  cases x with
  | nan => exact ⟨nofun, nofun⟩
  | infinite s => exact ⟨nofun, fun h => nomatch (eqInt_infinite s).symm.trans h⟩
  | finite s m e h =>
    rw [eqInt_finite_iff]
    unfold toInt?
    simp only [Nat.pow_eq, Option.map_eq_some_iff, Option.bind_eq_bind, Option.bind_eq_some_iff,
      Option.pure_def, Option.some_inj, whole_eq_some_iff h.2.1,
      ← natCast_eq_mul_iff unitsInOne_pos]
    generalize m * 2 ^ (e + 1074).toNat = u
    generalize unitsInOne = t
    cases s with
    | false => simp
    | true =>
      simp only [if_true]
      constructor
      · rintro ⟨i, hi, rfl⟩
        rw [hi, neg_mul]
      · intro hu
        exact ⟨-k, by rw [neg_mul, ← hu, neg_neg], neg_neg k⟩

lemma rounds_self (m : ℕ) (e : ℤ) : Rounds m e (m * 2 ^ e) := by
  have hulp : (0 : ℚ) < 2 ^ e := by positivity
  refine .of_lt (lower_le_quarter.trans_lt ?_) ?_
  · gcongr
    linarith
  · unfold upper
    gcongr
    linarith

/-- A multiple with a sign is the integer's, if the integer has one. -/
lemma magnitude_of_signed {s : Bool} {u t : ℕ} (ht : 0 < t) (hn : n ≠ 0)
    (h : (if s then -(u : ℤ) else u) = n * t) : u = n.natAbs * t ∧ s = decide (n < 0) := by
  have ht' : (0 : ℤ) < t := by exact_mod_cast ht
  have hu : (0 : ℤ) ≤ u := Int.natCast_nonneg u
  constructor
  · have habs := congrArg Int.natAbs h
    rw [Int.natAbs_mul, Int.natAbs_natCast] at habs
    rw [← habs]
    cases s <;> simp
  · cases s with
    | false =>
      have hpos : 0 ≤ n := nonneg_of_mul_nonneg_left (hu.trans_eq h) ht'
      exact (decide_eq_false hpos.not_gt).symm
    | true =>
      have hneg : n ≤ 0 := nonpos_of_mul_nonpos_left (h.ge.trans (neg_nonpos.mpr hu)) ht'
      exact (decide_eq_true (lt_of_le_of_ne hneg hn)).symm

/-- An integer that is a double is not rounded. -/
lemma eqInt_ofInt_iff : (ofInt n).eqInt n = true ↔ IsExact n := by
  refine ⟨fun h => ⟨_, h⟩, fun ⟨x, hx⟩ => ?_⟩
  rcases eq_or_ne n 0 with rfl | hn
  · exact eqInt_iff.mpr (place?_ofInt_of_le (Nat.zero_le _))
  cases x with
  | nan => exact nomatch eqInt_nan.symm.trans hx
  | infinite s => exact nomatch (eqInt_infinite s).symm.trans hx
  | finite s m e h =>
    obtain ⟨hmagnitude, hsign⟩ := magnitude_of_signed unitsInOne_pos hn (eqInt_finite_iff.mp hx)
    have hvalue : (n.natAbs : ℚ) / (1 : ℕ) = m * 2 ^ e := by
      have hwhole := (mul_two_pow_eq_iff h.2.1).mp hmagnitude
      rw [zpow_eq_div two_ne_zero, Nat.cast_one, div_one, ← mul_div_assoc,
        eq_div_iff (by positivity)]
      exact_mod_cast hwhole.symm
    have hrounded := ofRatio_of_rounds h (Int.natAbs_pos.mpr hn) one_pos
      (hvalue ▸ rounds_self m e) (n < 0)
    rw [ofInt, hrounded, ← hsign]
    exact hx

/-- What is cut off makes up whole ones. -/
lemma dvd_roundedUnits {n : ℕ} (hpos : 0 < n) : unitsInOne ∣ roundedUnits n 1 := by
  rcases Nat.lt_or_ge (2 ^ 53) n with hlt | hle
  · -- from 2 ^ 53 on, the last bit that is kept stands for one at least
    have hlog : 53 ≤ Int.log 2 (n : ℚ) :=
      (Int.zpow_le_iff_le_log (b := 2) (by decide) (by exact_mod_cast hpos)).mp
        (by exact_mod_cast hlt.le)
    have he := exponentFor_eq hpos one_pos
    rw [Nat.cast_one, div_one] at he
    have hsum : (exponentFor n 1 + 1074).toNat = 1074 + (exponentFor n 1).toNat := by omega
    unfold roundedUnits
    dsimp only
    rw [hsum, pow_add, unitsInOne_eq]
    exact (Dvd.intro _ rfl).mul_left _
  · rw [roundedUnits_of_le hpos hle]
    exact Dvd.intro_left _ rfl

/-- The double nearest to an integer is whole, if it is finite. -/
lemma exists_eqInt_ofInt (h : ofInt? n ≠ none) : ∃ k, (ofInt n).eqInt k = true := by
  have hdvd : (unitsInOne : ℤ) ∣ roundedInt n 1 := by
    rcases eq_or_ne n 0 with rfl | hn
    · exact dvd_zero _
    · rw [← Int.dvd_natAbs, natAbs_roundedInt hn]
      exact Int.natCast_dvd_natCast.mpr (dvd_roundedUnits (Int.natAbs_pos.mpr hn))
  obtain ⟨k, hk⟩ := hdvd
  have hlt : (roundedInt n 1).natAbs < limitUnits :=
    not_le.mp ((ofInt?_eq_none_iff_units n).not.mp h)
  refine ⟨k, ?_⟩
  rw [eqInt_iff, place?_ofInt, Place.ofUnits_of_lt hlt, hk, mul_comm]

/-! ### The order of integers -/

lemma le_ofInt (h : v ≤ w) : le (ofInt v) (ofInt w) = true := by
  unfold le lt eq
  rw [place?_ofInt, place?_ofInt]
  simpa using Place.ofUnits_mono (roundedInt_mono h one_pos)

lemma not_le_of_lt {x y : Double} (h : lt x y = true) : le y x = false := by
  unfold le lt eq at *
  generalize x.place? = p, y.place? = q at *
  rcases p with _ | _ | _ | _ <;> rcases q with _ | _ | _ | _ <;> simp_all [Place.lt]
  omega

lemma eq_comm (x y : Double) : eq x y = eq y x := by
  unfold eq
  rcases x.place? with _ | p <;> rcases y.place? with _ | q <;> simp [Bool.beq_comm]

/-- The nearest doubles are in the order of the integers, unless they are the same. -/
lemma lt_ofInt_iff :
    lt (ofInt v) (ofInt w) = true ↔ v < w ∧ eq (ofInt v) (ofInt w) = false := by
  constructor
  · intro h
    have hnot := not_le_of_lt h
    refine ⟨lt_of_not_ge fun hle => ?_, ?_⟩
    · rw [le_ofInt hle] at hnot
      cases hnot
    · rw [le, Bool.or_eq_false_iff] at hnot
      rw [eq_comm, hnot.2]
  · rintro ⟨hlt, hne⟩
    have hle := le_ofInt hlt.le
    rwa [le, hne, Bool.or_false] at hle

lemma lt_of_le_of_lt {x y z : Double} (hxy : le x y = true) (hyz : lt y z = true) :
    lt x z = true := by
  unfold le lt eq at *
  generalize x.place? = p, y.place? = q, z.place? = r at *
  rcases p with _ | p <;> rcases q with _ | q <;> rcases r with _ | r <;> simp at *
  rcases hxy with hpq | rfl
  · exact Place.lt_trans hpq hyz
  · exact hyz

lemma lt_ofInt_add_one (h : n.natAbs ≤ 2 ^ 53) (h' : (n + 1).natAbs ≤ 2 ^ 53) :
    lt (ofInt n) (ofInt (n + 1)) = true := by
  have hpos : (0 : ℤ) < unitsInOne := by exact_mod_cast unitsInOne_pos
  unfold lt
  rw [place?_ofInt_of_le h, place?_ofInt_of_le h']
  simp only [Place.lt, decide_eq_true_eq]
  linarith

/-- Below 2 ^ 53, every integer is told apart from its neighbours. -/
lemma lt_ofInt_of_lt (h : v < w) (hsmall : v.natAbs < 2 ^ 53 ∨ w.natAbs < 2 ^ 53) :
    lt (ofInt v) (ofInt w) = true := by
  rcases hsmall with hv | hw
  · exact lt_of_lt_of_le (lt_ofInt_add_one hv.le (by omega)) (le_ofInt (by omega))
  · have hlast := lt_ofInt_add_one (n := w - 1) (by omega) (by simpa using hw.le)
    rw [sub_add_cancel] at hlast
    exact lt_of_le_of_lt (le_ofInt (by omega)) hlast

lemma eq_ofInt_self (n : ℤ) : eq (ofInt n) (ofInt n) = true := by
  unfold eq
  rw [place?_ofInt]
  exact beq_self_eq_true _

/-- So it has a nearest double of its own. -/
lemma eq_ofInt_iff (hsmall : v.natAbs < 2 ^ 53 ∨ w.natAbs < 2 ^ 53) :
    eq (ofInt v) (ofInt w) = true ↔ v = w := by
  refine ⟨fun heq => ?_, fun h => h ▸ eq_ofInt_self v⟩
  by_contra hne
  rcases lt_or_gt_of_ne hne with hlt | hgt
  · rw [(lt_ofInt_iff.mp (lt_ofInt_of_lt hlt hsmall)).2] at heq
    cases heq
  · rw [eq_comm, (lt_ofInt_iff.mp (lt_ofInt_of_lt hgt hsmall.symm)).2] at heq
    cases heq

/-! ### Integers beyond the doubles -/

lemma ofInt?_of_lt (h : n.natAbs < limitInt) : ofInt? n = some (ofInt n) := by
  have hsome : ofInt? n ≠ none := (ofInt?_eq_none_iff n).not.mpr (not_le.mpr h)
  unfold ofInt? at *
  generalize ofInt n = x at *
  cases x with
  | finite => rfl
  | _ => exact absurd rfl hsome

lemma finite_or_infinite_of_ofFields (s : Bool) (m : ℕ) (e : ℤ) :
    (∃ h, ofFields s m e = finite s m e h) ∨ ofFields s m e = infinite s := by
  unfold ofFields
  split_ifs with h
  · exact .inl ⟨h, rfl⟩
  · exact .inr rfl

lemma limitInt_le_pow {k : ℕ} (hk : 400 ≤ k) : limitInt ≤ 10 ^ k := by
  have hpow (i j : ℕ) (hj : j ≤ 3 * k) : 2 ^ j - 2 ^ i ≤ 10 ^ k :=
    calc 2 ^ j - 2 ^ i ≤ 2 ^ j := Nat.sub_le ..
      _ ≤ 2 ^ (3 * k) := Nat.pow_le_pow_right two_pos hj
      _ = 8 ^ k := Nat.pow_mul 2 3 k
      _ ≤ 10 ^ k := Nat.pow_le_pow_left (by decide) k
  exact hpow 970 1024 (by omega)

/-- What is too far out is an infinity of its sign. -/
lemma ofInt_of_ofInt?_eq_none (h : ofInt? n = none) : ofInt n = infinite (n < 0) := by
  have hfields (m : ℕ) (e : ℤ) (hn : ofInt n = ofFields (n < 0) m e) :
      ofInt n = infinite (n < 0) := by
    rcases finite_or_infinite_of_ofFields (n < 0) m e with ⟨hc, hfinite⟩ | hinfinite
    · rw [ofInt?, hn, hfinite] at h
      cases h
    · exact hn.trans hinfinite
  rcases eq_or_ne n 0 with rfl | hne
  · cases h
  · have hzero : n.natAbs ≠ 0 := by omega
    unfold ofInt ofRatio at hfields ⊢
    simp only [if_neg hzero] at hfields ⊢
    split_ifs at hfields ⊢ <;> exact hfields _ _ rfl

lemma not_isExact_of_le (h : limitInt ≤ n.natAbs) : ¬ IsExact n := by
  rw [← eqInt_ofInt_iff, ofInt_of_ofInt?_eq_none ((ofInt?_eq_none_iff n).mpr h), eqInt_infinite]
  exact Bool.false_ne_true

end Double

end Stencil
