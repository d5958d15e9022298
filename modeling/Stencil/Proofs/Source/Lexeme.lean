import Mathlib.Tactic.Common
import Stencil.Source.Lexeme

/-!
Single tokens and what stands behind them: where a run of characters, a name, a path or an
argument ends depends on a character or two behind it only, so that it is read alike before other
texts that end it, and with any text behind where a closing bracket is still ahead.
-/

namespace Stencil.Source

open Text (isDigit)

variable {w x y y' : List Char} {p : Char → Bool}

/-! ### Runs of characters -/

/-- A run of such characters ends here: none comes next. -/
def Ends (p : Char → Bool) (cs : List Char) : Prop := ∀ c ∈ cs.head?, p c = false

lemma ends_nil : Ends p [] := by simp [Ends]

lemma ends_cons {c : Char} {cs : List Char} : Ends p (c :: cs) ↔ p c = false := by simp [Ends]

lemma takeWhile_eq_nil_iff {cs : List Char} : cs.takeWhile p = [] ↔ Ends p cs := by
  cases cs with
  | nil => simp [Ends]
  | cons c cs => rw [ends_cons, List.takeWhile_cons]; cases p c <;> simp

lemma ends_dropWhile (p : Char → Bool) (cs : List Char) : Ends p (cs.dropWhile p) := by
  induction cs with
  | nil => exact ends_nil
  | cons c cs ih =>
    rw [List.dropWhile_cons]
    split
    · exact ih
    · rename_i hc
      exact ends_cons.mpr (by simpa using hc)

lemma takeWhile_append_eq_iff :
    (w ++ y).takeWhile p = w ↔ (∀ c ∈ w, p c = true) ∧ Ends p y := by
  constructor
  · intro h
    have hw : ∀ c ∈ w, p c = true := by
      rw [← h]
      exact List.all_eq_true.mp List.all_takeWhile
    rw [List.takeWhile_append_of_pos hw] at h
    exact ⟨hw, takeWhile_eq_nil_iff.mp (List.append_cancel_left (h.trans (List.append_nil w).symm))⟩
  · rintro ⟨hw, hy⟩
    rw [List.takeWhile_append_of_pos hw, takeWhile_eq_nil_iff.mpr hy, List.append_nil]

/-- Behind characters of its own a run goes on up to where it ended. -/
lemma Ends.append (h : Ends p (x ++ y)) (hy : Ends p y → Ends p y') : Ends p (x ++ y') := by
  cases x with
  | nil => exact hy h
  | cons c x => exact ends_cons.mpr (ends_cons.mp h)

/-! ### Paths of variables -/

/-- A further key is a dot, a character of names, and all characters of keys that follow. -/
lemma key?_eq_some_iff {cs : List Char} : key? cs = some w ↔ ∃ c ks r,
    cs = '.' :: c :: (ks ++ r) ∧ w = '.' :: c :: ks ∧ isNamePart c = true ∧
      (∀ d ∈ ks, isKeyPart d = true) ∧ Ends isKeyPart r := by
  constructor
  · intro h
    unfold key? at h
    split at h
    · rename_i c cs
      split at h
      · rename_i hc
        obtain rfl := Option.some.inj h
        refine ⟨c, cs.takeWhile isKeyPart, cs.dropWhile isKeyPart, ?_, rfl, hc, ?_, ?_⟩
        · rw [List.takeWhile_append_dropWhile]
        · exact List.all_eq_true.mp List.all_takeWhile
        · exact ends_dropWhile _ _
      · cases h
    · cases h
  · rintro ⟨c, ks, r, rfl, rfl, hc, hks, hr⟩
    rw [key?, if_pos hc, takeWhile_append_eq_iff.mpr ⟨hks, hr⟩]

lemma key?_swap (h : key? (w ++ x) = some w) (hx : Ends isKeyPart x → Ends isKeyPart y) :
    key? (w ++ y) = some w := by
  obtain ⟨c, ks, r, hcs, rfl, hc, hks, hr⟩ := key?_eq_some_iff.mp h
  obtain rfl : x = r := by simpa using hcs
  exact key?_eq_some_iff.mpr ⟨c, ks, y, by simp, rfl, hc, hks, hx hr⟩

lemma isDigit_bracket : isDigit ']' = false := by decide

/-- An index is digits in brackets. -/
lemma index?_eq_some_iff {cs : List Char} : index? cs = some w ↔ ∃ ds r,
    cs = '[' :: (ds ++ ']' :: r) ∧ w = '[' :: (ds ++ [']']) ∧ ds ≠ [] ∧
      ∀ d ∈ ds, isDigit d = true := by
  constructor
  · intro h
    unfold index? at h
    split at h
    · rename_i cs
      dsimp only at h
      split at h
      · rename_i r hr
        split at h
        · cases h
        · rename_i hne
          obtain rfl := Option.some.inj h
          refine ⟨cs.takeWhile isDigit, r, ?_, rfl, by simpa using hne, ?_⟩
          · rw [← hr, List.takeWhile_append_dropWhile]
          · exact List.all_eq_true.mp List.all_takeWhile
      · cases h
    · cases h
  · rintro ⟨ds, r, rfl, rfl, hne, hds⟩
    have hend : Ends isDigit (']' :: r) := ends_cons.mpr isDigit_bracket
    have htake : (ds ++ ']' :: r).takeWhile isDigit = ds := takeWhile_append_eq_iff.mpr ⟨hds, hend⟩
    have hdrop : (ds ++ ']' :: r).dropWhile isDigit = ']' :: r := by
      rw [List.dropWhile_append_of_pos hds, List.dropWhile_cons_of_neg (by simp [isDigit_bracket])]
    rw [index?]
    simp only [htake, hdrop]
    rw [if_neg (by simpa using hne)]
    rfl

lemma index?_swap (h : index? (w ++ x) = some w) (y : List Char) : index? (w ++ y) = some w := by
  obtain ⟨ds, r, -, rfl, hne, hds⟩ := index?_eq_some_iff.mp h
  exact index?_eq_some_iff.mpr ⟨ds, y, by simp, rfl, hne, hds⟩

lemma key?_eq_none_of_index? {cs : List Char} (h : index? cs = some w) : key? cs = none := by
  obtain ⟨ds, r, rfl, -⟩ := index?_eq_some_iff.mp h
  rfl

/-- The rest of a path is read alike before texts that do not continue it. -/
lemma pathTail_swap (hkeys : Ends isKeyPart y → Ends isKeyPart y') (hkey : key? y' = none)
    (hindex : index? y' = none) {n m : Nat} (h : pathTail n (x ++ y) = x) (hm : x.length ≤ m) :
    pathTail m (x ++ y') = x := by
  have nil (m : Nat) : pathTail m y' = [] := by
    cases m with
    | zero => rfl
    | succ m => rw [pathTail, hkey, hindex]
  induction n generalizing x m with
  | zero =>
    obtain rfl : [] = x := h
    exact nil m
  | succ n ih =>
    -- a key or an index in front, and the rest behind it
    have part {w : List Char} (hw : 0 < w.length)
        (hx : w ++ pathTail n ((x ++ y).drop w.length) = x)
        (hfront : ∀ x' m, x = w ++ x' → pathTail (m + 1) (x ++ y') = w ++ pathTail m (x' ++ y')) :
        pathTail m (x ++ y') = x := by
      obtain ⟨x', hx'⟩ : ∃ x', x' = pathTail n ((x ++ y).drop w.length) := ⟨_, rfl⟩
      rw [← hx'] at hx
      have htail : pathTail n (x' ++ y) = x' := by
        rw [← hx, List.append_assoc, List.drop_left] at hx'
        exact hx'.symm
      have hlength := congrArg List.length hx
      rw [List.length_append] at hlength
      obtain ⟨m, rfl⟩ : ∃ k, m = k + 1 := ⟨m - 1, by omega⟩
      rw [hfront x' m hx.symm, ih htail (by omega), hx]
    rw [pathTail] at h
    rcases hk : key? (x ++ y) with _ | w
    · rcases hi : index? (x ++ y) with _ | w <;> simp only [hk, hi] at h
      · obtain rfl : [] = x := h
        exact nil m
      · have hw : 0 < w.length := by
          obtain ⟨ds, r, -, rfl, -⟩ := index?_eq_some_iff.mp hi
          simp
        refine part hw h fun x' m hx => ?_
        have hi' : index? (x ++ y') = some w := by
          rw [hx, List.append_assoc] at hi ⊢
          exact index?_swap hi _
        rw [pathTail, key?_eq_none_of_index? hi', hi', hx, List.append_assoc]
        dsimp only
        rw [List.drop_left]
    · simp only [hk] at h
      have hw : 0 < w.length := by
        obtain ⟨c, ks, r, -, rfl, -⟩ := key?_eq_some_iff.mp hk
        simp
      refine part hw h fun x' m hx => ?_
      have hk' : key? (x ++ y') = some w := by
        rw [hx, List.append_assoc] at hk ⊢
        exact key?_swap hk fun he => he.append hkeys
      rw [pathTail, hk', hx, List.append_assoc]
      dsimp only
      rw [List.drop_left]

/-- No key and no index follows a path. -/
lemma pathTail_maximal {n : Nat} (h : pathTail n (x ++ y) = x) (hn : (x ++ y).length ≤ n) :
    key? y = none ∧ index? y = none := by
  induction n generalizing x with
  | zero =>
    obtain ⟨rfl, rfl⟩ : x = [] ∧ y = [] := by simpa using hn
    exact ⟨rfl, rfl⟩
  | succ n ih =>
    have part {w : List Char} (hw : 0 < w.length)
        (hx : w ++ pathTail n ((x ++ y).drop w.length) = x) : key? y = none ∧ index? y = none := by
      obtain ⟨x', hx'⟩ : ∃ x', x' = pathTail n ((x ++ y).drop w.length) := ⟨_, rfl⟩
      rw [← hx'] at hx
      rw [← hx, List.append_assoc, List.drop_left] at hx'
      refine ih hx'.symm ?_
      have := congrArg List.length hx
      simp only [List.length_append] at this hn ⊢
      omega
    rw [pathTail] at h
    rcases hk : key? (x ++ y) with _ | w
    · rcases hi : index? (x ++ y) with _ | w <;> simp only [hk, hi] at h
      · obtain rfl : [] = x := h
        exact ⟨hk, hi⟩
      · obtain ⟨ds, r, -, rfl, -⟩ := index?_eq_some_iff.mp hi
        exact part (by simp) h
    · simp only [hk] at h
      obtain ⟨c, ks, r, -, rfl, -⟩ := key?_eq_some_iff.mp hk
      exact part (by simp) h

/-- A path is a first key and what follows it. -/
lemma exists_of_identifier? (h : identifier? (x ++ y) = some x) : ∃ c ks t, x = c :: (ks ++ t) ∧
    (isNameStart c || c == '@') = true ∧ (∀ d ∈ ks, isKeyPart d = true) ∧
    Ends isKeyPart (t ++ y) ∧ pathTail (ks ++ (t ++ y)).length (t ++ y) = t := by
  rcases x with _ | ⟨c, x⟩
  · unfold identifier? at h
    split at h
    · split at h <;> simp at h
    · cases h
  rw [List.cons_append, identifier?] at h
  split at h
  · rename_i hc
    obtain ⟨ks, hks⟩ : ∃ ks, ks = (x ++ y).takeWhile isKeyPart := ⟨_, rfl⟩
    obtain ⟨t, ht⟩ : ∃ t, t = pathTail (x ++ y).length ((x ++ y).drop ks.length) := ⟨_, rfl⟩
    have hx : ks ++ t = x := by
      rw [ht, hks]
      exact (List.cons.inj (Option.some.inj h)).2
    have hends : (∀ d ∈ ks, isKeyPart d = true) ∧ Ends isKeyPart (t ++ y) := by
      rw [← takeWhile_append_eq_iff, ← List.append_assoc, hx, hks]
    refine ⟨c, ks, t, by rw [hx], hc, hends.1, hends.2, ?_⟩
    rw [← hx, List.append_assoc, List.drop_left] at ht
    exact ht.symm
  · cases h

/-- A path is read alike before texts that do not continue it. -/
lemma identifier?_swap (h : identifier? (x ++ y) = some x)
    (hkeys : Ends isKeyPart y → Ends isKeyPart y') (hkey : key? y' = none)
    (hindex : index? y' = none) : identifier? (x ++ y') = some x := by
  obtain ⟨c, ks, t, rfl, hc, hks, hends, htail⟩ := exists_of_identifier? h
  have htail' : pathTail (ks ++ (t ++ y')).length (t ++ y') = t :=
    pathTail_swap hkeys hkey hindex htail (by simp; omega)
  rw [List.cons_append, identifier?, if_pos hc, List.append_assoc]
  dsimp only
  rw [takeWhile_append_eq_iff.mpr ⟨hks, hends.append hkeys⟩, List.length_cons,
    Nat.add_sub_cancel, List.drop_left, htail', List.cons_append]

lemma identifier?_maximal (h : identifier? (x ++ y) = some x) :
    key? y = none ∧ index? y = none := by
  obtain ⟨c, ks, t, rfl, -, -, -, htail⟩ := exists_of_identifier? h
  exact pathTail_maximal htail (by simp)

/-! ### Operators -/

lemma operator?_append {ch : Char} {cs : List Char} (hch : isNameStart ch = true)
    (hcs : ∀ d ∈ cs, isNamePart d = true) (hy : Ends isNamePart y) :
    operator? ('#' :: ch :: (cs ++ y)) = some ('#' :: ch :: cs) := by
  rw [operator?, if_pos hch, takeWhile_append_eq_iff.mpr ⟨hcs, hy⟩]

/-! ### Names of operators -/

/-- A letter or an underscore, then letters, digits and underscores. -/
def IsWord (s : String) : Prop :=
  ∃ c cs, s.toList = c :: cs ∧ isNameStart c = true ∧ ∀ d ∈ cs, isNamePart d = true

lemma lt_of_isNamePart {c : Char} (h : isNamePart c = true) : c.toNat < 128 := by
  have hc : (((decide ('A'.val ≤ c.val ∧ c.val ≤ 'Z'.val) ||
      (decide ('a'.val ≤ c.val) && decide (c.val ≤ 'z'.val))) ||
      (decide ('0'.val ≤ c.val) && decide (c.val ≤ '9'.val))) || c == '_') = true := h
  simp only [Bool.or_eq_true, Bool.and_eq_true, decide_eq_true_eq, beq_iff_eq,
    UInt32.le_iff_toNat_le] at hc
  rcases hc with ((⟨-, h⟩ | ⟨-, h⟩) | ⟨-, h⟩) | rfl
  · exact Nat.lt_of_le_of_lt h (by decide)
  · exact Nat.lt_of_le_of_lt h (by decide)
  · exact Nat.lt_of_le_of_lt h (by decide)
  · decide

lemma isNamePart_of_isNameStart {c : Char} (h : isNameStart c = true) : isNamePart c = true := by
  simp only [isNameStart, isNamePart, Char.isAlphanum, Bool.or_eq_true] at *
  exact h.imp_left .inl

/-- What holds of all ASCII characters in names holds of all characters in names. -/
lemma forall_isNamePart {P : Char → Prop}
    (h : ∀ n < 128, isNamePart (Char.ofNat n) = true → P (Char.ofNat n)) {c : Char}
    (hc : isNamePart c = true) : P c := by
  have := h c.toNat (lt_of_isNamePart hc)
  rw [Char.ofNat_toNat] at this
  exact this hc

lemma isNamePart_toLower {c : Char} (h : isNamePart c = true) : isNamePart c.toLower = true :=
  forall_isNamePart (P := fun c => isNamePart c.toLower = true) (by decide) h

lemma isNameStart_toLower {c : Char} (h : isNameStart c = true) : isNameStart c.toLower = true :=
  forall_isNamePart (P := fun c => isNameStart c = true → isNameStart c.toLower = true)
    (by decide) (isNamePart_of_isNameStart h) h

lemma toLower_toLower {c : Char} (h : isNamePart c = true) : c.toLower.toLower = c.toLower :=
  forall_isNamePart (P := fun c => c.toLower.toLower = c.toLower) (by decide) h

lemma toList_toLower (s : String) : s.toLower.toList = s.toList.map Char.toLower :=
  String.toList_map

lemma toLower_eq_self_iff {s : String} : s.toLower = s ↔ ∀ c ∈ s.toList, c.toLower = c := by
  rw [← String.toList_inj, toList_toLower]
  constructor
  · exact fun h => List.map_inj_left.mp (h.trans (List.map_id _).symm)
  · exact fun h => (List.map_congr_left h).trans (List.map_id _)

lemma IsWord.toLower {s : String} (h : IsWord s) : IsWord s.toLower := by
  obtain ⟨c, cs, hs, hc, hcs⟩ := h
  refine ⟨c.toLower, cs.map Char.toLower, ?_, isNameStart_toLower hc, ?_⟩
  · rw [toList_toLower, hs, List.map_cons]
  · intro d hd
    obtain ⟨a, ha, rfl⟩ := List.mem_map.mp hd
    exact isNamePart_toLower (hcs a ha)

lemma IsWord.toLower_toLower {s : String} (h : IsWord s) : s.toLower.toLower = s.toLower := by
  obtain ⟨c, cs, hs, hc, hcs⟩ := h
  have hall : ∀ d ∈ s.toList, isNamePart d = true := by
    rw [hs]
    exact List.forall_mem_cons.mpr ⟨isNamePart_of_isNameStart hc, hcs⟩
  rw [toLower_eq_self_iff, toList_toLower]
  intro d hd
  obtain ⟨a, ha, rfl⟩ := List.mem_map.mp hd
  exact Source.toLower_toLower (hall a ha)

lemma isWord_of_operator? {cs : List Char} (h : operator? cs = some w) :
    IsWord (String.ofList (w.drop 1)) := by
  unfold operator? at h
  split at h
  · rename_i d cs
    split at h
    · rename_i hd
      obtain rfl := Option.some.inj h
      exact ⟨d, cs.takeWhile isNamePart, String.toList_ofList, hd,
        List.all_eq_true.mp List.all_takeWhile⟩
    · cases h
  · cases h

/-! ### More text behind -/

/-- A bracket that is part of no run, number or word. -/
def isStop (c : Char) : Bool := c == ']' || c == '\x7d'

/-- Such a bracket is ahead. -/
def Stopped (cs : List Char) : Prop := ∃ c ∈ cs, isStop c = true

/-- The characters of a run are no stops. -/
def Runs (p : Char → Bool) : Prop := ∀ c, isStop c = true → p c = false

lemma runs_of (hsquare : p ']' = false) (hcurly : p '\x7d' = false) : Runs p := by
  intro c hc
  rcases (by simpa [isStop] using hc : c = ']' ∨ c = '\x7d') with rfl | rfl
  · exact hsquare
  · exact hcurly

lemma runs_isDigit : Runs isDigit := runs_of (by decide) (by decide)
lemma runs_isNameStart : Runs isNameStart := runs_of (by decide) (by decide)
lemma runs_isNamePart : Runs isNamePart := runs_of (by decide) (by decide)
lemma runs_isPathPart : Runs isPathPart := runs_of (by decide) (by decide)

namespace Stopped

lemma of_cons {c : Char} {cs : List Char} (h : Stopped (c :: cs)) (hc : isStop c = false) :
    Stopped cs := by
  obtain ⟨d, hd, hs⟩ := h
  rcases List.mem_cons.mp hd with rfl | hd
  · simp [hc] at hs
  · exact ⟨d, hd, hs⟩

lemma ne_nil {cs : List Char} (h : Stopped cs) : cs ≠ [] := by
  obtain ⟨c, hc, -⟩ := h
  exact List.ne_nil_of_mem hc

lemma dropWhile {cs : List Char} (h : Stopped cs) (hp : Runs p) : Stopped (cs.dropWhile p) := by
  obtain ⟨c, hc, hs⟩ := h
  refine ⟨c, ?_, hs⟩
  rw [← List.takeWhile_append_dropWhile (p := p) (l := cs), List.mem_append] at hc
  rcases hc with hc | hc
  · have := List.all_eq_true.mp List.all_takeWhile c hc
    simp [hp c hs] at this
  · exact hc

lemma takeWhile_append {cs : List Char} (h : Stopped cs) (hp : Runs p) (z : List Char) :
    (cs ++ z).takeWhile p = cs.takeWhile p := by
  have hne := (h.dropWhile hp).ne_nil
  have hlength := congrArg List.length (List.takeWhile_append_dropWhile (p := p) (l := cs))
  rw [List.length_append] at hlength
  have := List.length_pos_iff.mpr hne
  rw [List.takeWhile_append, if_neg (by omega)]

lemma dropWhile_append {cs : List Char} (h : Stopped cs) (hp : Runs p) (z : List Char) :
    (cs ++ z).dropWhile p = cs.dropWhile p ++ z := by
  rw [List.dropWhile_append, if_neg (by simpa using (h.dropWhile hp).ne_nil)]

end Stopped

lemma nameFollows_append (h : x ≠ []) (z : List Char) : nameFollows (x ++ z) = nameFollows x := by
  cases x with
  | nil => exact absurd rfl h
  | cons c x => rfl

lemma fractionDigits_append (h : Stopped x) (z : List Char) :
    fractionDigits (x ++ z) = fractionDigits x := by
  cases x with
  | nil => exact absurd rfl h.ne_nil
  | cons c x =>
    by_cases hc : c = '.'
    · subst hc
      exact (h.of_cons (by decide)).takeWhile_append runs_isDigit z
    · simp [fractionDigits, hc]

/-- Something stands behind the digits of a fraction. -/
lemma drop_fractionDigits_ne_nil (h : Stopped x) (hf : (fractionDigits x).isEmpty = false) :
    x.drop ((fractionDigits x).length + 1) ≠ [] ∧ (fractionDigits x).length + 1 ≤ x.length := by
  unfold fractionDigits at *
  split at hf
  · rename_i cs
    have hs := ((h.of_cons (by decide)).dropWhile runs_isDigit).ne_nil
    have hlength := congrArg List.length
      (List.takeWhile_append_dropWhile (p := isDigit) (l := cs))
    rw [List.length_append] at hlength
    have := List.length_pos_iff.mpr hs
    rw [← List.length_pos_iff, List.length_drop, List.length_cons]
    omega
  · simp at hf

lemma digitRun?_append (h : x ≠ []) (ds z : List Char) :
    digitRun? ds (x ++ z) = digitRun? ds x := by
  simp only [digitRun?, nameFollows_append h]

lemma unsignedNumber?_append (h : Stopped x) (z : List Char) :
    unsignedNumber? (x ++ z) = unsignedNumber? x := by
  have hr := h.dropWhile runs_isDigit
  unfold unsignedNumber?
  simp only [h.takeWhile_append runs_isDigit, h.dropWhile_append runs_isDigit,
    fractionDigits_append hr, digitRun?_append hr.ne_nil]
  split
  · rfl
  split
  · rfl
  · rename_i hf
    obtain ⟨hne, hle⟩ := drop_fractionDigits_ne_nil hr (by simpa using hf)
    rw [List.drop_append_of_le_length hle, digitRun?_append hne]

lemma number?_append (h : Stopped x) (z : List Char) : number? (x ++ z) = number? x := by
  cases x with
  | nil => exact absurd rfl h.ne_nil
  | cons c x =>
    by_cases hc : c = '-'
    · subst hc
      exact congrArg (Option.map ('-' :: ·)) (unsignedNumber?_append (h.of_cons (by decide)) z)
    · have hnum (cs : List Char) : number? (c :: cs) = unsignedNumber? (c :: cs) := by
        simp [number?, hc]
      rw [List.cons_append, hnum, hnum]
      exact unsignedNumber?_append h z

lemma pathWord?_append (h : Stopped x) (z : List Char) : pathWord? (x ++ z) = pathWord? x := by
  simp only [pathWord?, h.takeWhile_append runs_isPathPart]

lemma operator?_append_of_stopped (h : Stopped x) (z : List Char) :
    operator? (x ++ z) = operator? x := by
  unfold operator?
  match x, h with
  | [], h => exact absurd rfl h.ne_nil
  | [a], h =>
    by_cases ha : a = '#'
    · subst ha
      exact absurd rfl (h.of_cons (by decide)).ne_nil
    · simp [ha]
  | a :: b :: cs, h =>
    by_cases ha : a = '#'
    · subst ha
      simp only [List.cons_append]
      split
      · rename_i hb
        have hs : Stopped cs := (h.of_cons (by decide)).of_cons (by
          by_contra hstop
          simp [runs_isNameStart b (by simpa using hstop)] at hb)
        rw [hs.takeWhile_append runs_isNamePart]
      · rfl
    · simp [ha]

lemma key?_append (h : Stopped x) (hk : key? x = none) (z : List Char) : key? (x ++ z) = none := by
  match x, h with
  | [], h => exact absurd rfl h.ne_nil
  | [a], h =>
    by_cases ha : a = '.'
    · subst ha
      exact absurd rfl (h.of_cons (by decide)).ne_nil
    · simp [key?, ha]
  | a :: b :: cs, h =>
    by_cases ha : a = '.'
    · subst ha
      simpa [key?] using hk
    · simp [key?, ha]

lemma index?_append (h : Stopped x) (hi : index? x = none) (z : List Char) :
    index? (x ++ z) = none := by
  cases x with
  | nil => exact absurd rfl h.ne_nil
  | cons a x =>
    by_cases ha : a = '['
    · subst ha
      have hs := h.of_cons (by decide)
      obtain ⟨b, r, hb⟩ := List.exists_cons_of_ne_nil (hs.dropWhile runs_isDigit).ne_nil
      simp only [List.cons_append, index?, hs.takeWhile_append runs_isDigit,
        hs.dropWhile_append runs_isDigit, hb] at hi ⊢
      by_cases hb : b = ']'
      · subst hb
        exact hi
      · simp [hb]
    · simp [index?, ha]

/-- A path that a stop ends is the same with more text behind. -/
lemma identifier?_append (h : identifier? (x ++ y) = some x) (hy : Stopped y) (z : List Char) :
    identifier? (x ++ (y ++ z)) = some x := by
  obtain ⟨hkey, hindex⟩ := identifier?_maximal h
  refine identifier?_swap h (fun he => ?_) (key?_append hy hkey z) (index?_append hy hindex z)
  obtain ⟨c, r, rfl⟩ := List.exists_cons_of_ne_nil hy.ne_nil
  exact ends_cons.mpr (ends_cons.mp he)

lemma identifier?_append_of_none (h : identifier? x = none) (hx : x ≠ []) (z : List Char) :
    identifier? (x ++ z) = none := by
  cases x with
  | nil => exact absurd rfl hx
  | cons c x => simpa [identifier?] using h

/-! ### Literals and raw arguments -/

lemma literalTail_cons {quote c : Char} (hc : c ≠ '\\') (hq : c ≠ quote) (hn : c ≠ '\n')
    (cs : List Char) : literalTail quote (c :: cs) = ⟨c :: (literalTail quote cs).taken,
      c :: (literalTail quote cs).value, (literalTail quote cs).closed⟩ := by
  rw [literalTail]
  · rw [if_neg (by simpa using hq), if_neg (by simpa using hn)]
  · rintro d ds rfl
    exact absurd rfl hc

lemma literalTail_quote {quote : Char} (hq : quote ≠ '\\') (cs : List Char) :
    literalTail quote (quote :: cs) = ⟨[quote], [], true⟩ := by
  rw [literalTail]
  · rw [if_pos (by simp)]
  · rintro d ds rfl
    exact absurd rfl hq

/-- A literal that is closed is the same with more text behind. -/
lemma literalTail_append {quote : Char} (hq : quote ≠ '\\')
    (h : (literalTail quote x).closed = true) (z : List Char) :
    literalTail quote (x ++ z) = literalTail quote x := by
  induction x using literalTail.induct quote with
  | case1 => simp [literalTail] at h
  | case2 c cs ih => simp [literalTail, ih (by simpa [literalTail] using h)]
  | case3 c cs _ hc =>
    obtain rfl : c = quote := by simpa using hc
    rw [List.cons_append, literalTail_quote hq, literalTail_quote hq]
  | case4 c cs hesc hc hn =>
    obtain rfl : c = '\n' := by simpa using hn
    simp [literalTail, hc] at h
  | case5 c cs hesc hc hn ih =>
    have hne : c ≠ '\\' := by
      rintro rfl
      cases cs with
      | nil => simp [literalTail, hc] at h
      | cons d ds => exact hesc d ds rfl rfl
    have hcons := literalTail_cons hne (by simpa using hc) (by simpa using hn)
    rw [hcons] at h
    rw [List.cons_append, hcons, hcons, ih h]

lemma rawArgument_append {depth : Nat} (h : (rawArgument depth x).length < x.length)
    (z : List Char) : rawArgument depth (x ++ z) = rawArgument depth x := by
  induction x generalizing depth with
  | nil => simp at h
  | cons c x ih =>
    rw [List.cons_append, rawArgument.eq_def, rawArgument.eq_def depth (c :: x)]
    rw [rawArgument.eq_def] at h
    grind

/-! ### Fronts -/

/-- The front of a text and the front of what stands behind it are a front of the text. -/
lemma append_prefix_of_drop {cs : List Char} (hw : w <+: cs) (hx : x <+: cs.drop w.length) :
    w ++ x <+: cs := by
  obtain ⟨r, rfl⟩ := hw
  rw [List.drop_left] at hx
  rwa [List.prefix_append_right_inj]

lemma key?_isPrefix {cs : List Char} (h : key? cs = some w) : w <+: cs := by
  obtain ⟨c, ks, r, rfl, rfl, -⟩ := key?_eq_some_iff.mp h
  exact ⟨r, by simp⟩

lemma index?_isPrefix {cs : List Char} (h : index? cs = some w) : w <+: cs := by
  obtain ⟨ds, r, rfl, rfl, -⟩ := index?_eq_some_iff.mp h
  exact ⟨r, by simp⟩

lemma pathTail_isPrefix (n : Nat) (cs : List Char) : pathTail n cs <+: cs := by
  induction n generalizing cs with
  | zero => exact List.nil_prefix
  | succ n ih =>
    rw [pathTail]
    split
    · exact append_prefix_of_drop (key?_isPrefix (by assumption)) (ih _)
    split
    · exact append_prefix_of_drop (index?_isPrefix (by assumption)) (ih _)
    · exact List.nil_prefix

lemma identifier?_isPrefix {cs : List Char} (h : identifier? cs = some w) : w <+: cs := by
  unfold identifier? at h
  split at h
  · rename_i c cs
    split at h
    · obtain rfl := Option.some.inj h
      have hkey : cs.takeWhile isKeyPart <+: cs := List.takeWhile_prefix _
      refine List.cons_prefix_cons.mpr ⟨rfl, ?_⟩
      exact append_prefix_of_drop hkey (pathTail_isPrefix _ _)
    · cases h
  · cases h

lemma digitRun?_isPrefix {ds rest : List Char} (h : digitRun? ds rest = some w) : w <+: ds := by
  unfold digitRun? at h
  split at h
  · cases h
  split at h
  · obtain rfl := Option.some.inj h
    exact List.prefix_rfl
  split at h
  · obtain rfl := Option.some.inj h
    exact List.dropLast_prefix _
  · cases h

lemma fractionDigits_isPrefix {cs : List Char} (h : (fractionDigits cs).isEmpty = false) :
    '.' :: fractionDigits cs <+: cs := by
  unfold fractionDigits at *
  split at h
  · exact List.cons_prefix_cons.mpr ⟨rfl, List.takeWhile_prefix _⟩
  · simp at h

lemma unsignedNumber?_isPrefix {cs : List Char} (h : unsignedNumber? cs = some w) : w <+: cs := by
  have hwhole : cs.takeWhile isDigit <+: cs := List.takeWhile_prefix _
  unfold unsignedNumber? at h
  dsimp only at h
  split at h
  · cases h
  split at h
  · exact (digitRun?_isPrefix h).trans hwhole
  rename_i hf
  split at h
  · rename_i f hrun
    obtain rfl := Option.some.inj h
    have hfraction : '.' :: fractionDigits (cs.dropWhile isDigit) <+: cs.dropWhile isDigit :=
      fractionDigits_isPrefix (by simpa using hf)
    have : '.' :: f <+: cs.dropWhile isDigit :=
      (List.cons_prefix_cons.mpr ⟨rfl, digitRun?_isPrefix hrun⟩).trans hfraction
    obtain ⟨r, hr⟩ := this
    exact ⟨r, by rw [List.append_assoc, hr, List.takeWhile_append_dropWhile]⟩
  · obtain rfl := Option.some.inj h
    exact hwhole

lemma number?_isPrefix {cs : List Char} (h : number? cs = some w) : w <+: cs := by
  unfold number? at h
  split at h
  · obtain ⟨v, hv, rfl⟩ := Option.map_eq_some_iff.mp h
    exact List.cons_prefix_cons.mpr ⟨rfl, unsignedNumber?_isPrefix hv⟩
  · exact unsignedNumber?_isPrefix h

lemma pathWord?_isPrefix {cs : List Char} (h : pathWord? cs = some w) : w <+: cs := by
  unfold pathWord? at h
  dsimp only at h
  split at h
  · cases h
  · obtain rfl := Option.some.inj h
    exact List.takeWhile_prefix _

lemma operator?_isPrefix {cs : List Char} (h : operator? cs = some w) : w <+: cs := by
  unfold operator? at h
  split at h
  · split at h
    · obtain rfl := Option.some.inj h
      exact List.cons_prefix_cons.mpr ⟨rfl, List.cons_prefix_cons.mpr
        ⟨rfl, List.takeWhile_prefix _⟩⟩
    · cases h
  · cases h

lemma literalTail_isPrefix (quote : Char) (cs : List Char) :
    (literalTail quote cs).taken <+: cs := by
  have cons {c : Char} {w cs : List Char} (h : w <+: cs) : c :: w <+: c :: cs :=
    List.cons_prefix_cons.mpr ⟨rfl, h⟩
  induction cs using literalTail.induct quote with
  | case1 => exact List.nil_prefix
  | case2 c cs ih =>
    rw [literalTail]
    exact cons (cons ih)
  | case3 c cs hesc hc =>
    rw [literalTail, if_pos hc]
    · exact cons List.nil_prefix
    · exact hesc
  | case4 c cs hesc hc hn =>
    rw [literalTail, if_neg hc, if_pos hn]
    · exact List.nil_prefix
    · exact hesc
  | case5 c cs hesc hc hn ih =>
    rw [literalTail, if_neg hc, if_neg hn]
    · exact cons ih
    · exact hesc

lemma rawArgument_isPrefix (depth : Nat) (cs : List Char) : rawArgument depth cs <+: cs := by
  induction cs generalizing depth with
  | nil => exact List.prefix_rfl
  | cons c cs ih =>
    have taken (d : Nat) : c :: rawArgument d cs <+: c :: cs :=
      List.cons_prefix_cons.mpr ⟨rfl, ih d⟩
    rw [rawArgument.eq_def]
    dsimp only
    split
    · exact List.nil_prefix
    split
    · exact taken _
    split
    · split
      · exact List.nil_prefix
      · exact taken _
    · exact taken _

end Stencil.Source
