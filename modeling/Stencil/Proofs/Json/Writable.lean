import Stencil.Proofs.Json.Number
import Stencil.Proofs.Value.Written

/-!
What is read from JSON can be written as JSON.

An integer with too many digits is refused by the reader, and keys of an object are texts, so no
value that is read holds what the writer refuses (`isWritable_of_read`).
-/

namespace Stencil.Json

open Value

/-! ### Numbers -/

lemma allDigits_takeWhile (cs : List Char) : AllDigits (cs.takeWhile isAsciiDigit) :=
  fun _ hc => List.mem_takeWhile_imp hc

lemma digitsOf_lt {ds : List Char} (h : AllDigits ds) : digitsOf ds < 10 ^ ds.length := by
  induction ds using List.reverseRecOn with
  | nil => exact Nat.one_pos
  | append_singleton ds d ih =>
    have hds : digitsOf ds < 10 ^ ds.length := ih fun c hc => h c (by simp [hc])
    have hd : digitsOf [d] < 10 := by
      have hdigit := h d (by simp)
      simp only [isAsciiDigit, Bool.decide_and, Bool.and_eq_true, decide_eq_true_eq] at hdigit
      have hle : d.toNat ≤ 57 := hdigit.2
      show 10 * 0 + (d.toNat - 48) < 10
      omega
    have hsplit := digitsOf_append ds [d]
    rw [List.length_singleton, pow_one] at hsplit
    rw [hsplit, List.length_append, List.length_singleton, pow_succ]
    omega

lemma allDigits_wholeDigits (cs : List Char) : AllDigits (wholeDigits cs) := by
  unfold wholeDigits
  split
  · intro c hc
    obtain rfl := List.mem_singleton.mp hc
    rfl
  · exact allDigits_takeWhile _

lemma isShort_of_natAbs_lt {n : Int} (h : n.natAbs < 10 ^ ValueFault.digitLimit) :
    isShort n = true := by
  unfold isShort
  generalize ValueFault.digitLimit = limit at h ⊢
  exact decide_eq_true h

/-- An integer that is read is not too long to be written. -/
lemma isWritable_numberOf {negative : Bool} {whole : List Char} (hwhole : AllDigits whole)
    {fraction : Option (List Char)} {exponent : Option Int} {v : Value}
    (h : numberOf negative whole fraction exponent = .ok v) : v.isWritable = true := by
  unfold numberOf at h
  split at h
  · split at h
    · cases h
    · rename_i hlength
      obtain rfl := Except.ok.inj h
      have hlt : digitsOf whole < 10 ^ ValueFault.digitLimit :=
        (digitsOf_lt hwhole).trans_le (Nat.pow_le_pow_right (by decide) (Nat.not_lt.mp hlength))
      rw [isWritable]
      cases negative
      · exact isShort_of_natAbs_lt (by rwa [if_neg nofun, Int.natAbs_natCast])
      · exact isShort_of_natAbs_lt (by rwa [if_pos rfl, Int.natAbs_neg, Int.natAbs_natCast])
  · obtain rfl := Except.ok.inj h
    rw [isWritable.eq_def]

lemma isWritable_takeNumber {cs rest : List Char} {v : Value}
    (h : takeNumber cs = .ok (v, rest)) : v.isWritable = true := by
  unfold takeNumber at h
  dsimp only at h
  split at h
  · cases h
  · rcases hu : numberOf _ _ _ _ with f | u
    · rw [hu] at h
      cases h
    · rw [hu] at h
      obtain rfl := (Prod.mk.inj (Except.ok.inj h)).1
      exact isWritable_numberOf (allDigits_wholeDigits _) hu

lemma isWritable_takeLiteral? {cs rest : List Char} {v : Value}
    (h : takeLiteral? cs = some (v, rest)) : v.isWritable = true := by
  obtain ⟨⟨word, u⟩, hmem, hread⟩ := List.exists_of_findSome?_eq_some h
  obtain ⟨_, -, heq⟩ := Option.map_eq_some_iff.mp hread
  obtain rfl := (Prod.mk.inj heq).1
  have hall : ∀ e ∈ literals, e.2.isWritable = true := by decide
  exact hall _ hmem

/-! ### Collections -/

lemma entriesWritable_foldl {es : List (Value × Value)} (h : entriesWritable es = true)
    (acc : List (Value × Value)) (hacc : entriesWritable acc = true) :
    entriesWritable (es.foldl (fun acc e => insertEntry e.1 e.2 acc) acc) = true := by
  induction es generalizing acc with
  | nil => exact hacc
  | cons e es ih =>
    rw [entriesWritable, Bool.and_eq_true, Bool.and_eq_true] at h
    exact ih h.2 _ (entriesWritable_insertEntry h.1.1 h.1.2 hacc)

lemma isWritable_dictOf {es : List (Value × Value)} (h : entriesWritable es = true) :
    (dictOf es).isWritable = true := by
  rw [dictOf, isWritable]
  exact entriesWritable_foldl h [] rfl

/-- What is taken with so much fuel can be written. -/
structure TakesWritable (n : ℕ) : Prop where
  value : ∀ {cs rest v}, takeValue n cs = .ok (v, rest) → v.isWritable = true
  items : ∀ {acc cs rest v}, areWritable acc = true → takeItems n acc cs = .ok (v, rest) →
    v.isWritable = true
  entries : ∀ {acc cs rest v}, entriesWritable acc = true → takeEntries n acc cs = .ok (v, rest) →
    v.isWritable = true

namespace TakesWritable

variable {n : ℕ} {acc : List Value} {es : List (Value × Value)} {cs rest : List Char} {v : Value}

lemma value_succ (h : TakesWritable n) (hv : takeValue (n + 1) cs = .ok (v, rest)) :
    v.isWritable = true := by
  unfold takeValue at hv
  split at hv
  · split at hv
    · obtain rfl := (Prod.mk.inj (Except.ok.inj hv)).1
      rw [isWritable.eq_def]
    · cases hv
  · split at hv
    · obtain rfl := (Prod.mk.inj (Except.ok.inj hv)).1
      rfl
    · exact h.items rfl hv
  · split at hv
    · obtain rfl := (Prod.mk.inj (Except.ok.inj hv)).1
      rfl
    · exact h.entries rfl hv
  · split at hv
    · rename_i r hr
      obtain rfl := Except.ok.inj hv
      exact isWritable_takeLiteral? hr
    · exact isWritable_takeNumber hv

lemma items_succ (h : TakesWritable n) (hacc : areWritable acc = true)
    (hv : takeItems (n + 1) acc cs = .ok (v, rest)) : v.isWritable = true := by
  unfold takeItems at hv
  obtain ⟨⟨u, after⟩, hu, hv⟩ := Except.bind_eq_ok.mp hv
  have hall : areWritable (u :: acc) = true := by
    rw [areWritable, h.value hu, hacc]
    rfl
  dsimp only at hv
  split at hv
  · obtain rfl := (Prod.mk.inj (Except.ok.inj hv)).1
    rw [isWritable, areWritable_iff]
    exact fun w hw => areWritable_iff.mp hall w (List.mem_reverse.mp hw)
  · exact h.items hall hv
  · cases hv

lemma entries_succ (h : TakesWritable n) (hes : entriesWritable es = true)
    (hv : takeEntries (n + 1) es cs = .ok (v, rest)) : v.isWritable = true := by
  unfold takeEntries at hv
  split at hv
  · split at hv
    · cases hv
    · split at hv
      · rename_i key _ _ _ _ _
        obtain ⟨⟨u, after⟩, hu, hv⟩ := Except.bind_eq_ok.mp hv
        have hall : entriesWritable ((.text key, u) :: es) = true := by
          rw [entriesWritable, h.value hu, hes]
          rfl
        dsimp only at hv
        split at hv
        · obtain rfl := (Prod.mk.inj (Except.ok.inj hv)).1
          refine isWritable_dictOf (entriesWritable_iff.mpr fun e he => ?_)
          exact entriesWritable_iff.mp hall e (List.mem_reverse.mp he)
        · exact h.entries hall hv
        · cases hv
      · cases hv
  · cases hv

end TakesWritable

lemma takesWritable (n : ℕ) : TakesWritable n := by
  induction n with
  | zero => exact ⟨nofun, nofun, nofun⟩
  | succ n ih => exact ⟨ih.value_succ, ih.items_succ, ih.entries_succ⟩

/-- A value read from JSON can be written as JSON. -/
theorem isWritable_of_read {s : String} {v : Value} (h : read s = .ok v) : v.isWritable = true := by
  obtain ⟨⟨u, rest⟩, hu, h⟩ := Except.bind_eq_ok.mp h
  dsimp only at h
  split at h
  · obtain rfl := Except.ok.inj h
    exact (takesWritable _).value hu
  · cases h

end Stencil.Json
