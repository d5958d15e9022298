import Mathlib.Algebra.Group.Nat.Defs
import Mathlib.Tactic.Common
import Stencil.Proofs.Render
import Stencil.Proofs.Variable
import Stencil.Value.Basic

/-!
Values as data, and which of them can be written.

An integer with too many digits has no text, and JSON has no form for a key that is a collection
or a date. Everything else can be written: what is said here of a value by its data alone is
exactly when the text of a slot exists (`isOk_format`).

`Value.same` takes numbers of different kinds and mappings in different orders for equal. As data
two values are equal when they are one value, which is decided by looking through both.
-/

namespace Stencil

/-- A result for which the rest always has one. -/
lemma Except.isOk_bind {ε α β : Type} {x : Except ε α} {f : α → Except ε β} {rest : Bool}
    (h : ∀ a, (f a).isOk = rest) : (x >>= f).isOk = (x.isOk && rest) := by
  cases x with
  | error e => rfl
  | ok a => exact h a

lemma Except.isOk_bind_pure {ε α β : Type} (x : Except ε α) (f : α → β) :
    (do return f (← x)).isOk = x.isOk := by
  cases x <;> rfl

lemma Except.isOk_eq_false {ε α : Type} {x : Except ε α} :
    x.isOk = false ↔ ∃ e, x = .error e := by
  cases x with
  | error e => exact ⟨fun _ => ⟨e, rfl⟩, fun _ => rfl⟩
  | ok a =>
    constructor
    · intro h
      cases h
    · rintro ⟨_, h⟩
      cases h

lemma Except.isOk_eq_true {ε α : Type} {x : Except ε α} : x.isOk = true ↔ ∃ a, x = .ok a := by
  cases x with
  | error e =>
    constructor
    · intro h
      cases h
    · rintro ⟨_, h⟩
      cases h
  | ok a => exact ⟨fun _ => ⟨a, rfl⟩, fun _ => rfl⟩

namespace Value

/-! ### Values by their data -/

/-- Not too long to be written in decimal. -/
def isShort (n : Int) : Bool := n.natAbs < Nat.pow 10 ValueFault.digitLimit

lemma natAbs_lt_of_isShort {n : Int} (h : isShort n = true) :
    n.natAbs < 10 ^ ValueFault.digitLimit := by
  unfold isShort at h
  generalize ValueFault.digitLimit = limit at h ⊢
  exact of_decide_eq_true h

mutual

/-- No integer in the value is too long, keys among them. -/
def isQuotable : Value → Bool
  | int n => isShort n
  | list xs => areQuotable xs
  | tuple xs => areQuotable xs
  | dict kvs => entriesQuotable kvs
  | _ => true

def areQuotable : List Value → Bool
  | [] => true
  | v :: vs => isQuotable v && areQuotable vs

def entriesQuotable : List (Value × Value) → Bool
  | [] => true
  | (k, v) :: rest => isQuotable k && isQuotable v && entriesQuotable rest

end

/-- A key that JSON has: a text, a truth value, nothing, or a number that is not too long. -/
def isJsonKey : Value → Bool
  | null | bool _ | float _ | text _ => true
  | int n => isShort n
  | _ => false

mutual

/-- No integer in the value is too long, and all keys in it are keys that JSON has. -/
def isWritable : Value → Bool
  | int n => isShort n
  | list xs => areWritable xs
  | tuple xs => areWritable xs
  | dict kvs => entriesWritable kvs
  | _ => true

def areWritable : List Value → Bool
  | [] => true
  | v :: vs => isWritable v && areWritable vs

def entriesWritable : List (Value × Value) → Bool
  | [] => true
  | (k, v) :: rest => isJsonKey k && isWritable v && entriesWritable rest

end

/-- Whether a slot with a hint can show the value. -/
def fits (hint : Option Hint) (v : Value) : Bool :=
  match hint with
  | some .boolean => true
  | some .number => v.isQuotable
  | _ => v.isWritable

/-! ### Texts -/

lemma isOk_showInt (n : Int) : (showInt n).isOk = isShort n := by
  unfold showInt isShort
  generalize Nat.pow 10 ValueFault.digitLimit = limit
  split
  · rename_i h
    exact (decide_eq_false (Nat.not_lt.mpr h)).symm
  · rename_i h
    exact (decide_eq_true (Nat.not_le.mp h)).symm

lemma showInt_eq_ok {n : Int} {s : String} (h : showInt n = .ok s) :
    isShort n = true ∧ Number.intText n = s := by
  have hshort := isOk_showInt n
  rw [h] at hshort
  refine ⟨hshort.symm, ?_⟩
  unfold showInt at h
  generalize Nat.pow 10 ValueFault.digitLimit = limit at h
  split at h
  · cases h
  · exact Except.ok.inj h

mutual

lemma isOk_inspect : ∀ v : Value, v.inspect.isOk = v.isQuotable
  | null | bool _ | float _ | text _ | bytes _ | date _ | moment _ | context _ => by
    rw [inspect.eq_def, isQuotable.eq_def]
    rfl
  | int n => by rw [inspect, isQuotable, isOk_showInt]
  | list xs => by
    rw [inspect, isQuotable, ← isOk_inspectItems xs]
    exact Except.isOk_bind_pure _ _
  | tuple xs => by
    rw [inspect, isQuotable, ← isOk_inspectItems xs]
    refine (Except.isOk_bind fun parts => ?_).trans (Bool.and_true _)
    split <;> rfl
  | dict kvs => by
    rw [inspect, isQuotable, ← isOk_inspectEntries kvs]
    exact Except.isOk_bind_pure _ _

lemma isOk_inspectItems : ∀ vs : List Value, (inspectItems vs).isOk = areQuotable vs
  | [] => by
    rw [inspectItems, areQuotable]
    rfl
  | v :: vs => by
    rw [inspectItems, areQuotable, ← isOk_inspect v, ← isOk_inspectItems vs]
    exact Except.isOk_bind fun _ => Except.isOk_bind_pure _ _

lemma isOk_inspectEntries : ∀ kvs : List (Value × Value),
    (inspectEntries kvs).isOk = entriesQuotable kvs
  | [] => by
    rw [inspectEntries, entriesQuotable]
    rfl
  | (k, v) :: rest => by
    rw [inspectEntries, entriesQuotable, ← isOk_inspect k, ← isOk_inspect v,
      ← isOk_inspectEntries rest, Bool.and_assoc]
    exact Except.isOk_bind fun _ => Except.isOk_bind fun _ => Except.isOk_bind_pure _ _

end

/-- A value has a plain text exactly if messages can quote it. -/
lemma isOk_show (v : Value) : v.show.isOk = v.isQuotable := by
  cases v with
  | text _ | date _ | moment _ =>
    rw [«show», isQuotable.eq_def]
    rfl
  | _ => exact isOk_inspect _

/-! ### JSON -/

lemma isOk_keyText (v : Value) : (Json.keyText promptJson v).isOk = v.isJsonKey := by
  cases v with
  | int n => exact isOk_showInt n
  | float x =>
    have hnames : promptJson.names = true := rfl
    simp only [Json.keyText, Json.doubleText, hnames, Bool.or_true, if_true]
    rfl
  | _ => rfl

mutual

lemma isOk_writeAt : ∀ (depth : Nat) (v : Value),
    (Json.writeAt promptJson depth v).isOk = v.isWritable
  | depth, .null | depth, .bool _ | depth, .text _ => by
    rw [Json.writeAt, isWritable.eq_def]
    rfl
  | depth, .int n => by rw [Json.writeAt, isWritable, isOk_showInt]
  | depth, .float x => by
    have hnames : promptJson.names = true := rfl
    rw [Json.writeAt, isWritable.eq_def, Json.doubleText]
    simp only [hnames, Bool.or_true, if_true]
    rfl
  | depth, .list xs => by
    rw [Json.writeAt, isWritable, ← isOk_writeItems (depth + 1) xs]
    exact Except.isOk_bind_pure _ _
  | depth, .tuple xs => by
    rw [Json.writeAt, isWritable, ← isOk_writeItems (depth + 1) xs]
    exact Except.isOk_bind_pure _ _
  | depth, .dict kvs => by
    rw [Json.writeAt, isWritable, ← isOk_writeEntries (depth + 1) kvs]
    exact Except.isOk_bind_pure _ _
  | depth, .bytes bs => by
    rw [Json.writeAt]
    exact isOk_other _ rfl
  | depth, .date d => by
    rw [Json.writeAt]
    exact isOk_other _ rfl
  | depth, .moment m => by
    rw [Json.writeAt]
    exact isOk_other _ rfl
  | depth, .context r => by
    rw [Json.writeAt]
    exact isOk_other _ rfl
where
  isOk_other (v : Value) (h : v.isQuotable = true) :
      (Json.writeAt.other promptJson v).isOk = true := by
    rw [← h, ← isOk_show]
    exact Except.isOk_bind_pure _ _

lemma isOk_writeItems : ∀ (depth : Nat) (vs : List Value),
    (Json.writeItems promptJson depth vs).isOk = areWritable vs
  | depth, [] => by
    rw [Json.writeItems, areWritable]
    rfl
  | depth, v :: vs => by
    rw [Json.writeItems, areWritable, ← isOk_writeAt depth v, ← isOk_writeItems depth vs]
    exact Except.isOk_bind fun _ => Except.isOk_bind_pure _ _

lemma isOk_writeEntries : ∀ (depth : Nat) (kvs : List (Value × Value)),
    (Json.writeEntries promptJson depth kvs).isOk = entriesWritable kvs
  | depth, [] => by
    rw [Json.writeEntries, entriesWritable]
    rfl
  | depth, (k, v) :: rest => by
    rw [Json.writeEntries, entriesWritable, ← isOk_keyText k, ← isOk_writeAt depth v,
      ← isOk_writeEntries depth rest, Bool.and_assoc]
    exact Except.isOk_bind fun _ => Except.isOk_bind fun _ => Except.isOk_bind_pure _ _

end

/-! ### Slots -/

mutual

lemma isOk_asText : ∀ v : Value, v.asText.isOk = v.isWritable
  | null | bool _ | text _ | bytes _ => by
    rw [asText.eq_def, isWritable.eq_def]
    rfl
  | int n => by
    rw [asText.eq_def, isWritable]
    exact isOk_show (.int n)
  | float _ | date _ | moment _ | context _ => by
    rw [asText.eq_def, isWritable.eq_def]
    exact isOk_show _
  | list xs => by
    rw [asText, isWritable, ← isOk_asTexts xs]
    exact Except.isOk_bind_pure _ _
  | tuple xs => by
    rw [asText, isWritable, ← isOk_asTexts xs]
    exact Except.isOk_bind_pure _ _
  | dict kvs => by
    rw [asText]
    exact isOk_writeAt 0 (.dict kvs)

lemma isOk_asTexts : ∀ vs : List Value, (asTexts vs).isOk = areWritable vs
  | [] => by
    rw [asTexts, areWritable]
    rfl
  | v :: vs => by
    rw [asTexts, areWritable, ← isOk_asText v, ← isOk_asTexts vs]
    exact Except.isOk_bind fun _ => Except.isOk_bind_pure _ _

end

lemma isOk_asNumber (v : Value) : v.asNumber.isOk = v.isQuotable := by
  cases v with
  | bool _ | float _ =>
    rw [asNumber, isQuotable.eq_def]
    rfl
  | int n => rw [asNumber, isQuotable, isOk_showInt]
  | _ =>
    rw [asNumber.eq_def, ← isOk_show]
    refine (Except.isOk_bind fun s => ?_).trans (Bool.and_true _)
    split <;> rfl

/-- A slot has a text for a value exactly if the value fits its hint. -/
theorem isOk_format (hint : Option Hint) (v : Value) : (v.format hint).isOk = v.fits hint := by
  unfold format
  split
  · rcases hint with _ | h
    · rfl
    · cases h <;> rfl
  · exact isOk_writeAt 0 _
  · rfl
  · exact isOk_asNumber _
  · rw [isOk_asText]
    unfold fits
    split
    · simp_all
    · simp_all
    · rfl

/-! ### Values that fit any hint -/

lemma areWritable_iff {vs : List Value} :
    areWritable vs = true ↔ ∀ v ∈ vs, v.isWritable = true := by
  induction vs with
  | nil => simp [areWritable]
  | cons v vs ih => simp [areWritable, ih]

lemma entriesWritable_iff {kvs : List (Value × Value)} :
    entriesWritable kvs = true ↔
      ∀ e ∈ kvs, e.1.isJsonKey = true ∧ e.2.isWritable = true := by
  induction kvs with
  | nil => simp [entriesWritable]
  | cons e rest ih =>
    obtain ⟨k, v⟩ := e
    simp [entriesWritable, ih]

lemma isQuotable_of_isJsonKey {k : Value} (h : k.isJsonKey = true) : k.isQuotable = true := by
  cases k with
  | int n => exact h
  | list _ | tuple _ | dict _ => cases h
  | _ => rw [isQuotable.eq_def]

mutual

lemma isQuotable_of_isWritable : ∀ v : Value, v.isWritable = true → v.isQuotable = true
  | null | bool _ | float _ | text _ | bytes _ | date _ | moment _ | context _ => by
    rw [isQuotable.eq_def]
    exact fun _ => rfl
  | int n => by
    rw [isQuotable, isWritable]
    exact id
  | list xs => by
    rw [isQuotable, isWritable]
    exact areQuotable_of_areWritable xs
  | tuple xs => by
    rw [isQuotable, isWritable]
    exact areQuotable_of_areWritable xs
  | dict kvs => by
    rw [isQuotable, isWritable]
    exact entriesQuotable_of_entriesWritable kvs

lemma areQuotable_of_areWritable : ∀ vs : List Value, areWritable vs = true →
    areQuotable vs = true
  | [] => by
    rw [areQuotable]
    exact fun _ => rfl
  | v :: vs => by
    simp only [areWritable, areQuotable, Bool.and_eq_true]
    exact And.imp (isQuotable_of_isWritable v) (areQuotable_of_areWritable vs)

lemma entriesQuotable_of_entriesWritable : ∀ kvs : List (Value × Value),
    entriesWritable kvs = true → entriesQuotable kvs = true
  | [] => by
    rw [entriesQuotable]
    exact fun _ => rfl
  | (k, v) :: rest => by
    simp only [entriesWritable, entriesQuotable, Bool.and_eq_true]
    exact And.imp (And.imp isQuotable_of_isJsonKey (isQuotable_of_isWritable v))
      (entriesQuotable_of_entriesWritable rest)

end

/-- What can be written as JSON fits any hint. -/
lemma fits_of_isWritable {v : Value} (h : v.isWritable = true) (hint : Option Hint) :
    v.fits hint = true := by
  unfold fits
  split
  · rfl
  · exact isQuotable_of_isWritable v h
  · exact h

end Value

/-! ### Bindings that can be written -/

namespace Value

variable {v w : Value}

lemma isShort_byte (b : UInt8) : isShort (b.toNat : Int) = true := by
  have hpow (digits : Nat) (h : 3 ≤ digits) : 1000 ≤ Nat.pow 10 digits :=
    Nat.pow_le_pow_right (by omega : 10 > 0) h
  have hlimit := hpow ValueFault.digitLimit (by decide)
  have hb := b.toNat_lt
  unfold isShort
  generalize Nat.pow 10 ValueFault.digitLimit = limit at hlimit
  simp only [Int.natAbs_natCast, decide_eq_true_eq]
  omega

lemma isWritable_of_step {segment : Variable.Segment} (h : v.isWritable = true)
    (hs : Variable.step v segment = .ok (some w)) : w.isWritable = true := by
  cases segment with
  | key name =>
    replace hs : v.field? name = some w := Except.ok.inj hs
    cases v with
    | dict kvs =>
      rw [isWritable, entriesWritable_iff] at h
      obtain ⟨e, he, rfl⟩ := Option.map_eq_some_iff.mp hs
      exact (h e (List.mem_of_find?_eq_some he)).2
    | _ => cases hs
  | index digits =>
    obtain ⟨i, -, hi⟩ := Except.bind_eq_ok.mp hs
    replace hi : Variable.item? v i = some w := Except.ok.inj hi
    cases v with
    | list xs | tuple xs =>
      rw [isWritable, areWritable_iff] at h
      exact h w (List.mem_of_getElem? hi)
    | bytes bs =>
      obtain ⟨b, -, rfl⟩ := Option.map_eq_some_iff.mp hi
      rw [isWritable]
      exact isShort_byte b
    | _ => cases hi

lemma isWritable_of_follow {path : List Variable.Segment} (h : v.isWritable = true)
    (hf : Variable.follow v path = .ok (some w)) : w.isWritable = true := by
  induction path generalizing v with
  | nil =>
    obtain rfl := Option.some.inj (Except.ok.inj hf)
    exact h
  | cons segment path ih =>
    rcases hs : Variable.step v segment with fault | _ | u
    · rw [Variable.follow_cons_error hs] at hf
      cases hf
    · rw [Variable.follow_cons_none hs] at hf
      cases hf
    · rw [Variable.follow_cons_some hs] at hf
      exact ih (isWritable_of_step h hs) hf

lemma entriesWritable_insertEntry {key : Value} {kvs : List (Value × Value)}
    (hk : key.isJsonKey = true) (hv : v.isWritable = true) (h : entriesWritable kvs = true) :
    entriesWritable (insertEntry key v kvs) = true := by
  induction kvs with
  | nil => simp [insertEntry, entriesWritable, hk, hv]
  | cons e rest ih =>
    obtain ⟨k, u⟩ := e
    simp only [entriesWritable, Bool.and_eq_true] at h
    rw [insertEntry]
    split
    · simp [entriesWritable, h, hv]
    · simp [entriesWritable, h, ih h.2]

end Value

/-- Every bound value can be written as JSON. -/
def Bindings.Writable (b : Bindings) : Prop := ∀ x ∈ b, x.2.isWritable = true

namespace Bindings.Writable

variable {b : Bindings} {name : String} {v : Value}

lemma of_find? (h : Writable b) (hf : b.find? name = some v) : v.isWritable = true := by
  obtain ⟨l₁, l₂, rfl, -⟩ := List.lookup_eq_some_iff.mp hf
  exact h (name, v) (by simp)

lemma of_lookup (h : Writable b) (hl : Variable.lookup name b = .ok (some v)) :
    v.isWritable = true := by
  unfold Variable.lookup at hl
  split at hl
  · rename_i hf
    obtain rfl := Option.some.inj (Except.ok.inj hl)
    exact h.of_find? hf
  · refine Value.isWritable_of_follow ?_ hl
    rw [Value.ofBindings, Value.isWritable, Value.entriesWritable_iff]
    intro e he
    obtain ⟨x, hx, rfl⟩ := List.mem_map.mp he
    exact ⟨rfl, h x hx⟩

lemma insert (h : Writable b) (hv : v.isWritable = true) : Writable (b.insert name v) := by
  induction b with
  | nil =>
    rw [Bindings.insert]
    intro x hx
    obtain rfl := List.mem_singleton.mp hx
    exact hv
  | cons e rest ih =>
    obtain ⟨he, hrest⟩ := List.forall_mem_cons.mp h
    rw [Bindings.insert]
    split
    · exact List.forall_mem_cons.mpr ⟨hv, hrest⟩
    · exact List.forall_mem_cons.mpr ⟨he, ih hrest⟩

lemma merge {a : Bindings} (ha : Writable a) (h : Writable b) : Writable (a.merge b) := by
  unfold Bindings.merge
  induction b generalizing a with
  | nil => exact ha
  | cons e b ih =>
    obtain ⟨he, hb⟩ := List.forall_mem_cons.mp h
    exact ih (ha.insert he) hb

/-- The results of context can be written. -/
lemma bind (h : Writable b) (results : List (String × Context.Result)) :
    Writable (Context.bind b results) := by
  refine h.insert ?_
  rw [Value.isWritable]
  have fold (kvs : List (Value × Value)) (hk : Value.entriesWritable kvs = true) :
      Value.entriesWritable (results.foldl (fun acc r =>
        Value.insertEntry (.text r.1) (.context r.2) acc) kvs) = true := by
    induction results generalizing kvs with
    | nil => exact hk
    | cons r results ih =>
      exact ih _ (Value.entriesWritable_insertEntry rfl (by rw [Value.isWritable.eq_def]) hk)
  apply fold
  split
  · rename_i entries hf
    have := h.of_find? hf
    rwa [Value.isWritable] at this
  · rfl

end Bindings.Writable

end Stencil

/-! ### Values compared as data -/

namespace Stencil.Value

mutual

/-- The values are one value. -/
def isExact : Value → Value → Bool
  | null, null => true
  | bool a, bool b => a == b
  | int a, int b => a == b
  | float a, float b => a == b
  | text a, text b => a == b
  | bytes a, bytes b => a == b
  | date a, date b => a == b
  | moment a, moment b => a == b
  | list a, list b => isExactItems a b
  | tuple a, tuple b => isExactItems a b
  | dict a, dict b => isExactEntries a b
  | context a, context b => a == b
  | _, _ => false

def isExactItems : List Value → List Value → Bool
  | [], [] => true
  | a :: as, b :: bs => isExact a b && isExactItems as bs
  | _, _ => false

def isExactEntries : List (Value × Value) → List (Value × Value) → Bool
  | [], [] => true
  | (k, v) :: as, (l, w) :: bs => isExact k l && isExact v w && isExactEntries as bs
  | _, _ => false

end

mutual

lemma isExact_iff : ∀ a b : Value, isExact a b = true ↔ a = b
  | null, b | bool _, b | int _, b | float _, b | text _, b | bytes _, b | date _, b
  | moment _, b | context _, b => by
    cases b <;> simp [isExact]
  | list as, b => by
    cases b <;> simp [isExact, isExactItems_iff as]
  | tuple as, b => by
    cases b <;> simp [isExact, isExactItems_iff as]
  | dict as, b => by
    cases b <;> simp [isExact, isExactEntries_iff as]

lemma isExactItems_iff : ∀ as bs : List Value, isExactItems as bs = true ↔ as = bs
  | [], bs => by cases bs <;> simp [isExactItems]
  | a :: as, bs => by
    cases bs <;> simp [isExactItems, isExact_iff a, isExactItems_iff as]

lemma isExactEntries_iff : ∀ as bs : List (Value × Value), isExactEntries as bs = true ↔ as = bs
  | [], bs => by cases bs <;> simp [isExactEntries]
  | (k, v) :: as, bs => by
    rcases bs with _ | ⟨⟨l, w⟩, bs⟩ <;>
      simp [isExactEntries, isExact_iff k, isExact_iff v, isExactEntries_iff as]

end

instance : DecidableEq Value := fun a b => decidable_of_iff _ (isExact_iff a b)

end Stencil.Value

namespace Stencil

deriving instance DecidableEq for Error, Failure

end Stencil
