import Mathlib.Data.List.Perm.Subperm
import Stencil.Proofs.Judgment.Canonical

/-!
What the key of a judgment tells apart.

Two values are alike if they are the same but for the order of mappings and for tuples that stand
where lists do (`Value.Alike`): exactly then they have one canonical form (`normal_eq_iff`), and so
the payloads of two inquiries are the same exactly if the inquiries ask the same of alike values
(`payload_eq_iff`).
-/

namespace Stencil

namespace Value

mutual

/-- The same value, but for the order of the entries of mappings and for tuples in place of lists.
A number is alike only to one of its kind, and the zeros of two signs are different. -/
def Alike : Value → Value → Prop
  | list xs, w => ∃ ys, (w = list ys ∨ w = tuple ys) ∧ AllAlike xs ys
  | tuple xs, w => ∃ ys, (w = list ys ∨ w = tuple ys) ∧ AllAlike xs ys
  | dict es, w => ∃ fs, w = dict fs ∧ es.length = fs.length ∧ EntriesAlike es fs
  | v, w => w = v

/-- The items are alike one by one. -/
def AllAlike : List Value → List Value → Prop
  | [], [] => True
  | v :: vs, w :: ws => Alike v w ∧ AllAlike vs ws
  | _, _ => False

/-- Each entry of the first list has one in the second under the same key, with an alike value. -/
def EntriesAlike : List (Value × Value) → List (Value × Value) → Prop
  | [], _ => True
  | (k, v) :: es, fs => (∃ w, (k, w) ∈ fs ∧ Alike v w) ∧ EntriesAlike es fs

end

lemma mem_normalEntries {k u : Value} {es : List (Value × Value)} :
    (k, u) ∈ normalEntries es ↔ ∃ v, (k, v) ∈ es ∧ normal v = u := by
  induction es with
  | nil => simp [normalEntries]
  | cons e es ih =>
    obtain ⟨k', v'⟩ := e
    rw [normalEntries, List.mem_cons, ih]
    constructor
    · rintro (heq | ⟨v, hv, hu⟩)
      · obtain ⟨rfl, rfl⟩ := Prod.mk.inj heq
        exact ⟨v', List.mem_cons_self, rfl⟩
      · exact ⟨v, List.mem_cons_of_mem _ hv, hu⟩
    · rintro ⟨v, hv, rfl⟩
      rcases List.mem_cons.mp hv with heq | hv
      · obtain ⟨rfl, rfl⟩ := Prod.mk.inj heq
        exact .inl rfl
      · exact .inr ⟨v, hv, rfl⟩

lemma length_normalEntries (es : List (Value × Value)) :
    (normalEntries es).length = es.length := by
  have h := congrArg List.length (Judgment.map_fst_normalEntries es)
  simpa using h

mutual

/-- Values with one canonical form are alike. -/
lemma alike_of_normal_eq : ∀ (v w : Value), v.normal = w.normal → v.Alike w
  | list xs => by
    intro w h
    rw [normal] at h
    rw [Alike]
    cases w with
    | list ys =>
      rw [normal] at h
      exact ⟨ys, .inl rfl, allAlike_of_normal_eq xs ys (Value.list.inj h)⟩
    | tuple ys =>
      rw [normal] at h
      exact ⟨ys, .inr rfl, allAlike_of_normal_eq xs ys (Value.list.inj h)⟩
    | _ => cases h
  | tuple xs => by
    intro w h
    rw [normal] at h
    rw [Alike]
    cases w with
    | list ys =>
      rw [normal] at h
      exact ⟨ys, .inl rfl, allAlike_of_normal_eq xs ys (Value.list.inj h)⟩
    | tuple ys =>
      rw [normal] at h
      exact ⟨ys, .inr rfl, allAlike_of_normal_eq xs ys (Value.list.inj h)⟩
    | _ => cases h
  | dict es => by
    intro w h
    rw [normal] at h
    rw [Alike]
    cases w with
    | dict fs =>
      rw [normal] at h
      have hperm : (normalEntries es).Perm (normalEntries fs) :=
        (List.mergeSort_perm _ _).symm.trans
          ((List.Perm.of_eq (Value.dict.inj h)).trans (List.mergeSort_perm _ _))
      refine ⟨fs, rfl, ?_, entriesAlike_of_subset es fs fun e he => hperm.mem_iff.mp he⟩
      rw [← length_normalEntries es, hperm.length_eq, length_normalEntries]
    | _ => cases h
  | null | bool _ | int _ | float _ | text _ | bytes _ | date _ | moment _ | context _ => by
    intro w h
    rw [Alike.eq_def]
    cases w <;> first | exact h.symm | cases h

lemma allAlike_of_normal_eq : ∀ (vs ws : List Value), normalItems vs = normalItems ws →
    AllAlike vs ws
  | [], ws => by
    intro h
    cases ws with
    | nil => trivial
    | cons w ws => cases h
  | v :: vs, ws => by
    intro h
    cases ws with
    | nil => cases h
    | cons w ws =>
      rw [normalItems, normalItems] at h
      obtain ⟨hv, hvs⟩ := List.cons.inj h
      exact ⟨alike_of_normal_eq v w hv, allAlike_of_normal_eq vs ws hvs⟩

lemma entriesAlike_of_subset : ∀ (es fs : List (Value × Value)),
    (∀ e ∈ normalEntries es, e ∈ normalEntries fs) → EntriesAlike es fs
  | [], fs => fun _ => trivial
  | (k, v) :: es, fs => by
    intro h
    rw [normalEntries] at h
    obtain ⟨hv, hes⟩ := List.forall_mem_cons.mp h
    obtain ⟨w, hw, heq⟩ := mem_normalEntries.mp hv
    exact ⟨⟨w, hw, alike_of_normal_eq v w heq.symm⟩, entriesAlike_of_subset es fs hes⟩

end

lemma keysDiffer_of_mem {es : List (Value × Value)} (h : EntryKeysDiffer es) {e : Value × Value}
    (he : e ∈ es) : KeysDiffer e.2 := by
  induction es with
  | nil => cases he
  | cons a es ih =>
    rcases List.mem_cons.mp he with rfl | he
    · exact h.1
    · exact ih h.2 he

lemma judgeable_of_mem {es : List (Value × Value)} (h : entriesJudgeable es = true)
    {e : Value × Value} (he : e ∈ es) : isJudgeable e.2 = true := by
  induction es with
  | nil => cases he
  | cons a es ih =>
    obtain ⟨⟨s, hs⟩, -⟩ := List.forall_mem_cons.mp (Judgment.exists_text_of_judgeable h)
    obtain ⟨_, v⟩ := a
    obtain rfl : _ = text s := hs
    obtain ⟨hv, hes⟩ := (Bool.and_eq_true _ _).mp h
    rcases List.mem_cons.mp he with rfl | he
    · exact hv
    · exact ih hes he

/-- Entries under texts that differ have one order by their keys. -/
lemma mergeSort_eq_of_perm {es fs : List (Value × Value)} (h : es.Perm fs)
    (htext : ∀ e ∈ es, ∃ s, e.1 = text s) (hnodup : (es.map (·.1)).Nodup) :
    es.mergeSort (fun a b => a.1.keyName ≤ b.1.keyName) =
      fs.mergeSort (fun a b => a.1.keyName ≤ b.1.keyName) := by
  refine List.Perm.eq_of_pairwise (fun a b ha hb hab hba => ?_)
    (Judgment.pairwise_sorted (fun e : Value × Value => e.1.keyName) es)
    (Judgment.pairwise_sorted (fun e : Value × Value => e.1.keyName) fs)
    ((List.mergeSort_perm es _).trans (h.trans (List.mergeSort_perm fs _).symm))
  have ha : a ∈ es := (List.mergeSort_perm es _).mem_iff.mp ha
  have hb : b ∈ es := h.mem_iff.mpr ((List.mergeSort_perm fs _).mem_iff.mp hb)
  obtain ⟨s, hs⟩ := htext a ha
  obtain ⟨t, ht⟩ := htext b hb
  have hle := of_decide_eq_true hab
  have hge := of_decide_eq_true hba
  rw [hs, ht] at hle hge
  refine List.inj_on_of_nodup_map hnodup ha hb ?_
  rw [hs, ht]
  exact congrArg text (String.le_antisymm hle hge)

mutual

/-- Alike values have one canonical form. -/
lemma normal_eq_of_alike : ∀ (v w : Value), v.Alike w → v.isJudgeable = true →
    w.isJudgeable = true → v.KeysDiffer → w.KeysDiffer → v.normal = w.normal
  | list xs => by
    intro w h hv hw hvk hwk
    rw [Alike] at h
    obtain ⟨ys, rfl | rfl, h⟩ := h
    all_goals exact congrArg list (normalItems_eq_of_alike xs ys h hv hw hvk hwk)
  | tuple xs => by
    intro w h hv hw hvk hwk
    rw [Alike] at h
    obtain ⟨ys, rfl | rfl, h⟩ := h
    all_goals exact congrArg list (normalItems_eq_of_alike xs ys h hv hw hvk hwk)
  | dict es => by
    intro w h hv hw hvk hwk
    rw [Alike] at h
    obtain ⟨fs, rfl, hlength, h⟩ := h
    have hkeys : ((normalEntries es).map (·.1)).Nodup := by
      rw [Judgment.map_fst_normalEntries]
      exact hvk.1
    have hsubset := normalEntries_subset_of_alike es fs h hv hw hvk.2 hwk.2
    have hperm : (normalEntries es).Perm (normalEntries fs) :=
      (List.subperm_of_subset (hkeys.of_map _) hsubset).perm_of_length_le
        (by rw [length_normalEntries, length_normalEntries, hlength])
    rw [normal, normal, mergeSort_eq_of_perm hperm ?_ hkeys]
    rintro ⟨k, u⟩ he
    obtain ⟨v, hv', -⟩ := mem_normalEntries.mp he
    exact Judgment.exists_text_of_judgeable hv (k, v) hv'
  | null | bool _ | int _ | float _ | text _ | bytes _ | date _ | moment _ | context _ => by
    intro w h _ _ _ _
    rw [Alike.eq_def] at h
    cases h
    rfl

lemma normalItems_eq_of_alike : ∀ (vs ws : List Value), AllAlike vs ws → areJudgeable vs = true →
    areJudgeable ws = true → AllKeysDiffer vs → AllKeysDiffer ws → normalItems vs = normalItems ws
  | [], ws => by
    intro h _ _ _ _
    cases ws with
    | nil => rfl
    | cons w ws => cases h
  | v :: vs, ws => by
    intro h hv hw hvk hwk
    cases ws with
    | nil => cases h
    | cons w ws =>
      obtain ⟨hv, hvs⟩ := (Bool.and_eq_true _ _).mp hv
      obtain ⟨hw, hws⟩ := (Bool.and_eq_true _ _).mp hw
      rw [normalItems, normalItems, normal_eq_of_alike v w h.1 hv hw hvk.1 hwk.1,
        normalItems_eq_of_alike vs ws h.2 hvs hws hvk.2 hwk.2]

lemma normalEntries_subset_of_alike : ∀ (es fs : List (Value × Value)), EntriesAlike es fs →
    entriesJudgeable es = true → entriesJudgeable fs = true → EntryKeysDiffer es →
    EntryKeysDiffer fs → normalEntries es ⊆ normalEntries fs
  | [], fs => fun _ _ _ _ _ => List.nil_subset _
  | (k, v) :: es, fs => by
    intro h hes hfs hek hfk
    obtain ⟨⟨name, rfl⟩, -⟩ :=
      List.forall_mem_cons.mp (Judgment.exists_text_of_judgeable hes)
    obtain ⟨hv, hes⟩ := (Bool.and_eq_true _ _).mp hes
    obtain ⟨⟨w, hw, hvw⟩, h⟩ := h
    have heq := normal_eq_of_alike v w hvw hv (judgeable_of_mem hfs hw) hek.1
      (keysDiffer_of_mem hfk hw)
    exact List.cons_subset.mpr ⟨mem_normalEntries.mpr ⟨w, hw, heq.symm⟩,
      normalEntries_subset_of_alike es fs h hes hfs hek.2 hfk⟩

end

lemma entriesWritable_eq_all (es : List (Value × Value)) :
    entriesWritable es = es.all fun e => e.1.isJsonKey && e.2.isWritable := by
  induction es with
  | nil => rfl
  | cons e es ih => rw [entriesWritable, ih, List.all_cons]

mutual

/-- The canonical form can be written just if the value can. -/
lemma isWritable_normal : ∀ v : Value, v.normal.isWritable = v.isWritable
  | list xs => by rw [normal, isWritable, isWritable, areWritable_normalItems]
  | tuple xs => by rw [normal, isWritable, isWritable, areWritable_normalItems]
  | dict es => by
    rw [normal, isWritable, isWritable, ← entriesWritable_normalEntries es,
      entriesWritable_eq_all, entriesWritable_eq_all]
    exact (List.mergeSort_perm _ _).all_eq
  | null | bool _ | int _ | float _ | text _ | bytes _ | date _ | moment _ | context _ => rfl

lemma areWritable_normalItems : ∀ vs : List Value, areWritable (normalItems vs) = areWritable vs
  | [] => rfl
  | v :: vs => by
    rw [normalItems, areWritable, areWritable, isWritable_normal v, areWritable_normalItems vs]

lemma entriesWritable_normalEntries : ∀ es : List (Value × Value),
    entriesWritable (normalEntries es) = entriesWritable es
  | [] => rfl
  | (k, v) :: es => by
    rw [normalEntries, entriesWritable, entriesWritable, isWritable_normal v,
      entriesWritable_normalEntries es]

end

/-- Exactly values with one canonical form are alike. -/
lemma normal_eq_iff {v w : Value} (hv : v.isJudgeable = true) (hw : w.isJudgeable = true)
    (hvk : v.KeysDiffer) (hwk : w.KeysDiffer) : v.normal = w.normal ↔ v.Alike w :=
  ⟨alike_of_normal_eq v w, fun h => normal_eq_of_alike v w h hv hw hvk hwk⟩

end Value

namespace Judgment

open Value

/-! ### Inquiries -/

/-- What is asked of a judge. -/
structure Inquiry where
  value : Value
  question : String
  provider : String
  model : String

namespace Inquiry

/-- The inquiry as a mapping. -/
def toValue (i : Inquiry) : Value :=
  .ofBindings [("value", i.value), ("question", .text i.question), ("provider", .text i.provider),
    ("model", .text i.model)]

def payload (i : Inquiry) : Except ValueFault String :=
  Judgment.payload i.value i.question i.provider i.model

def key (i : Inquiry) : Except Failure String :=
  Judgment.key i.value i.question i.provider i.model

/-- The same question to the same judge, about alike values. -/
structure Same (i j : Inquiry) : Prop where
  question : i.question = j.question
  provider : i.provider = j.provider
  model : i.model = j.model
  value : i.value.Alike j.value

lemma isJudgeable_toValue (i : Inquiry) : i.toValue.isJudgeable = i.value.isJudgeable := by
  simp [toValue, Value.ofBindings, isJudgeable, entriesJudgeable]

lemma isWritable_toValue (i : Inquiry) : i.toValue.isWritable = i.value.isWritable := by
  simp [toValue, Value.ofBindings, isWritable, entriesWritable, isJsonKey]

lemma keysDiffer_toValue {i : Inquiry} (h : i.value.KeysDiffer) : i.toValue.KeysDiffer := by
  simp [toValue, Value.ofBindings, KeysDiffer, EntryKeysDiffer, h]

lemma alike_toValue {i j : Inquiry} : i.toValue.Alike j.toValue ↔ i.Same j := by
  have hparts : i.toValue.Alike j.toValue ↔ i.value.Alike j.value ∧ i.question = j.question ∧
      i.provider = j.provider ∧ i.model = j.model := by
    simp [toValue, Value.ofBindings, Alike, EntriesAlike, eq_comm]
  rw [hparts]
  constructor
  · rintro ⟨hv, hq, hp, hm⟩
    exact ⟨hq, hp, hm, hv⟩
  · rintro ⟨hq, hp, hm, hv⟩
    exact ⟨hv, hq, hp, hm⟩

/-- Inquiries have one payload exactly if they are the same. -/
lemma payload_eq_iff {i j : Inquiry} (hi : i.value.isJudgeable = true)
    (hj : j.value.isJudgeable = true) (hik : i.value.KeysDiffer) (hjk : j.value.KeysDiffer)
    {s t : String} (hs : i.payload = .ok s) (ht : j.payload = .ok t) : s = t ↔ i.Same j := by
  have hi : i.toValue.isJudgeable = true := i.isJudgeable_toValue.trans hi
  have hj : j.toValue.isJudgeable = true := j.isJudgeable_toValue.trans hj
  have hik := keysDiffer_toValue hik
  have hjk := keysDiffer_toValue hjk
  rw [← alike_toValue, ← normal_eq_iff hi hj hik hjk]
  constructor
  · rintro rfl
    exact Except.ok.inj
      ((read_write_canonical hi hik hs).symm.trans (read_write_canonical hj hjk ht))
  · intro h
    have hs := writeAt_normal i.toValue 0 s hi hs
    rw [h, writeAt_normal j.toValue 0 t hj ht] at hs
    exact (Except.ok.inj hs).symm

/-- A judgeable value gives a payload if no integer in it is too long. -/
lemma exists_payload_iff {i : Inquiry} (hi : i.value.isJudgeable = true) :
    (∃ s, i.payload = .ok s) ↔ i.value.isWritable = true := by
  rw [← isWritable_toValue, ← isOk_writeCanonical i.toValue 0 (i.isJudgeable_toValue.trans hi)]
  change (∃ s, Json.writeAt canonical 0 i.toValue = .ok s) ↔ _
  rcases Json.writeAt canonical 0 i.toValue with e | s
  · refine ⟨?_, nofun⟩
    rintro ⟨_, h⟩
    cases h
  · exact ⟨fun _ => rfl, fun _ => ⟨s, rfl⟩⟩

/-- What has the payload of an inquiry are the inquiries that are the same. -/
lemma payload_eq_ok_iff {i j : Inquiry} (hi : i.value.isJudgeable = true)
    (hj : j.value.isJudgeable = true) (hik : i.value.KeysDiffer) (hjk : j.value.KeysDiffer)
    {s : String} (hs : i.payload = .ok s) : j.payload = .ok s ↔ i.Same j := by
  refine ⟨fun ht => (payload_eq_iff hi hj hik hjk hs ht).mp rfl, fun hsame => ?_⟩
  have hnormal : i.value.normal = j.value.normal :=
    normal_eq_of_alike _ _ hsame.value hi hj hik hjk
  have hwritable : j.value.isWritable = true := by
    rw [← isWritable_normal, ← hnormal, isWritable_normal]
    exact (exists_payload_iff hi).mp ⟨s, hs⟩
  obtain ⟨t, ht⟩ := (exists_payload_iff hj).mpr hwritable
  rw [ht, (payload_eq_iff hi hj hik hjk hs ht).mpr hsame]

/-- The key of an inquiry whose value can be judged is the digest of its payload. -/
lemma key_of_payload {i : Inquiry} (hi : i.value.isJudgeable = true) {s : String}
    (hs : i.payload = .ok s) : i.key = .ok (Digest.ofText s) := by
  have hfault : fault? "value" i.value = none := (fault?_eq_none_iff i.value _).mpr hi
  have hs : Judgment.payload i.value i.question i.provider i.model = .ok s := hs
  unfold key Judgment.key
  rw [hfault, hs]
  rfl

/-- A key is the digest of the payload of an inquiry whose value can be judged. -/
lemma payload_of_key {i : Inquiry} {k : String} (h : i.key = .ok k) :
    i.value.isJudgeable = true ∧ ∃ s, i.payload = .ok s ∧ Digest.ofText s = k := by
  unfold key Judgment.key at h
  rcases hfault : fault? "value" i.value with _ | f
  · rw [hfault] at h
    refine ⟨(fault?_eq_none_iff i.value _).mp hfault, ?_⟩
    rcases hs : i.payload with f | s
    · rw [show Judgment.payload i.value i.question i.provider i.model = .error f from hs] at h
      cases h
    · rw [show Judgment.payload i.value i.question i.provider i.model = .ok s from hs] at h
      exact ⟨s, rfl, Except.ok.inj h⟩
  · rw [hfault] at h
    cases h

/-- What has the key of an inquiry are the inquiries that are the same, if the digest tells the
payloads apart. -/
lemma key_eq_ok_iff {i j : Inquiry} (hik : i.value.KeysDiffer) (hjk : j.value.KeysDiffer)
    (hdigest : ∀ s t, i.payload = .ok s → j.payload = .ok t →
      Digest.ofText s = Digest.ofText t → s = t)
    (hj : j.value.isJudgeable = true) {k : String} (hk : i.key = .ok k) :
    j.key = .ok k ↔ i.Same j := by
  obtain ⟨hi, s, hs, rfl⟩ := payload_of_key hk
  constructor
  · intro hk'
    obtain ⟨-, t, ht, htk⟩ := payload_of_key hk'
    rw [← payload_eq_ok_iff hi hj hik hjk hs, ht, hdigest s t hs ht htk.symm]
  · exact fun hsame => key_of_payload hj ((payload_eq_ok_iff hi hj hik hjk hs).mpr hsame)

end Inquiry

/-- **The payload of a judgment identifies it.** A judgeable value gives one unless it holds an
integer of more digits than are written. Exactly the inquiries for the same question, provider and
model, about a value that is alike, have the payload; and exactly they have the key, if the digest
tells the payloads apart. -/
theorem payload_identifies {i j : Inquiry} (hi : fault? "value" i.value = none)
    (hj : fault? "value" j.value = none) (hik : i.value.KeysDiffer) (hjk : j.value.KeysDiffer) :
    ((∃ s, i.payload = .ok s) ↔ i.value.isWritable = true) ∧
    ∀ s, i.payload = .ok s → (j.payload = .ok s ↔ i.Same j) ∧
      ((∀ t, j.payload = .ok t → Digest.ofText s = Digest.ofText t → s = t) →
        (i.key = j.key ↔ i.Same j)) := by
  rw [fault?_eq_none_iff] at hi hj
  refine ⟨Inquiry.exists_payload_iff hi, fun s hs => ⟨?_, fun hdigest => ?_⟩⟩
  · exact Inquiry.payload_eq_ok_iff hi hj hik hjk hs
  · have hkey := Inquiry.key_of_payload hi hs
    rw [hkey, eq_comm]
    refine Inquiry.key_eq_ok_iff hik hjk (fun s' t hs' ht => ?_) hj hkey
    obtain rfl : s = s' := Except.ok.inj (hs.symm.trans hs')
    exact hdigest t ht

/-- A mapping, a tuple in it, and a number. -/
def sampleInquiry : Inquiry where
  value := .dict [(.text "b", .int 1), (.text "a", .tuple [.bool true, .float (.zero false)])]
  question := "Is it?"
  provider := "openai"
  model := "small"

/-- The same in another order, with a list. -/
def reorderedInquiry : Inquiry := { sampleInquiry with
  value := .dict [(.text "a", .list [.bool true, .float (.zero false)]), (.text "b", .int 1)] }

namespace Inquiry

lemma keysDiffer_sample : sampleInquiry.value.KeysDiffer := by
  simp [sampleInquiry, KeysDiffer, EntryKeysDiffer, AllKeysDiffer]

lemma keysDiffer_reordered : reorderedInquiry.value.KeysDiffer := by
  simp [reorderedInquiry, KeysDiffer, EntryKeysDiffer, AllKeysDiffer]

lemma same_reordered : sampleInquiry.Same reorderedInquiry :=
  ⟨rfl, rfl, rfl, by simp [sampleInquiry, reorderedInquiry, Alike, EntriesAlike, AllAlike]⟩

end Inquiry

/-- One inquiry in two forms has one payload, and no inquiry about the truth value, the float or
the text in place of the integer 1 has that of the one about the integer. -/
theorem payload_identifies_reordered :
    (∃ s, sampleInquiry.payload = .ok s ∧ reorderedInquiry.payload = .ok s) ∧
      ∀ v ∈ [Value.bool true, .float (.ofInt 1), .text "1"],
        ∃ s, { sampleInquiry with value := .int 1 }.payload = .ok s ∧
          { sampleInquiry with value := v }.payload ≠ .ok s := by
  constructor
  · obtain ⟨hexists, hiff⟩ := payload_identifies (i := sampleInquiry) (j := reorderedInquiry)
      rfl rfl Inquiry.keysDiffer_sample Inquiry.keysDiffer_reordered
    obtain ⟨s, hs⟩ := hexists.mpr (by decide +kernel)
    exact ⟨s, hs, (hiff s hs).1.mpr Inquiry.same_reordered⟩
  · have hother : ∀ v ∈ [Value.bool true, .float (.ofInt 1), .text "1"],
        fault? "value" v = none ∧ v.KeysDiffer ∧ ¬ (Value.int 1).Alike v := by
      have hfinite : (Double.ofInt 1).isFinite = true := by decide +kernel
      simp [fault?, hfinite, KeysDiffer, Alike]
    intro v hv
    obtain ⟨hfault, hkeys, halike⟩ := hother v hv
    obtain ⟨hexists, hiff⟩ := payload_identifies (i := { sampleInquiry with value := .int 1 })
      (j := { sampleInquiry with value := v }) rfl hfault trivial hkeys
    obtain ⟨s, hs⟩ := hexists.mpr (by decide +kernel)
    exact ⟨s, hs, fun heq => halike ((hiff s hs).1.mp heq).value⟩

end Judgment

end Stencil
