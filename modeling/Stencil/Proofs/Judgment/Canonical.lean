import Stencil.Judgment.Cache
import Stencil.Proofs.Json.Read
import Stencil.Proofs.Value.Written

/-!
The canonical form of a judgeable value.

A tuple stands in it as a list, and the entries of a mapping are in the order of their keys
(`Value.normal`). What is written for a value is read back as its canonical form
(`read_write_canonical`), and its canonical form is written as the value is
(`writeAt_normal`): so two values have one payload exactly if they have one canonical form.
-/

namespace Stencil

namespace Value

/-! ### Judgeable values -/

mutual

/-- JSON has a form for the value: texts are the keys, and numbers are finite. -/
def isJudgeable : Value → Bool
  | null | bool _ | int _ | text _ => true
  | float x => x.isFinite
  | list xs => areJudgeable xs
  | tuple xs => areJudgeable xs
  | dict es => entriesJudgeable es
  | bytes _ | date _ | moment _ | context _ => false

def areJudgeable : List Value → Bool
  | [] => true
  | v :: vs => isJudgeable v && areJudgeable vs

def entriesJudgeable : List (Value × Value) → Bool
  | [] => true
  | (text _, v) :: rest => isJudgeable v && entriesJudgeable rest
  | _ => false

end

mutual

/-- Mappings hold each key once. -/
def KeysDiffer : Value → Prop
  | list xs => AllKeysDiffer xs
  | tuple xs => AllKeysDiffer xs
  | dict es => (es.map (·.1)).Nodup ∧ EntryKeysDiffer es
  | _ => True

def AllKeysDiffer : List Value → Prop
  | [] => True
  | v :: vs => KeysDiffer v ∧ AllKeysDiffer vs

def EntryKeysDiffer : List (Value × Value) → Prop
  | [] => True
  | e :: rest => KeysDiffer e.2 ∧ EntryKeysDiffer rest

end

/-- The text that a key is. -/
def keyName : Value → String
  | text s => s
  | _ => ""

mutual

/-- The canonical form: tuples as lists, mappings in the order of their keys. -/
def normal : Value → Value
  | list xs => list (normalItems xs)
  | tuple xs => list (normalItems xs)
  | dict es => dict ((normalEntries es).mergeSort fun a b => a.1.keyName ≤ b.1.keyName)
  | v => v

def normalItems : List Value → List Value
  | [] => []
  | v :: vs => normal v :: normalItems vs

def normalEntries : List (Value × Value) → List (Value × Value)
  | [] => []
  | (k, v) :: rest => (k, normal v) :: normalEntries rest

end

end Value

namespace Judgment

open Value

mutual

/-- What the key of a judgment asks of a value. -/
lemma fault?_eq_none_iff : ∀ (v : Value) (path : String),
    fault? path v = none ↔ v.isJudgeable = true
  | .null, path | .bool _, path | .int _, path | .text _, path => by simp [fault?, isJudgeable]
  | .bytes _, path | .date _, path | .moment _, path | .context _, path => by
    simp [fault?, isJudgeable]
  | .float x, path => by simp [fault?, isJudgeable]
  | .list xs, path => by rw [fault?, isJudgeable, itemFault?_eq_none_iff xs]
  | .tuple xs, path => by rw [fault?, isJudgeable, itemFault?_eq_none_iff xs]
  | .dict es, path => by rw [fault?, isJudgeable, entryFault?_eq_none_iff es]

lemma itemFault?_eq_none_iff : ∀ (vs : List Value) (path : String) (i : Nat),
    itemFault? path i vs = none ↔ areJudgeable vs = true
  | [], path, i => by simp [itemFault?, areJudgeable]
  | v :: vs, path, i => by
    rw [itemFault?, areJudgeable, Bool.and_eq_true, ← fault?_eq_none_iff v,
      ← itemFault?_eq_none_iff vs path (i + 1)]
    rcases fault? _ v with _ | f <;> simp

lemma entryFault?_eq_none_iff : ∀ (es : List (Value × Value)) (path : String),
    entryFault? path es = none ↔ entriesJudgeable es = true
  | [], path => by simp [entryFault?, entriesJudgeable]
  | (k, v) :: es, path => by
    cases k with
    | text name =>
      rw [entryFault?, entriesJudgeable, Bool.and_eq_true,
        ← fault?_eq_none_iff v (path ++ "." ++ name), ← entryFault?_eq_none_iff es path]
      rcases fault? _ v with _ | f <;> simp
    | _ => simp [entryFault?, entriesJudgeable]

end

/-! ### Written collections -/

lemma toList_bracketed (depth : Nat) (left right : String) (items : List String) :
    (Json.bracketed canonical depth left right items).toList =
      left.toList ++ [','].intercalate (items.map String.toList) ++ right.toList := by
  unfold Json.bracketed
  rcases items with _ | ⟨t, ts⟩
  · simp [List.intercalate_nil]
  · change (left ++ ",".intercalate (t :: ts) ++ right).toList = _
    rw [String.toList_append, String.toList_append, String.toList_intercalate]
    rfl

lemma writeItems_eq_ok {style : Json.Style} {depth : Nat} {vs : List Value} {ts : List String} :
    Json.writeItems style depth vs = .ok ts ↔
      List.Forall₂ (fun v t => Json.writeAt style depth v = .ok t) vs ts := by
  induction vs generalizing ts with
  | nil =>
    rw [Json.writeItems, List.forall₂_nil_left_iff]
    exact ⟨fun h => (Except.ok.inj h).symm, fun h => congrArg Except.ok h.symm⟩
  | cons v vs ih =>
    rw [Json.writeItems, Except.bind_eq_ok, List.forall₂_cons_left_iff]
    refine exists_congr fun t => ?_
    rw [Except.bind_eq_ok, ← exists_and_left]
    refine exists_congr fun ts' => ?_
    rw [ih]
    refine and_congr_right fun _ => and_congr_right fun _ => ?_
    exact ⟨fun h => (Except.ok.inj h).symm, fun h => congrArg Except.ok h.symm⟩

lemma writeEntries_eq_ok {style : Json.Style} {depth : Nat} {es : List (Value × Value)}
    {ws : List (String × String)} : Json.writeEntries style depth es = .ok ws ↔
      List.Forall₂ (fun e w => Json.keyText style e.1 = .ok w.1 ∧
        Json.writeAt style depth e.2 = .ok w.2) es ws := by
  induction es generalizing ws with
  | nil =>
    rw [Json.writeEntries, List.forall₂_nil_left_iff]
    exact ⟨fun h => (Except.ok.inj h).symm, fun h => congrArg Except.ok h.symm⟩
  | cons e es ih =>
    obtain ⟨k, v⟩ := e
    rw [Json.writeEntries, List.forall₂_cons_left_iff]
    constructor
    · intro h
      obtain ⟨key, hkey, h⟩ := Except.bind_eq_ok.mp h
      obtain ⟨t, ht, h⟩ := Except.bind_eq_ok.mp h
      obtain ⟨ws', hws, h⟩ := Except.bind_eq_ok.mp h
      exact ⟨(key, t), ws', ⟨hkey, ht⟩, ih.mp hws, (Except.ok.inj h).symm⟩
    · rintro ⟨⟨key, t⟩, ws', ⟨hkey, ht⟩, hws, rfl⟩
      exact Except.bind_eq_ok.mpr ⟨key, hkey, Except.bind_eq_ok.mpr
        ⟨t, ht, Except.bind_eq_ok.mpr ⟨ws', ih.mpr hws, rfl⟩⟩⟩

/-- Lists that match item by item match when they are sorted, too. -/
lemma forall₂_mergeSort {α β : Type} {R : α → β → Prop} (le : α → α → Bool)
    (le' : β → β → Bool) (hle : ∀ a b a' b', R a b → R a' b' → le a a' = le' b b')
    {as : List α} {bs : List β} (h : List.Forall₂ R as bs) :
    List.Forall₂ R (as.mergeSort le) (bs.mergeSort le') := by
  obtain ⟨zs, rfl, rfl, hzs⟩ : ∃ zs : List (α × β), as = zs.map (·.1) ∧ bs = zs.map (·.2) ∧
      ∀ z ∈ zs, R z.1 z.2 := by
    induction h with
    | nil => exact ⟨[], rfl, rfl, nofun⟩
    | @cons a b _ _ hab _ ih =>
      obtain ⟨zs, rfl, rfl, hzs⟩ := ih
      exact ⟨(a, b) :: zs, rfl, rfl, List.forall_mem_cons.mpr ⟨hab, hzs⟩⟩
  rw [← List.map_mergeSort (r := fun z z' => le z.1 z'.1) (fun _ _ _ _ => rfl),
    ← List.map_mergeSort (r := fun z z' => le z.1 z'.1) (f := Prod.snd) (s := le')
      (fun z hz z' hz' => hle _ _ _ _ (hzs z hz) (hzs z' hz'))]
  rw [List.forall₂_map_left_iff, List.forall₂_map_right_iff, List.forall₂_same]
  exact fun z hz => hzs z ((List.mergeSort_perm zs _).mem_iff.mp hz)

/-! ### Reading what is written -/

lemma insertEntry_of_new {acc : List (Value × Value)} {k : String} {v : Value}
    (h : ∀ e ∈ acc, e.1 ≠ .text k) :
    Value.insertEntry (.text k) v acc = acc ++ [(.text k, v)] := by
  induction acc with
  | nil => rfl
  | cons e acc ih =>
    obtain ⟨he, hacc⟩ := List.forall_mem_cons.mp h
    have hsame : ¬ e.1.same (.text k) = true := fun hs => he (same_text.mp hs)
    rw [Value.insertEntry, if_neg hsame, ih hacc, List.cons_append]

/-- Entries under different texts are a mapping as they are. -/
lemma dictOf_of_nodup {es : List (Value × Value)} (htext : ∀ e ∈ es, ∃ s, e.1 = .text s)
    (h : (es.map (·.1)).Nodup) : Value.dictOf es = .dict es := by
  have hfold : ∀ (es acc : List (Value × Value)), (∀ e ∈ es, ∃ s, e.1 = .text s) →
      ((acc ++ es).map (·.1)).Nodup →
      es.foldl (fun acc e => Value.insertEntry e.1 e.2 acc) acc = acc ++ es := by
    intro es
    induction es with
    | nil => exact fun acc _ _ => (List.append_nil acc).symm
    | cons e es ih =>
      intro acc htext hnodup
      obtain ⟨⟨s, hs⟩, htexts⟩ := List.forall_mem_cons.mp htext
      have hnew : ∀ a ∈ acc, a.1 ≠ .text s := by
        intro a ha heq
        rw [List.map_append, List.map_cons] at hnodup
        exact (List.nodup_append.mp hnodup).2.2 a.1 (List.mem_map_of_mem ha) _
          List.mem_cons_self (heq.trans hs.symm)
      rw [List.foldl_cons, hs, insertEntry_of_new hnew, ← hs,
        ih _ htexts (by rwa [List.append_assoc, List.singleton_append]), List.append_assoc,
        List.singleton_append]
  exact congrArg Value.dict (hfold es [] htext h)

lemma map_fst_normalEntries (es : List (Value × Value)) :
    (normalEntries es).map (·.1) = es.map (·.1) := by
  induction es with
  | nil => rfl
  | cons e es ih => rw [normalEntries, List.map_cons, ih, List.map_cons]

lemma exists_text_of_judgeable {es : List (Value × Value)} (h : entriesJudgeable es = true) :
    ∀ e ∈ es, ∃ s, e.1 = .text s := by
  induction es with
  | nil => nofun
  | cons e es ih =>
    obtain ⟨k, v⟩ := e
    cases k with
    | text s => exact List.forall_mem_cons.mpr ⟨⟨s, rfl⟩, ih ((Bool.and_eq_true _ _).mp h).2⟩
    | _ => cases h

lemma readsAs_int {n : Int} {s : String} (h : showInt n = .ok s) :
    Json.ReadsAs s.toList (.int n) := by
  obtain ⟨hshort, rfl⟩ := showInt_eq_ok h
  exact Json.readsAs_number (Json.leadsNumber_intText n) fun rest hrest =>
    Json.takeNumber_intText (natAbs_lt_of_isShort hshort) hrest

lemma readsAs_float {x : Double} (hx : x.isFinite = true) {s : String}
    (h : Json.doubleText canonical x = .ok s) : Json.ReadsAs s.toList (.float x) := by
  unfold Json.doubleText at h
  rw [if_pos (by rw [hx]; rfl)] at h
  obtain rfl := Except.ok.inj h
  exact Json.readsAs_number (Json.leadsNumber_doubleText hx _) fun rest hrest =>
    Json.takeNumber_doubleText hx _ hrest

/-- What the parts of a mapping are read as, the whole is read as, in the order of the keys. -/
lemma readsAs_sorted {depth : Nat} {ws : List (String × String)} {es : List (Value × Value)}
    (hnodup : (es.map (·.1)).Nodup)
    (h : List.Forall₂ (fun (w : String × String) (e : Value × Value) =>
      e.1 = .text w.1 ∧ Json.ReadsAs w.2.toList e.2) ws es) :
    Json.ReadsAs (Json.bracketed canonical depth "\x7b" "\x7d"
      ((ws.mergeSort fun a b => a.1 ≤ b.1).map fun e =>
        Json.quotedText canonical.ascii e.1 ++ canonical.colon ++ e.2)).toList
      (.dict (es.mergeSort fun a b => a.1.keyName ≤ b.1.keyName)) := by
  have hsorted := forall₂_mergeSort (fun a b => a.1 ≤ b.1)
    (fun a b => a.1.keyName ≤ b.1.keyName)
    (fun a b a' b' hab hab' => by rw [hab.1, hab'.1]; rfl) h
  have hperm := List.mergeSort_perm es fun a b => a.1.keyName ≤ b.1.keyName
  have hpieces : ∀ ws : List (String × String),
      (ws.map fun e => Json.quotedText canonical.ascii e.1 ++ canonical.colon ++ e.2).map
        String.toList = (ws.map fun w => (w.1, w.2.toList)).map Json.entryText := by
    intro ws
    rw [List.map_map, List.map_map]
    refine List.map_congr_left fun w _ => ?_
    simp [Json.entryText, canonical, Json.compact]
  have hentries : List.Forall₂ (fun (z : String × List Char) (e : Value × Value) =>
      e.1 = .text z.1 ∧ Json.ReadsAs z.2 e.2)
      ((ws.mergeSort fun a b => a.1 ≤ b.1).map fun w => (w.1, w.2.toList))
      (es.mergeSort fun a b => a.1.keyName ≤ b.1.keyName) :=
    List.forall₂_map_left_iff.mpr hsorted
  have hread := Json.readsAs_dict hentries
  rw [dictOf_of_nodup ?_ ((hperm.map _).nodup_iff.mpr hnodup)] at hread
  · rw [toList_bracketed, hpieces]
    exact hread
  · generalize ws.mergeSort _ = ws', es.mergeSort _ = es' at hsorted ⊢
    induction hsorted with
    | nil => exact List.forall_mem_nil _
    | cons hwe _ ih => exact List.forall_mem_cons.mpr ⟨⟨_, hwe.1⟩, ih⟩

mutual

/-- What is written for a value is read as its canonical form. -/
lemma readsAs_written : ∀ (v : Value) (depth : Nat) (s : String), v.isJudgeable = true →
    v.KeysDiffer → Json.writeAt canonical depth v = .ok s → Json.ReadsAs s.toList v.normal
  | .null => by
    intro depth s _ _ hs
    rw [Json.writeAt] at hs
    obtain rfl := Except.ok.inj hs
    exact Json.readsAs_null
  | .bool b => by
    intro depth s _ _ hs
    rw [Json.writeAt] at hs
    obtain rfl := Except.ok.inj hs
    exact Json.readsAs_bool b
  | .int n => by
    intro depth s _ _ hs
    rw [Json.writeAt] at hs
    exact readsAs_int hs
  | .float x => by
    intro depth s hx _ hs
    rw [Json.writeAt] at hs
    exact readsAs_float hx hs
  | .text t => by
    intro depth s _ _ hs
    rw [Json.writeAt] at hs
    obtain rfl := Except.ok.inj hs
    exact Json.readsAs_text t
  | .list xs => by
    intro depth s hv hkeys hs
    rw [Json.writeAt] at hs
    obtain ⟨ts, hts, hs⟩ := Except.bind_eq_ok.mp hs
    obtain rfl := Except.ok.inj hs
    rw [toList_bracketed]
    exact Json.readsAs_list (readsAs_writtenItems xs _ _ hv hkeys hts)
  | .tuple xs => by
    intro depth s hv hkeys hs
    rw [Json.writeAt] at hs
    obtain ⟨ts, hts, hs⟩ := Except.bind_eq_ok.mp hs
    obtain rfl := Except.ok.inj hs
    rw [toList_bracketed]
    exact Json.readsAs_list (readsAs_writtenItems xs _ _ hv hkeys hts)
  | .dict es => by
    intro depth s hv hkeys hs
    rw [Json.writeAt] at hs
    obtain ⟨ws, hws, hs⟩ := Except.bind_eq_ok.mp hs
    obtain rfl := Except.ok.inj hs
    have hentries := readsAs_writtenEntries es _ _ hv hkeys.2 hws
    exact readsAs_sorted (by rw [map_fst_normalEntries]; exact hkeys.1) hentries
  | .bytes _ => nofun
  | .date _ => nofun
  | .moment _ => nofun
  | .context _ => nofun

lemma readsAs_writtenItems : ∀ (vs : List Value) (depth : Nat) (ts : List String),
    areJudgeable vs = true → AllKeysDiffer vs → Json.writeItems canonical depth vs = .ok ts →
    List.Forall₂ Json.ReadsAs (ts.map String.toList) (normalItems vs)
  | [] => by
    intro depth ts _ _ hts
    rw [Json.writeItems] at hts
    obtain rfl := Except.ok.inj hts
    exact .nil
  | v :: vs => by
    intro depth ts hvs hkeys hts
    obtain ⟨hv, hvs⟩ := (Bool.and_eq_true _ _).mp hvs
    rw [writeItems_eq_ok, List.forall₂_cons_left_iff] at hts
    obtain ⟨t, ts, ht, hts, rfl⟩ := hts
    exact .cons (readsAs_written v _ _ hv hkeys.1 ht)
      (readsAs_writtenItems vs _ _ hvs hkeys.2 (writeItems_eq_ok.mpr hts))

lemma readsAs_writtenEntries : ∀ (es : List (Value × Value)) (depth : Nat)
    (ws : List (String × String)), entriesJudgeable es = true → EntryKeysDiffer es →
    Json.writeEntries canonical depth es = .ok ws →
    List.Forall₂ (fun (w : String × String) (e : Value × Value) =>
      e.1 = .text w.1 ∧ Json.ReadsAs w.2.toList e.2) ws (normalEntries es)
  | [] => by
    intro depth ws _ _ hws
    rw [Json.writeEntries] at hws
    obtain rfl := Except.ok.inj hws
    exact .nil
  | (k, v) :: es => by
    intro depth ws hes hkeys hws
    rw [writeEntries_eq_ok, List.forall₂_cons_left_iff] at hws
    obtain ⟨⟨key, t⟩, ws, ⟨hkey, ht⟩, hws, rfl⟩ := hws
    obtain ⟨⟨name, rfl⟩, -⟩ := List.forall_mem_cons.mp (exists_text_of_judgeable hes)
    obtain ⟨hv, hes⟩ := (Bool.and_eq_true _ _).mp hes
    exact .cons ⟨congrArg Value.text (Except.ok.inj hkey), readsAs_written v _ _ hv hkeys.1 ht⟩
      (readsAs_writtenEntries es _ _ hes hkeys.2 (writeEntries_eq_ok.mpr hws))

end

/-- **What is written for a value is read back as its canonical form.** -/
theorem read_write_canonical {v : Value} {s : String} (hv : v.isJudgeable = true)
    (hkeys : v.KeysDiffer) (h : Json.write canonical v = .ok s) : Json.read s = .ok v.normal :=
  Json.read_of_readsAs (readsAs_written v 0 s hv hkeys h)

/-! ### Writing the canonical form -/

/-- What is sorted by texts is in their order. -/
lemma pairwise_sorted {α : Type} (f : α → String) (l : List α) :
    (l.mergeSort fun a b => f a ≤ f b).Pairwise fun a b => decide (f a ≤ f b) = true := by
  refine List.pairwise_mergeSort (fun a b c hab hbc => ?_) (fun a b => ?_) l
  · exact decide_eq_true (String.le_trans (of_decide_eq_true hab) (of_decide_eq_true hbc))
  · simpa using String.le_total (f a) (f b)

mutual

/-- The canonical form is written as the value is. -/
lemma writeAt_normal : ∀ (v : Value) (depth : Nat) (s : String), v.isJudgeable = true →
    Json.writeAt canonical depth v = .ok s → Json.writeAt canonical depth v.normal = .ok s
  | .list xs => by
    intro depth s hv hs
    rw [Json.writeAt] at hs
    obtain ⟨ts, hts, hs⟩ := Except.bind_eq_ok.mp hs
    rw [Value.normal, Json.writeAt, writeItems_normal xs _ _ hv hts]
    exact hs
  | .tuple xs => by
    intro depth s hv hs
    rw [Json.writeAt] at hs
    obtain ⟨ts, hts, hs⟩ := Except.bind_eq_ok.mp hs
    rw [Value.normal, Json.writeAt, writeItems_normal xs _ _ hv hts]
    exact hs
  | .dict es => by
    intro depth s hv hs
    rw [Json.writeAt] at hs
    obtain ⟨ws, hws, hs⟩ := Except.bind_eq_ok.mp hs
    have hsorted := forall₂_mergeSort (fun a b => a.1.keyName ≤ b.1.keyName)
      (fun a b => a.1 ≤ b.1) (fun a b a' b' hab hab' => by rw [hab.1, hab'.1]; rfl)
      (writeEntries_normal es _ _ hv hws)
    have hwritten := writeEntries_eq_ok.mpr
      (hsorted.imp fun e w hew => ⟨by rw [hew.1]; rfl, hew.2⟩)
    rw [Value.normal, Json.writeAt, hwritten]
    refine Eq.trans ?_ hs
    change Except.ok (Json.bracketed canonical depth _ _ (List.map _ (List.mergeSort _ _))) =
      Except.ok (Json.bracketed canonical depth _ _ (List.map _ (List.mergeSort _ _)))
    rw [List.mergeSort_of_pairwise (pairwise_sorted (·.1) ws)]
  | .null | .bool _ | .int _ | .float _ | .text _ => fun _ _ _ hs => hs
  | .bytes _ | .date _ | .moment _ | .context _ => fun _ _ _ hs => hs

lemma writeItems_normal : ∀ (vs : List Value) (depth : Nat) (ts : List String),
    areJudgeable vs = true → Json.writeItems canonical depth vs = .ok ts →
    Json.writeItems canonical depth (normalItems vs) = .ok ts
  | [] => fun _ _ _ hts => hts
  | v :: vs => by
    intro depth ts hvs hts
    obtain ⟨hv, hvs⟩ := (Bool.and_eq_true _ _).mp hvs
    rw [writeItems_eq_ok, List.forall₂_cons_left_iff] at hts
    obtain ⟨t, ts, ht, hts, rfl⟩ := hts
    exact writeItems_eq_ok.mpr (.cons (writeAt_normal v _ _ hv ht)
      (writeItems_eq_ok.mp (writeItems_normal vs _ _ hvs (writeItems_eq_ok.mpr hts))))

lemma writeEntries_normal : ∀ (es : List (Value × Value)) (depth : Nat)
    (ws : List (String × String)), entriesJudgeable es = true →
    Json.writeEntries canonical depth es = .ok ws →
    List.Forall₂ (fun (e : Value × Value) (w : String × String) =>
      e.1 = .text w.1 ∧ Json.writeAt canonical depth e.2 = .ok w.2) (normalEntries es) ws
  | [] => by
    intro depth ws _ hws
    rw [Json.writeEntries] at hws
    obtain rfl := Except.ok.inj hws
    exact .nil
  | (k, v) :: es => by
    intro depth ws hes hws
    rw [writeEntries_eq_ok, List.forall₂_cons_left_iff] at hws
    obtain ⟨⟨key, t⟩, ws, ⟨hkey, ht⟩, hws, rfl⟩ := hws
    obtain ⟨⟨name, rfl⟩, -⟩ := List.forall_mem_cons.mp (exists_text_of_judgeable hes)
    obtain ⟨hv, hes⟩ := (Bool.and_eq_true _ _).mp hes
    exact .cons ⟨congrArg Value.text (Except.ok.inj hkey), writeAt_normal v _ _ hv ht⟩
      (writeEntries_normal es _ _ hes (writeEntries_eq_ok.mpr hws))

end

mutual

/-- A judgeable value can be written if no integer in it is too long. -/
lemma isOk_writeCanonical : ∀ (v : Value) (depth : Nat), v.isJudgeable = true →
    (Json.writeAt canonical depth v).isOk = v.isWritable
  | .null | .bool _ | .text _ => fun depth _ => by
    rw [Json.writeAt, isWritable.eq_def]
    rfl
  | .int n => fun depth _ => by rw [Json.writeAt, isWritable, isOk_showInt]
  | .float x => fun depth hx => by
    have hx : x.isFinite = true := hx
    rw [Json.writeAt, isWritable.eq_def, Json.doubleText, if_pos (by rw [hx]; rfl)]
    rfl
  | .list xs => fun depth hv => by
    rw [Json.writeAt, isWritable, ← isOk_writeCanonicalItems xs (depth + 1) hv]
    exact Except.isOk_bind_pure _ _
  | .tuple xs => fun depth hv => by
    rw [Json.writeAt, isWritable, ← isOk_writeCanonicalItems xs (depth + 1) hv]
    exact Except.isOk_bind_pure _ _
  | .dict es => fun depth hv => by
    rw [Json.writeAt, isWritable, ← isOk_writeCanonicalEntries es (depth + 1) hv]
    exact Except.isOk_bind_pure _ _
  | .bytes _ | .date _ | .moment _ | .context _ => fun _ hv => by cases hv

lemma isOk_writeCanonicalItems : ∀ (vs : List Value) (depth : Nat), areJudgeable vs = true →
    (Json.writeItems canonical depth vs).isOk = areWritable vs
  | [] => fun depth _ => by
    rw [Json.writeItems, areWritable]
    rfl
  | v :: vs => fun depth hvs => by
    obtain ⟨hv, hvs⟩ := (Bool.and_eq_true _ _).mp hvs
    rw [Json.writeItems, areWritable, ← isOk_writeCanonical v depth hv,
      ← isOk_writeCanonicalItems vs depth hvs]
    exact Except.isOk_bind fun _ => Except.isOk_bind_pure _ _

lemma isOk_writeCanonicalEntries : ∀ (es : List (Value × Value)) (depth : Nat),
    entriesJudgeable es = true →
    (Json.writeEntries canonical depth es).isOk = entriesWritable es
  | [] => fun depth _ => by
    rw [Json.writeEntries, entriesWritable]
    rfl
  | (k, v) :: es => fun depth hes => by
    obtain ⟨⟨name, rfl⟩, -⟩ := List.forall_mem_cons.mp (exists_text_of_judgeable hes)
    obtain ⟨hv, hes⟩ := (Bool.and_eq_true _ _).mp hes
    rw [Json.writeEntries, entriesWritable, ← isOk_writeCanonical v depth hv,
      ← isOk_writeCanonicalEntries es depth hes, Bool.and_assoc]
    exact Except.isOk_bind fun _ => Except.isOk_bind fun _ => Except.isOk_bind_pure _ _

end

end Judgment

end Stencil
