import Mathlib.Data.List.Nodup
import Stencil.Dataset.Shelf
import Stencil.Proofs.Record.Read
import Stencil.Proofs.Value.Written
import Stencil.Proofs.Yaml.Values

/-!
What the reader of dataset files makes of a dataset that was written.

A dataset whose sets of parameters have distinct names is read back as itself, unless it has no
sets or one of them has no name: these the reader refuses, though the writer writes them
(`parse_of_written`). Whatever the reader accepts has distinct names, and values that can be written
and read again (`wasRead_of_parse`).
-/

namespace Stencil

open Record Suite

/-! ### Bindings with distinct names -/

namespace Bindings

/-- No name is bound twice. -/
def Distinct (b : Bindings) : Prop := (b.map (·.1)).Nodup

lemma insert_of_notMem {b : Bindings} {name : String} (h : name ∉ b.map (·.1)) (v : Value) :
    b.insert name v = b ++ [(name, v)] := by
  induction b with
  | nil => rfl
  | cons e es ih =>
    obtain ⟨k, w⟩ := e
    obtain ⟨hk, hes⟩ : name ≠ k ∧ name ∉ es.map (·.1) := by simpa using h
    rw [insert, if_neg (by simpa using hk.symm), ih hes]
    rfl

lemma mem_keys_insert {b : Bindings} {name n : String} {v : Value} :
    n ∈ (b.insert name v).map (·.1) ↔ n = name ∨ n ∈ b.map (·.1) := by
  induction b with
  | nil => simp [insert]
  | cons e es ih =>
    obtain ⟨k, w⟩ := e
    rw [insert]
    split
    · rename_i hk
      obtain rfl := eq_of_beq hk
      simp
    · rw [List.map_cons, List.mem_cons, ih, List.map_cons, List.mem_cons]
      tauto

lemma Distinct.insert {b : Bindings} (h : Distinct b) (name : String) (v : Value) :
    Distinct (b.insert name v) := by
  induction b with
  | nil => exact List.nodup_singleton name
  | cons e es ih =>
    obtain ⟨k, w⟩ := e
    obtain ⟨hk, hes⟩ := List.nodup_cons.mp h
    rw [Bindings.insert]
    split
    · exact h
    · rename_i hne
      refine List.nodup_cons.mpr ⟨fun hmem => ?_, ih hes⟩
      rcases mem_keys_insert.mp hmem with rfl | hmem
      · exact hne (beq_self_eq_true k)
      · exact hk hmem

lemma Distinct.merge {a : Bindings} (h : Distinct a) (b : Bindings) : Distinct (a.merge b) := by
  induction b generalizing a with
  | nil => exact h
  | cons e es ih => exact ih (h.insert e.1 e.2)

/-- Bindings with names of their own are put behind others. -/
lemma merge_of_distinct {a b : Bindings} (h : Distinct (a ++ b)) : a.merge b = a ++ b := by
  induction b generalizing a with
  | nil => exact (List.append_nil a).symm
  | cons e es ih =>
    have hnotMem : e.1 ∉ a.map (·.1) := fun hmem => by
      rw [Distinct, List.map_append, List.map_cons] at h
      exact (List.nodup_append.mp h).2.2 _ hmem _ List.mem_cons_self rfl
    have hstep : a.insert e.1 e.2 = a ++ [e] := insert_of_notMem hnotMem e.2
    have hrest : Distinct ((a ++ [e]) ++ es) := by
      rwa [List.append_assoc]
    calc a.merge (e :: es) = (a.insert e.1 e.2).merge es := rfl
      _ = (a ++ [e]) ++ es := by rw [hstep, ih hrest]
      _ = a ++ e :: es := by rw [List.append_assoc]; rfl

end Bindings

/-! ### Values that YAML can give back -/

section

open Yaml (Readable ReadableItems ReadableEntries)

lemma readableItems_iff {vs : List Value} : ReadableItems vs ↔ ∀ v ∈ vs, Readable v := by
  induction vs with
  | nil => exact iff_of_true trivial nofun
  | cons v vs ih => rw [ReadableItems, ih, List.forall_mem_cons]

lemma readable_of_mem {es : List (Value × Value)} (h : ReadableEntries es) :
    ∀ e ∈ es, Readable e.2 := by
  induction es with
  | nil => exact nofun
  | cons e es ih => exact List.forall_mem_cons.mpr ⟨h.2.1, ih h.2.2⟩

lemma readable_of_named? {es : List (Value × Value)} {name : String} {v : Value}
    (hes : ReadableEntries es) (h : Value.named? name es = some v) : Readable v := by
  obtain ⟨e, he, rfl⟩ := Option.map_eq_some_iff.mp h
  exact readable_of_mem hes e (List.mem_of_find?_eq_some he)

namespace Bindings

/-- Each value of some bindings can be written and read again. -/
def IsReadable (b : Bindings) : Prop := ∀ e ∈ b, Readable e.2

lemma readable_ofBindings {b : Bindings} (hb : b.IsReadable) (hdistinct : b.Distinct) :
    Readable (.ofBindings b) := by
  have hentries : ReadableEntries (b.map fun e => (Value.text e.1, e.2)) := by
    clear hdistinct
    induction b with
    | nil => trivial
    | cons e es ih =>
      obtain ⟨he, hes⟩ := List.forall_mem_cons.mp hb
      exact ⟨⟨rfl, trivial⟩, he, ih hes⟩
  refine ⟨hentries, List.pairwise_map.mpr ?_⟩
  exact (List.pairwise_map.mp hdistinct).imp fun hne =>
    Bool.eq_false_iff.mpr fun hsame => hne (Value.text.inj (Value.same_text.mp hsame))

lemma IsReadable.insert {b : Bindings} (h : b.IsReadable) (name : String) {v : Value}
    (hv : Readable v) : (b.insert name v).IsReadable := by
  induction b with
  | nil => exact List.forall_mem_singleton.mpr hv
  | cons e es ih =>
    obtain ⟨he, hes⟩ := List.forall_mem_cons.mp h
    rw [Bindings.insert]
    split
    · exact List.forall_mem_cons.mpr ⟨hv, hes⟩
    · exact List.forall_mem_cons.mpr ⟨he, ih hes⟩

lemma IsReadable.merge {a b : Bindings} (ha : a.IsReadable) (hb : b.IsReadable) :
    (a.merge b).IsReadable := by
  induction b generalizing a with
  | nil => exact ha
  | cons e es ih =>
    obtain ⟨he, hes⟩ := List.forall_mem_cons.mp hb
    exact ih (ha.insert e.1 he) hes

end Bindings

end

/-! ### Mappings written and read -/

namespace Record

lemma mapping_ofBindings {b : Bindings} (h : b.Distinct) : mapping (.ofBindings b) = .ok b := by
  have hall : (b.map fun e => (Value.text e.1, e.2)).map (fun e =>
      ((fun name => (name, e.2)) <$> (text e.1).within "[key]").within (keyPlace e.1)) =
        b.map .ok := by
    rw [List.map_map]
    rfl
  have hmapping : mapping (.ofBindings b) = Bindings.merge [] <$> Checked.all (b.map .ok) :=
    congrArg (Bindings.merge [] <$> Checked.all ·) hall
  rw [hmapping, Checked.all_ok]
  exact congrArg Checked.ok (Bindings.merge_of_distinct h)

lemma distinct_of_mapping {v : Value} {b : Bindings} (h : mapping v = .ok b) : b.Distinct := by
  unfold mapping at h
  split at h
  · obtain ⟨es, -, rfl⟩ := Checked.map_eq_ok.mp h
    exact Bindings.Distinct.merge (show Bindings.Distinct [] from List.nodup_nil) es
  · cases h

end Record

/-- The values of a mapping that is read by name are the mapping's own. -/
lemma Record.isReadable_of_mapping {v : Value} {b : Bindings} (hv : Yaml.Readable v)
    (h : mapping v = .ok b) : b.IsReadable := by
  unfold mapping at h
  split at h
  · rename_i entries
    obtain ⟨named, hnamed, rfl⟩ := Checked.map_eq_ok.mp h
    refine Bindings.IsReadable.merge nofun fun e he => ?_
    obtain ⟨⟨k, w⟩, hmem, hread⟩ := List.mem_map.mp (Checked.mem_of_all hnamed e he)
    obtain ⟨n, -, rfl⟩ := Checked.map_eq_ok.mp (Checked.within_eq_ok.mp hread)
    exact readable_of_mem hv.1 _ hmem
  · cases h

namespace Dataset

/-- What the reader of dataset files refuses the dataset for. -/
def fault? (d : Dataset) : Option SuiteFault :=
  if d.parameters.isEmpty then some (.missingOrEmpty "parameters")
  else (d.parameters.findIdx? fun p => !isNamed (.ofBindings p)).map .namelessSet

/-- In each set of parameters the names are distinct, and the values are such as YAML gives. -/
structure WasRead (d : Dataset) : Prop where
  distinct : ∀ p ∈ d.parameters, p.Distinct
  readable : ∀ p ∈ d.parameters, p.IsReadable

lemma WasRead.withGolden {d : Dataset} (h : d.WasRead) (g : Golden) :
    { d with golden := some g }.WasRead := ⟨h.distinct, h.readable⟩

/-- What a dataset is read from. -/
lemma exists_of_parse {content : String} {source : Option String} {d : Dataset}
    (h : parse content source = .ok d) :
    ∃ entries items, Yaml.read content = .ok (.dict entries) ∧
      textAt? nameKey entries = some d.name ∧ itemsAt? "parameters" entries = some items ∧
      field (.dict entries) "description" (optional text) (some none) = .ok d.description ∧
      listOf mapping items = .ok d.parameters := by
  unfold parse at h
  obtain ⟨entries, hentries, h⟩ := Except.bind_eq_ok.mp h
  have hread : Yaml.read content = .ok (.dict entries) := by
    unfold mappingOf at hentries
    split at hentries
    · rename_i hread
      rw [hread, Except.ok.inj hentries]
    all_goals cases hentries
  dsimp only at h
  split at h
  · rename_i hname
    split at h
    · rename_i hitems
      split at h
      · cases h
      · unfold accepted at h
        split at h
        · rename_i hchecked
          obtain rfl := Except.ok.inj h
          obtain ⟨build, sets, hbuild, hsets, rfl⟩ := Checked.seq_eq_ok.mp hchecked
          obtain ⟨build', golden, hbuild', -, rfl⟩ := Checked.seq_eq_ok.mp hbuild
          obtain ⟨description, hdescription, rfl⟩ := Checked.map_eq_ok.mp hbuild'
          exact ⟨entries, _, hread, hname, hitems, hdescription, Checked.within_eq_ok.mp hsets⟩
        · cases h
    · cases h
  · cases h

lemma wasRead_of_parse {content : String} {source : Option String} {d : Dataset}
    (h : parse content source = .ok d) : d.WasRead := by
  obtain ⟨entries, items, hread, -, hitems, -, hlist⟩ := exists_of_parse h
  have hreadable : ∀ v ∈ items, Yaml.Readable v := by
    unfold itemsAt? at hitems
    split at hitems
    · rename_i v vs hnamed
      obtain rfl := Option.some.inj hitems
      exact readableItems_iff.mp (readable_of_named? (Yaml.readable_of_read hread).1 hnamed)
    · cases hitems
  refine ⟨fun p hp => ?_, fun p hp => ?_⟩
  all_goals obtain ⟨v, hv, hmapping⟩ := exists_of_listOf hlist p hp
  · exact distinct_of_mapping hmapping
  · exact isReadable_of_mapping (hreadable v hv) hmapping

/-- A golden is read as it was written. -/
lemma read_goldenEntries {g : Golden} (h : ∀ m ∈ g.metadata, m.Distinct) :
    Golden.read (.ofBindings (goldenEntries g)) = .ok g := by
  obtain ⟨response, model, recordedAt, metadata⟩ := g
  have hmetadata : ∀ entries, Value.field? entries "metadata" =
      metadata.map .ofBindings → field entries "metadata" (optional mapping) (some none) =
        .ok metadata := by
    intro entries hentries
    unfold field
    rw [hentries]
    cases metadata with
    | none => rfl
    | some m =>
      show ((some <$> mapping (.ofBindings m)).within "metadata" : Checked _) = _
      rw [mapping_ofBindings (h m rfl)]
      rfl
  rw [Golden.read, hmetadata]
  · cases model <;> cases recordedAt <;> cases metadata <;> rfl
  · cases model <;> cases recordedAt <;> cases metadata <;> rfl

/-- What the reader finds in a written dataset. -/
lemma exists_written (d : Dataset) : ∃ entries, d.written = .dict entries ∧
    textAt? nameKey entries = some d.name ∧
    itemsAt? "parameters" entries =
      (if d.parameters.isEmpty then none else some (d.parameters.map .ofBindings)) ∧
    field (.dict entries) "description" (optional text) (some none) = .ok d.description ∧
    nestedAt "golden" entries = d.golden.map fun g => .ofBindings (goldenEntries g) := by
  obtain ⟨name, description, golden, parameters⟩ := d
  refine ⟨_, rfl, ?_, ?_, ?_, ?_⟩
  all_goals cases description <;> cases golden <;> cases parameters <;> rfl

/-- **A written dataset is read as it was**, unless it has no sets of parameters or one without a
name. -/
theorem parse_of_written {content : String} {d : Dataset} (hd : d.WasRead)
    (hgolden : ∀ g ∈ d.golden, ∀ m ∈ g.metadata, m.Distinct)
    (hread : Yaml.read content = .ok d.written) (source : Option String) :
    parse content source = d.fault?.elim (.ok d) fun f => .error (f.failure source) := by
  obtain ⟨entries, hentries, hname, hitems, hdescription, hnested⟩ := exists_written d
  have hmapping : mappingOf content ".dset" source = .ok entries := by
    rw [mappingOf, hread, hentries]
  have hsets : listOf mapping (d.parameters.map .ofBindings) = .ok d.parameters :=
    listOf_map fun p hp => mapping_ofBindings (hd.distinct p hp)
  unfold parse fault?
  simp only [bind, Except.bind, hmapping, hname, hitems]
  cases hempty : d.parameters.isEmpty with
  | true => rfl
  | false =>
    simp only [Bool.false_eq_true, if_false, List.findIdx?_map, Function.comp_def]
    cases hfault : d.parameters.findIdx? fun p => !isNamed (.ofBindings p) with
    | some i => rfl
    | none =>
      dsimp only
      rw [hdescription, hnested, hsets]
      cases hg : d.golden with
      | none =>
        show Except.ok (Dataset.mk d.name d.description none d.parameters) = .ok d
        rw [← hg]
      | some g =>
        dsimp only [Option.map]
        rw [read_goldenEntries (hgolden g hg)]
        show Except.ok (Dataset.mk d.name d.description (some g) d.parameters) = .ok d
        rw [← hg]

end Dataset

end Stencil
