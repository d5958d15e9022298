import Stencil.Proofs.Context.Binding
import Stencil.Proofs.Dataset.Shelf

/-!
What a recording leaves of a dataset's file.

A recording writes the file anew: the dataset that is on the shelf or in the file, with another
golden, or an empty dataset where there is none that can be read (`run_fetchOrNew_of_mapping`). So
what the reader of datasets does not read is lost, and where it refuses the file all of it is
(`record_entries`). What it reads comes back, but for what YAML does not give back.
-/

namespace Stencil.Dataset

open Record Suite Yaml

variable {tree tree' : Files.Tree} {name time content directory : String} {s s' : Shelf}
  {d : Dataset} {r : Completion.Response} {entries : List (Value × Value)} {b : Bindings}

/-! ### Reading what is written -/

/-- The names of the entries that are written. -/
def fieldNames : List String := ["name", "description", "golden", "parameters"]

lemma isLine_of_mem {n : String} {v : Value} (hn : n ∈ fieldNames) (hv : Readable v)
    (hlines : Scan.OnLines v) : Scan.IsLine (.text n, v) := by
  have hshort : ∀ n ∈ fieldNames, (quotedText (rereadText n)).length ≤ simpleKeyLimit := by
    decide +kernel
  exact ⟨⟨n, rfl, hshort n hn⟩, hv, hlines⟩

/-- Entries that are left of others have distinct names if the others have. -/
lemma distinct_present (h : b.Distinct) : (present b).Distinct :=
  h.sublist (List.filter_sublist.map _)

lemma readable_goldenEntries {g : Golden} (h : ∀ m ∈ g.metadata, m.Distinct ∧ m.IsReadable) :
    Readable (.ofBindings (goldenEntries g)) := by
  refine Bindings.readable_ofBindings (fun e he => ?_) (distinct_present ?_)
  · have hmem := List.mem_of_mem_filter he
    simp only [List.mem_cons, List.not_mem_nil, or_false] at hmem
    rcases hmem with rfl | rfl | rfl | rfl
    · trivial
    · cases g.model <;> trivial
    · cases g.recordedAt <;> trivial
    · cases hm : g.metadata with
      | none => trivial
      | some m => exact Bindings.readable_ofBindings (h m hm).2 (h m hm).1
  · exact (by decide : ["response", "model", "recorded_at", "metadata"].Nodup)

/-- Names bound once have the values of their entries. -/
lemma find?_of_mem (h : b.Distinct) : ∀ e ∈ b, b.find? e.1 = some e.2 := by
  induction b with
  | nil => exact nofun
  | cons f fs ih =>
    obtain ⟨hf, hfs⟩ := List.nodup_cons.mp h
    refine List.forall_mem_cons.mpr ⟨by rw [Bindings.find?_cons, if_pos rfl], fun e he => ?_⟩
    have hne : e.1 ≠ f.1 := fun heq => hf (List.mem_map.mpr ⟨e, he, heq⟩)
    rw [Bindings.find?_cons, if_neg hne, ih hfs e he]

/-- The entries of a dataset, as they are written. -/
lemma exists_fields (d : Dataset) : ∃ b : Bindings, d.written = .ofBindings b ∧ b ≠ [] ∧
    b.Distinct ∧ (∀ e ∈ b, e.1 ∈ fieldNames) ∧
    b.find? "name" = some (.text d.name) ∧ b.find? "description" = d.description.map .text ∧
    b.find? "golden" = d.golden.map (.ofBindings <| goldenEntries ·) ∧
    b.find? "parameters" = some (.list (d.parameters.map .ofBindings)) := by
  obtain ⟨name, description, golden, parameters⟩ := d
  refine ⟨_, rfl, List.cons_ne_nil _ _, distinct_present (by decide : fieldNames.Nodup), ?_, ?_⟩
  · exact fun e he => List.mem_map_of_mem (f := Prod.fst) (List.mem_of_mem_filter he)
  · cases description <;> cases golden <;> exact ⟨rfl, rfl, rfl, rfl⟩

/-- What is said of each field holds of the entries that are written. -/
lemma forall_mem_fields {P : String → Value → Prop} (hdistinct : b.Distinct)
    (hnames : ∀ e ∈ b, e.1 ∈ fieldNames) (h : ∀ n ∈ fieldNames, ∀ v ∈ b.find? n, P n v) :
    ∀ e ∈ b, P e.1 e.2 := fun e he =>
  h e.1 (hnames e he) e.2 (find?_of_mem hdistinct e he)

/-- Names that are read as they were stand for what their values are read as. -/
lemma reread_ofBindings (hdistinct : b.Distinct) (hnames : ∀ e ∈ b, rereadText e.1 = e.1) :
    reread (.ofBindings b) = .ofBindings (b.map fun e => (e.1, reread e.2)) := by
  have hentries : rereadEntries (b.map fun e => (Value.text e.1, e.2)) =
      b.map fun e => (Value.text e.1, reread e.2) := by
    clear hdistinct
    induction b with
    | nil => rfl
    | cons e es ih =>
      obtain ⟨he, hes⟩ := List.forall_mem_cons.mp hnames
      rw [List.map_cons, rereadEntries, ih hes, reread, he]
      rfl
  have hdiffer : KeysDiffer (b.map fun e => (Value.text e.1, reread e.2)) :=
    List.pairwise_map.mpr <| (List.pairwise_map.mp hdistinct).imp fun hne =>
      Bool.eq_false_iff.mpr fun hsame => hne (Value.text.inj (Value.same_text.mp hsame))
  calc
    reread (.ofBindings b) = .dictOf (rereadEntries (b.map fun e => (Value.text e.1, e.2))) := rfl
    _ = .dict (b.map fun e => (Value.text e.1, reread e.2)) := by
      rw [hentries, dictOf_of_keysDiffer hdiffer]
    _ = .ofBindings (b.map fun e => (e.1, reread e.2)) := by
      rw [Value.ofBindings, List.map_map]
      rfl

lemma find?_map (f : Value → Value) (b : Bindings) (n : String) :
    Bindings.find? (b.map fun e => (e.1, f e.2)) n = (b.find? n).map f := by
  induction b with
  | nil => rfl
  | cons e es ih =>
    rw [List.map_cons, Bindings.find?_cons, ih, Bindings.find?_cons]
    split <;> rfl

/-- The text of a dataset is read as the dataset, but for what its values lose. -/
lemma read_written (hd : d.WasRead)
    (hgolden : ∀ g ∈ d.golden, ∀ m ∈ g.metadata, m.Distinct ∧ m.IsReadable)
    (h : Yaml.write d.written = .ok content) : Yaml.read content = .ok (reread d.written) := by
  obtain ⟨b, hb, hne, hdistinct, hnames, hname, hdescription, hg, hparameters⟩ := exists_fields d
  rw [hb] at h ⊢
  refine read_write (by simpa using hne) ?_ h
  have hlines : ∀ n ∈ fieldNames, ∀ v ∈ b.find? n, Scan.IsLine (.text n, v) := by
    simp only [fieldNames, List.forall_mem_cons]
    refine ⟨?_, ?_, ?_, ?_, nofun⟩
    · rintro v hv
      obtain rfl := Option.some.inj (hname.symm.trans hv)
      exact isLine_of_mem (by decide) trivial rfl
    · intro v hv
      obtain ⟨t, -, rfl⟩ := Option.map_eq_some_iff.mp (hdescription.symm.trans hv)
      exact isLine_of_mem (by decide) trivial rfl
    · intro v hv
      obtain ⟨g, hmem, rfl⟩ := Option.map_eq_some_iff.mp (hg.symm.trans hv)
      exact isLine_of_mem (by decide) (readable_goldenEntries (hgolden g hmem)) rfl
    · intro v hv
      obtain rfl := Option.some.inj (hparameters.symm.trans hv)
      refine isLine_of_mem (by decide) (readableItems_iff.mpr fun v hv => ?_) fun v hv => ?_
      · obtain ⟨p, hp, rfl⟩ := List.mem_map.mp hv
        exact Bindings.readable_ofBindings (hd.readable p hp) (hd.distinct p hp)
      · obtain ⟨p, -, rfl⟩ := List.mem_map.mp hv
        rfl
  exact List.forall_mem_map.mpr (forall_mem_fields hdistinct hnames hlines)

/-- What is found in a dataset's text when it is read. -/
lemma exists_reread_written (d : Dataset) : ∃ entries, reread d.written = .dict entries ∧
    (∀ e ∈ entries, ∃ n ∈ fieldNames, e.1 = .text n) ∧
    Value.named? "name" entries = some (reread (.text d.name)) ∧
    Value.named? "description" entries = d.description.map (reread <| .text ·) ∧
    Value.named? "golden" entries = d.golden.map (reread <| .ofBindings <| goldenEntries ·) ∧
    Value.named? "parameters" entries =
      some (reread (.list (d.parameters.map .ofBindings))) := by
  obtain ⟨b, hb, -, hdistinct, hnames, hname, hdescription, hgolden, hparameters⟩ :=
    exists_fields d
  have hplain : ∀ n ∈ fieldNames, '\x85' ∉ n.toList := by decide
  have hkept : ∀ n ∈ fieldNames, rereadText n = n := fun n hn => rereadText_of_notMem (hplain n hn)
  have hfound (n : String) : (Value.ofBindings (b.map fun e => (e.1, reread e.2))).field? n =
      (b.find? n).map reread := by
    rw [Bindings.field?_ofBindings, find?_map]
  refine ⟨_, hb ▸ reread_ofBindings hdistinct fun e he => hkept _ (hnames e he), ?_, ?_, ?_, ?_, ?_⟩
  · refine List.forall_mem_map.mpr (List.forall_mem_map.mpr fun e he => ?_)
    exact ⟨e.1, hnames e he, rfl⟩
  · exact (hfound "name").trans (by rw [hname]; rfl)
  · exact (hfound "description").trans (by rw [hdescription, Option.map_map]; rfl)
  · exact (hfound "golden").trans (by rw [hgolden, Option.map_map]; rfl)
  · exact (hfound "parameters").trans (by rw [hparameters]; rfl)

/-! ### What a recording starts from -/

/-- The dataset that a recording starts from where the file has the text: the one on the shelf,
else the one in the text, else an empty one. -/
def Shelf.takenUp (s : Shelf) (content name : String) : Dataset :=
  (s.loaded.lookup name).getD
    ((parse content (some (s.pathFor name))).toOption.getD { name })

/-- A mapping that is refused is refused with an error of the library. -/
lemma parse_of_mapping {source : Option String} (hread : Yaml.read content = .ok (.dict entries))
    {f : Failure} (h : parse content source = .error f) :
    ∃ m src, f = .error (.suiteFile m src) := by
  have hfault (g : SuiteFault) (h : (.error (g.failure source) : Except Failure Dataset) =
      .error f) : ∃ m src, f = .error (.suiteFile m src) :=
    ⟨_, _, (Except.error.inj h).symm⟩
  unfold parse at h
  rw [mappingOf, hread] at h
  simp only [bind, Except.bind] at h
  split at h
  · split at h
    · split at h
      · exact hfault _ h
      · unfold accepted at h
        split at h
        · cases h
        · exact hfault _ h
    · exact hfault _ h
  · exact hfault _ h

lemma run_fetchOrNew_of_mapping (hfile : fileText tree (s.pathFor name) = .ok content)
    (hread : Yaml.read content = .ok (.dict entries)) :
    ((fetchOrNew tree name).run s).1 = .ok (s.takenUp content name) := by
  have hload : load tree (s.pathFor name) = parse content (some (s.pathFor name)) := by
    rw [load, hfile]
    rfl
  rw [run_fetchOrNew, run_fetch, Shelf.takenUp]
  cases s.loaded.lookup name with
  | some d => rfl
  | none =>
    dsimp only
    rw [hload]
    cases hparse : parse content (some (s.pathFor name)) with
    | ok d => rfl
    | error f =>
      obtain ⟨m, src, rfl⟩ := parse_of_mapping hread hparse
      rfl

/-! ### What is kept of a dataset that was read -/

/-- Not null. -/
def isPresent : Value → Bool
  | .null => false
  | _ => true

/-- Entries of a dataset's file that are written again as they are: there are none but those that
are read, besides nulls, and their texts are such as are not changed by reading or writing. -/
structure IsPlain (entries : List (Value × Value)) : Prop where
  fields : ∀ e ∈ entries, e.2 = .null ∨ ∃ n ∈ fieldNames, e.1 = .text n
  settled : ∀ n v, n ≠ "golden" → Value.named? n entries = some v → IsSettled v
  description : ∀ bs, Value.named? "description" entries ≠ some (.bytes bs)
  parameters : ∀ items, Value.named? "parameters" entries = some (.list items) →
    ∀ v ∈ items, ∃ b, v = .ofBindings b

lemma distinct_of_readable (h : Readable (.ofBindings b)) : b.Distinct := by
  refine List.pairwise_map.mpr <| (List.pairwise_map.mp h.2).imp fun hdiffer heq => ?_
  exact Bool.eq_false_iff.mp hdiffer (Value.same_text.mpr (congrArg Value.text heq))

/-- Sets of parameters whose names are texts are read as they are. -/
lemma items_eq_of_listOf {items : List Value} {sets : List Bindings}
    (hreadable : ∀ v ∈ items, Readable v) (hplain : ∀ v ∈ items, ∃ b, v = .ofBindings b)
    (h : listOf mapping items = .ok sets) : items = sets.map .ofBindings := by
  have hread := Checked.forall₂_of_all_mapIdx h
  clear h
  induction hread with
  | nil => rfl
  | cons hv _ ih =>
    obtain ⟨hfirst, hrest⟩ := List.forall_mem_cons.mp hreadable
    obtain ⟨⟨b, rfl⟩, hplains⟩ := List.forall_mem_cons.mp hplain
    rw [mapping_ofBindings (distinct_of_readable hfirst)] at hv
    rw [Checked.ok.inj hv, ih hrest hplains]
    rfl

lemma description_of_field (hplain : ∀ bs, Value.named? "description" entries ≠ some (.bytes bs))
    {description : Option String}
    (h : field (.dict entries) "description" (optional text) (some none) = .ok description) :
    (Value.named? "description" entries).filter isPresent = description.map .text := by
  unfold field at h
  rw [show (Value.dict entries).field? "description" = Value.named? "description" entries from rfl]
    at h
  cases hv : Value.named? "description" entries with
  | none =>
    rw [hv] at h
    obtain rfl := Checked.ok.inj h
    rfl
  | some v =>
    rw [hv] at h
    have h := Checked.within_eq_ok.mp h
    cases v with
    | null =>
      obtain rfl := Checked.ok.inj h
      rfl
    | text t =>
      obtain rfl := Checked.ok.inj h
      rfl
    | bytes bs => exact absurd hv (hplain bs)
    | _ => cases h

/-- What is found under each name but the golden's is written as it was read. -/
lemma named?_of_parse {source : Option String} (hread : Yaml.read content = .ok (.dict entries))
    (hplain : IsPlain entries) (hparse : parse content source = .ok d) :
    Value.named? "name" entries = some (reread (.text d.name)) ∧
      (Value.named? "description" entries).filter isPresent =
        d.description.map (reread <| .text ·) ∧
      Value.named? "parameters" entries =
        some (reread (.list (d.parameters.map .ofBindings))) := by
  obtain ⟨es, items, hes, hname, hitems, hdescription, hsets⟩ := exists_of_parse hparse
  obtain rfl : entries = es := Value.dict.inj (Except.ok.inj (hread.symm.trans hes))
  have hreadable := readable_of_read hread
  have hkept {n : String} {v : Value} (hn : n ≠ "golden") (hv : Value.named? n entries = some v) :
      reread v = v :=
    reread_eq_self v (readable_of_named? hreadable.1 hv) (hplain.settled n v hn hv)
  refine ⟨?_, ?_, ?_⟩
  · unfold textAt? at hname
    split at hname
    · rename_i t hnamed
      obtain rfl := Option.some.inj hname
      exact hnamed.trans (congrArg some (hkept (by decide) hnamed).symm)
    · cases hname
  · have hfield := description_of_field hplain.description hdescription
    cases ht : d.description with
    | none => rw [hfield, ht]; rfl
    | some t =>
      rw [ht] at hfield
      obtain ⟨hnamed, -⟩ := Option.filter_eq_some_iff.mp hfield
      rw [hfield]
      exact congrArg some (hkept (by decide) hnamed).symm
  · unfold itemsAt? at hitems
    split at hitems
    · rename_i v vs hnamed
      obtain rfl := Option.some.inj hitems
      have hlist := readableItems_iff.mp (readable_of_named? hreadable.1 hnamed)
      have hsame := items_eq_of_listOf hlist (hplain.parameters _ hnamed) hsets
      rw [← hsame]
      exact hnamed.trans (congrArg some (hkept (by decide) hnamed).symm)
    · cases hitems

/-! ### The entries before and after -/

lemma eq_of_text_same {n : String} {k : Value} (h : (Value.text n).same k = true) :
    k = .text n := by
  cases k <;> simp_all [Value.same]

/-- Under a key that no field has nothing is found but nulls. -/
lemma null_of_entry {k v : Value} (hk : ∀ n ∈ fieldNames, k ≠ .text n)
    (hfields : ∀ e ∈ entries, e.2 = .null ∨ ∃ n ∈ fieldNames, e.1 = .text n)
    (h : Value.entry? k entries = some v) : v = .null := by
  obtain ⟨e, he, rfl⟩ := Option.map_eq_some_iff.mp h
  have hsame : e.1.same k = true := by simpa using List.find?_some he
  rcases hfields e (List.mem_of_find?_eq_some he) with hnull | ⟨n, hn, hname⟩
  · exact hnull
  · rw [hname] at hsame
    exact absurd (eq_of_text_same hsame) (hk n hn)

lemma entry?_eq_none {k : Value} (hk : ∀ n ∈ fieldNames, k ≠ .text n)
    (hfields : ∀ e ∈ entries, ∃ n ∈ fieldNames, e.1 = .text n) :
    Value.entry? k entries = none := by
  refine Option.map_eq_none_iff.mpr (List.find?_eq_none.mpr fun e he hsame => ?_)
  obtain ⟨n, hn, hname⟩ := hfields e he
  rw [hname] at hsame
  exact hk n hn (eq_of_text_same hsame)

/-- Plain entries are found as they were under every key but the golden's. -/
lemma entry?_of_parse {source : Option String} {entries' : List (Value × Value)}
    (hread : Yaml.read content = .ok (.dict entries)) (hplain : IsPlain entries)
    (hparse : parse content source = .ok d) {golden : Option Golden}
    (h : reread { d with golden := golden }.written = .dict entries') {k : Value}
    (hk : k ≠ .text "golden") :
    Value.entry? k entries' = (Value.entry? k entries).filter isPresent := by
  obtain ⟨_, hes, hnames, hname, hdescription, -, hparameters⟩ :=
    exists_reread_written { d with golden := golden }
  obtain rfl := Value.dict.inj (h.symm.trans hes)
  obtain ⟨hname₀, hdescription₀, hparameters₀⟩ := named?_of_parse hread hplain hparse
  by_cases hfield : ∃ n ∈ fieldNames, k = .text n
  · obtain ⟨n, hn, rfl⟩ := hfield
    change Value.named? n entries' = (Value.named? n entries).filter isPresent
    simp only [fieldNames, List.mem_cons, List.not_mem_nil, or_false] at hn
    rcases hn with rfl | rfl | rfl | rfl
    · rw [hname, hname₀]
      rfl
    · rw [hdescription, hdescription₀]
    · exact absurd rfl hk
    · rw [hparameters, hparameters₀]
      rfl
  · have hk : ∀ n ∈ fieldNames, k ≠ .text n := fun n hn heq => hfield ⟨n, hn, heq⟩
    rw [entry?_eq_none hk hnames]
    refine (Option.filter_eq_none_iff.mpr fun v hv => ?_).symm
    rw [null_of_entry hk hplain.fields hv]
    exact Bool.false_ne_true

lemma readable_of_goldenOf {g : Golden} (hlatency : Readable r.latencyMs)
    (h : goldenOf r time = .ok g) : ∀ m ∈ g.metadata, m.Distinct ∧ m.IsReadable := by
  refine fun m hm => ⟨distinct_of_goldenOf h m hm, ?_⟩
  unfold goldenOf at h
  split at h
  · cases h
  · obtain rfl := Except.ok.inj h
    obtain rfl := Option.some.inj hm
    exact List.forall_mem_cons.mpr ⟨trivial, List.forall_mem_singleton.mpr hlatency⟩

/-- **A recording leaves the golden in the file, and of the rest what the reader of datasets made
of it.** Nothing is kept under other keys than the reader knows. Where the reader took the file, and
the shelf did not have the dataset from before, plain entries are as they were; where it refused
it, the name of the file and the golden are all that is left. -/
theorem record_entries (hs : s.Arises directory) (ht : tree.Sound)
    (hfile : fileText tree (s.pathFor name) = .ok content)
    (hread : Yaml.read content = .ok (.dict entries)) (hlatency : Readable r.latencyMs)
    (h : (record tree name r time).run s = (.ok tree', s')) :
    ∃ content' golden entries', fileText tree' (s.pathFor name) = .ok content' ∧
      Yaml.read content' = .ok (.dict entries') ∧ goldenOf r time = .ok golden ∧
      .dict entries' =
        reread { s.takenUp content name with golden := some golden }.written ∧
      Value.named? "golden" entries' = some (reread (.ofBindings (goldenEntries golden))) ∧
      (∀ e ∈ entries', ∃ n ∈ fieldNames, e.1 = .text n) ∧
      (s.loaded.lookup name = none →
        (∀ d, parse content (some (s.pathFor name)) = .ok d → IsPlain entries →
          ∀ k, k ≠ .text "golden" →
            Value.entry? k entries' = (Value.entry? k entries).filter isPresent) ∧
        ∀ f, parse content (some (s.pathFor name)) = .error f →
          Value.named? "name" entries' = some (reread (.text name)) ∧
          Value.named? "description" entries' = none ∧
          Value.named? "parameters" entries' = some (.list [])) := by
  have hsound := sound_of_arises hs
  obtain ⟨d, s₁, g, hrun, hg, hsaved, -⟩ := exists_of_record h
  obtain ⟨hsound₁, hok⟩ := sound_fetchOrNew hsound tree name
  rw [hrun] at hsound₁ hok
  obtain ⟨hpath, hd⟩ := hok d rfl
  have hpathFor : s₁.pathFor name = s.pathFor name := by
    rw [Shelf.pathFor, Shelf.pathFor, Shelf.folder, Shelf.folder, hsound₁.directory_eq,
      hsound.directory_eq]
  obtain rfl : d = s.takenUp content name := by
    have htaken := run_fetchOrNew_of_mapping hfile hread
    rw [hrun] at htaken
    exact Except.ok.inj htaken
  obtain ⟨content', hwrite, htext⟩ := fileText_of_saved ht hpath (hpathFor ▸ hsaved)
  have hmetadata : ∀ g' ∈ some g, ∀ m ∈ g'.metadata, m.Distinct ∧ m.IsReadable := by
    rintro _ ⟨⟩
    exact readable_of_goldenOf hlatency hg
  have hread' := read_written (hd.withGolden g) hmetadata hwrite
  obtain ⟨entries', hentries, hnames, hname, hdescription, hgolden, hparameters⟩ :=
    exists_reread_written { s.takenUp content name with golden := some g }
  refine ⟨content', g, entries', htext, hread'.trans (congrArg _ hentries), hg, hentries.symm,
    hgolden, hnames, fun hfresh => ?_⟩
  unfold Shelf.takenUp at hentries hname hdescription hparameters
  rw [hfresh] at hentries hname hdescription hparameters
  refine ⟨fun d hparse hplain k hk => ?_, fun f hparse => ?_⟩
  · rw [hparse] at hentries
    exact entry?_of_parse hread hplain hparse hentries hk
  · rw [hparse] at hname hdescription hparameters
    exact ⟨hname, hdescription, hparameters⟩

/-! ### A file that is refused -/

/-- A file with a set of parameters that has no name. -/
def namelessText : String := "name: users\nnote: by hand\nparameters:\n- name: a\n- age: 7\n"

def namelessTree : Files.Tree where
  entries := [⟨["p", "eval", "datasets", "a.dset"], Files.Tree.encode namelessText⟩]
  directories := createdTree.directories

def namelessEntries : List (Value × Value) :=
  [(.text "name", .text "users"), (.text "note", .text "by hand"),
    (.text "parameters", .list [.ofBindings [("name", .text "a")], .ofBindings [("age", .int 7)]])]

lemma read_namelessText : Yaml.read namelessText = .ok (.dict namelessEntries) :=
  read_of_toOption (by decide +kernel)

lemma sound_namelessTree : namelessTree.Sound :=
  .of_paths (List.forall_mem_singleton.mpr (by decide)) (by decide)

/-- Where the reader refuses a set of parameters, the recording leaves none. -/
theorem record_entries_nameless :
    (record namelessTree "a" { text := some "hi", model := "m" } "now").run
        { directory := "p" } = (.ok createdTree, Shelf.put { directory := "p" } "a" created) ∧
      ∃ content' entries', fileText createdTree "p/eval/datasets/a.dset" = .ok content' ∧
        Yaml.read content' = .ok (.dict entries') ∧
        Value.named? "parameters" namelessEntries ≠ some (.list []) ∧
        Value.named? "parameters" entries' = some (.list []) := by
  have hrun : (show Except Failure Files.Tree × Shelf from
      (record namelessTree "a" { text := some "hi", model := "m" } "now").run
        { directory := "p" }) = (.ok createdTree, Shelf.put { directory := "p" } "a" created) := by
    decide +kernel
  have hfile : fileText namelessTree (Shelf.pathFor { directory := "p" } "a") =
      .ok namelessText := by
    decide +kernel
  have hparse : parse namelessText (some (Shelf.pathFor { directory := "p" } "a")) =
      .error ((SuiteFault.namelessSet 1).failure (some "p/eval/datasets/a.dset")) := by
    decide +kernel
  have hlatency : Readable ({ text := some "hi", model := "m" } : Completion.Response).latencyMs :=
    trivial
  obtain ⟨content', _, entries', htext, hentries, -, -, -, -, hrest⟩ :=
    record_entries (.new : Shelf.Arises "p" _) sound_namelessTree hfile read_namelessText hlatency
      hrun
  obtain ⟨-, -, hparameters⟩ := (hrest rfl).2 _ hparse
  exact ⟨hrun, content', entries', htext, hentries, by decide +kernel, hparameters⟩

end Stencil.Dataset
