import Mathlib.Data.List.Forall2
import Stencil.Proofs.Record.Read
import Stencil.Proofs.Render
import Stencil.Proofs.Value.Written
import Stencil.Suite.Verify

/-!
What becomes of the expectations that a suite's file writes down.

An expectation is read from the first entry of its mapping (`assertionOf_eq_ok`), and expectations
are read in order, each test keeping those of its own two lists (`keeps_of_draftOf`). So a suite
that is read has every entry of the file exactly if every mapping has one entry, and no more
(`parse_keeps`). Reading fails by an error of the suite's file, unless the first key of a mapping
has no text that could be put into the message.
-/

namespace Stencil.Suite

open Record

variable {source : Option String} {test : String} {f : Failure}

/-! ### What is written -/

/-- The items of a list of expectations. -/
def itemsIn : Option Value → List Value
  | some (.list vs) => vs
  | _ => []

/-- The entries of a mapping; nothing else has any. -/
def entriesOf : Value → List (Value × Value)
  | .dict es => es
  | _ => []

/-- The entries of the mappings in a list of expectations, one behind the other. -/
def entriesIn (field : Option Value) : List (Value × Value) := (itemsIn field).flatMap entriesOf

/-- An expectation as an entry of a mapping. -/
def Assertion.entry (a : Assertion) : Value × Value := (.text a.operator, a.value)

/-- All that a test expects, of the text first. -/
def Test.expected (t : Test) : List Assertion := t.rendered.getD [] ++ t.completed.getD []

/-- A mapping starts with the entry that an expectation is. -/
def StartsWith (v : Value) (a : Assertion) : Prop := ∃ rest, v = .dict (a.entry :: rest)

/-- The item is a mapping of one entry. -/
def IsSingle (v : Value) : Prop := ∃ e, v = .dict [e]

lemma length_le_of_startsWith {vs : List Value} {as : List Assertion}
    (h : List.Forall₂ StartsWith vs as) : as.length ≤ (vs.flatMap entriesOf).length := by
  induction h with
  | nil => exact Nat.le_refl 0
  | cons hv _ ih =>
    obtain ⟨rest, rfl⟩ := hv
    simp only [List.length_cons, List.flatMap_cons, List.length_append, entriesOf]
    omega

/-- Expectations are the first entries of the mappings that they are read from, so they are all the
entries exactly if no mapping has another one. -/
lemma map_entry_eq_iff {vs : List Value} {as : List Assertion}
    (h : List.Forall₂ StartsWith vs as) :
    as.map Assertion.entry = vs.flatMap entriesOf ↔ ∀ v ∈ vs, IsSingle v := by
  induction h with
  | nil => exact iff_of_true rfl nofun
  | @cons v a vs as hv hrest ih =>
    obtain ⟨rest, rfl⟩ := hv
    rw [List.forall_mem_cons, ← ih, List.map_cons, List.flatMap_cons]
    cases rest with
    | nil =>
      have hsingle : IsSingle (.dict [a.entry]) := ⟨a.entry, rfl⟩
      simp [hsingle, entriesOf]
    | cons e es =>
      -- There are more entries than mappings, so the lists differ in their lengths.
      refine iff_of_false (fun heq => ?_) (fun hboth => ?_)
      · have hlong := length_le_of_startsWith hrest
        have hlengths := congrArg List.length heq
        simp only [entriesOf, List.length_cons, List.length_append, List.length_map] at hlengths
        omega
      · obtain ⟨_, hsingle⟩ := hboth.1
        cases hsingle

/-! ### How reading may fail -/

/-- An error about the file of a suite, with the name that the file goes by. -/
def IsFileError (source : Option String) (f : Failure) : Prop :=
  ∃ message, f = .error (.suiteFile message source)

lemma isFileError_failure (fault : SuiteFault) (source : Option String) :
    IsFileError source (fault.failure source) := ⟨_, rfl⟩

/-- The first key of a mapping has no text. -/
def IsUnshown (v : Value) (f : Failure) : Prop :=
  ∃ k w rest fault, v = .dict ((k, w) :: rest) ∧ k.show = .error fault ∧ f = .value fault

/-- A list holds a mapping whose first key has no text. -/
def HoldsUnshown (field : Option Value) (f : Failure) : Prop := ∃ v ∈ itemsIn field, IsUnshown v f

/-! ### Expectations -/

lemma assertionOf_eq_ok {i : ℕ} {v : Value} {a : Assertion}
    (h : assertionOf source test i v = .ok a) :
    StartsWith v a ∧ (Operator.ofWord? a.operator).isSome = true := by
  unfold assertionOf at h
  split at h
  · rename_i op w rest
    split at h
    · cases h
    · split at h
      · cases h
      · rename_i hknown
        obtain rfl := Except.ok.inj h
        exact ⟨⟨rest, rfl⟩, by simpa [Option.isSome_iff_ne_none] using hknown⟩
  · obtain ⟨_, _, h⟩ := Except.bind_eq_ok.mp h
    cases h
  · cases h

lemma assertionOf_eq_error {i : ℕ} {v : Value} (h : assertionOf source test i v = .error f) :
    IsFileError source f ∨ IsUnshown v f := by
  unfold assertionOf at h
  split at h
  · split at h
    · exact .inl (Except.error.inj h ▸ isFileError_failure _ _)
    · split at h
      · exact .inl (Except.error.inj h ▸ isFileError_failure _ _)
      · cases h
  · rename_i k w rest _
    rcases Except.bind_eq_error.mp h with h | ⟨_, _, h⟩
    · cases hshow : k.show with
      | ok s =>
        rw [hshow] at h
        cases h
      | error fault =>
        rw [hshow] at h
        exact .inr ⟨k, w, rest, fault, rfl, hshow, (Except.error.inj h).symm⟩
    · exact .inl (Except.error.inj h ▸ isFileError_failure _ _)
  · exact .inl (Except.error.inj h ▸ isFileError_failure _ _)

/-- The operators of expectations are known, so none is found unknown when it is checked. -/
def AllKnown (as : List Assertion) : Prop :=
  ∀ a ∈ as, (Operator.ofWord? a.operator).isSome = true

lemma assertionsOf_eq_ok {i : ℕ} {vs : List Value} {as : List Assertion}
    (h : assertionsOf source test i vs = .ok as) :
    List.Forall₂ StartsWith vs as ∧ AllKnown as := by
  induction vs generalizing i as with
  | nil =>
    obtain rfl := Except.ok.inj h
    exact ⟨.nil, nofun⟩
  | cons v vs ih =>
    obtain ⟨a, ha, h⟩ := Except.bind_eq_ok.mp h
    obtain ⟨bs, hbs, h⟩ := Except.bind_eq_ok.mp h
    obtain rfl := Except.ok.inj h
    obtain ⟨hstart, hknown⟩ := assertionOf_eq_ok ha
    obtain ⟨hstarts, hall⟩ := ih hbs
    exact ⟨.cons hstart hstarts, List.forall_mem_cons.mpr ⟨hknown, hall⟩⟩

lemma assertionsOf_eq_error {i : ℕ} {vs : List Value}
    (h : assertionsOf source test i vs = .error f) :
    IsFileError source f ∨ ∃ v ∈ vs, IsUnshown v f := by
  induction vs generalizing i with
  | nil => cases h
  | cons v vs ih =>
    rcases Except.bind_eq_error.mp h with h | ⟨a, -, h⟩
    · exact (assertionOf_eq_error h).imp_right fun hv => ⟨v, List.mem_cons_self, hv⟩
    · rcases Except.bind_eq_error.mp h with h | ⟨_, -, h⟩
      · exact (ih h).imp_right fun ⟨u, hu, hunshown⟩ => ⟨u, List.mem_cons_of_mem _ hu, hunshown⟩
      · cases h

lemma expectations_eq_ok {key : String} {field : Option Value} {as : Option (List Assertion)}
    (h : expectations source test key field = .ok as) :
    List.Forall₂ StartsWith (itemsIn field) (as.getD []) ∧ AllKnown (as.getD []) := by
  unfold expectations at h
  split at h
  · obtain rfl := Except.ok.inj h
    exact ⟨.nil, nofun⟩
  · obtain rfl := Except.ok.inj h
    exact ⟨.nil, nofun⟩
  · rename_i vs
    cases hread : assertionsOf source test 0 vs with
    | error g =>
      rw [hread] at h
      cases h
    | ok bs =>
      rw [hread] at h
      obtain rfl := Except.ok.inj h
      exact assertionsOf_eq_ok hread
  · cases h

lemma expectations_eq_error {key : String} {field : Option Value}
    (h : expectations source test key field = .error f) :
    IsFileError source f ∨ HoldsUnshown field f := by
  unfold expectations at h
  split at h
  · cases h
  · cases h
  · rename_i vs
    cases hread : assertionsOf source test 0 vs with
    | error g =>
      rw [hread] at h
      obtain rfl := Except.error.inj h
      exact assertionsOf_eq_error hread
    | ok bs =>
      rw [hread] at h
      cases h
  · exact .inl (Except.error.inj h ▸ isFileError_failure _ _)

/-! ### Tests -/

/-- Every entry that is written in a test's two lists is an expectation of the test, in order. -/
def ReadsAll (item : Value) (t : Test) : Prop :=
  (t.rendered.getD []).map Assertion.entry = entriesIn (item.field? renderedKey) ∧
    (t.completed.getD []).map Assertion.entry = entriesIn (item.field? completedKey)

/-- Every expectation in a test's two lists is a mapping of one entry. -/
def AllSingle (item : Value) : Prop :=
  (∀ v ∈ itemsIn (item.field? renderedKey), IsSingle v) ∧
    ∀ v ∈ itemsIn (item.field? completedKey), IsSingle v

/-- What is read of a test: its name, and of each expectation the first entry. There is at least
one, and the operators of all are known. -/
structure Keeps (item : Value) (t : Test) : Prop where
  name : item.field? "name" = some (.text t.name)
  rendered : List.Forall₂ StartsWith (itemsIn (item.field? renderedKey)) (t.rendered.getD [])
  completed : List.Forall₂ StartsWith (itemsIn (item.field? completedKey)) (t.completed.getD [])
  known : AllKnown t.expected
  expects : t.expected ≠ []

lemma Keeps.readsAll_iff {item : Value} {t : Test} (h : Keeps item t) :
    ReadsAll item t ↔ AllSingle item :=
  and_congr (map_entry_eq_iff h.rendered) (map_entry_eq_iff h.completed)

lemma draftOf_eq_ok {i : ℕ} {item : Value} {d : Draft} (h : draftOf source i item = .ok d) :
    ∃ name, item.field? "name" = some (.text name) ∧ d.record = item ∧
      expectations source name renderedKey (item.field? renderedKey) = .ok d.rendered ∧
      expectations source name completedKey (item.field? completedKey) = .ok d.completed ∧
      (hasAny d.rendered || hasAny d.completed) = true := by
  unfold draftOf at h
  split at h
  · rename_i entries
    split at h
    · cases h
    · rename_i name hname
      obtain ⟨rendered, hrendered, h⟩ := Except.bind_eq_ok.mp h
      obtain ⟨completed, hcompleted, h⟩ := Except.bind_eq_ok.mp h
      split at h
      · rename_i hany
        obtain rfl := Except.ok.inj h
        refine ⟨name, ?_, rfl, hrendered, hcompleted, hany⟩
        unfold textAt? at hname
        split at hname
        · rename_i hnamed
          rw [← Option.some.inj hname]
          exact hnamed
        · cases hname
      · cases h
  · cases h

/-- One of a test's two lists holds a mapping whose first key has no text. -/
def ItemHoldsUnshown (item : Value) (f : Failure) : Prop :=
  HoldsUnshown (item.field? renderedKey) f ∨ HoldsUnshown (item.field? completedKey) f

lemma draftOf_eq_error {i : ℕ} {item : Value} (h : draftOf source i item = .error f) :
    IsFileError source f ∨ ItemHoldsUnshown item f := by
  unfold draftOf at h
  split at h
  · split at h
    · exact .inl (Except.error.inj h ▸ isFileError_failure _ _)
    · rcases Except.bind_eq_error.mp h with h | ⟨_, -, h⟩
      · exact (expectations_eq_error h).imp_right .inl
      · rcases Except.bind_eq_error.mp h with h | ⟨_, -, h⟩
        · exact (expectations_eq_error h).imp_right .inr
        · split at h
          · cases h
          · exact .inl (Except.error.inj h ▸ isFileError_failure _ _)
  · exact .inl (Except.error.inj h ▸ isFileError_failure _ _)

lemma Draft.test_eq_ok {d : Draft} {t : Test} (h : d.test = .ok t) :
    t.rendered = d.rendered ∧ t.completed = d.completed ∧
      field d.record "name" text none = .ok t.name := by
  obtain ⟨withSet, params, hwithSet, -, rfl⟩ := Checked.seq_eq_ok.mp h
  obtain ⟨withDataset, dataset, hwithDataset, -, rfl⟩ := Checked.seq_eq_ok.mp hwithSet
  obtain ⟨withGiven, given, hwithGiven, -, rfl⟩ := Checked.seq_eq_ok.mp hwithDataset
  obtain ⟨name, hname, rfl⟩ := Checked.map_eq_ok.mp hwithGiven
  exact ⟨rfl, rfl, hname⟩

/-- A test that is read from an item keeps the first entry of each expectation. -/
lemma keeps_of_draftOf {i : ℕ} {item : Value} {d : Draft} {t : Test}
    (hd : draftOf source i item = .ok d) (ht : d.test = .ok t) : Keeps item t := by
  obtain ⟨name, hname, hrecord, hrendered, hcompleted, hany⟩ := draftOf_eq_ok hd
  obtain ⟨hr, hc, hfield⟩ := Draft.test_eq_ok ht
  obtain ⟨hstartsR, hknownR⟩ := expectations_eq_ok hrendered
  obtain ⟨hstartsC, hknownC⟩ := expectations_eq_ok hcompleted
  rw [← hr] at hstartsR hknownR
  rw [← hc] at hstartsC hknownC
  have hsame : t.name = name := by
    unfold field at hfield
    rw [hrecord, hname] at hfield
    exact (Checked.ok.inj hfield).symm
  refine ⟨hsame ▸ hname, hstartsR, hstartsC, List.forall_mem_append.mpr ⟨hknownR, hknownC⟩, ?_⟩
  intro hnone
  obtain ⟨hr', hc'⟩ := List.append_eq_nil_iff.mp hnone
  rw [hr] at hr'
  rw [hc] at hc'
  simp [hasAny, hr', hc'] at hany

lemma draftsOf_eq_ok {i : ℕ} {items : List Value} {ds : List Draft}
    (h : draftsOf source i items = .ok ds) :
    List.Forall₂ (fun item d => ∃ i, draftOf source i item = .ok d) items ds := by
  induction items generalizing i ds with
  | nil =>
    obtain rfl := Except.ok.inj h
    exact .nil
  | cons item items ih =>
    obtain ⟨d, hd, h⟩ := Except.bind_eq_ok.mp h
    obtain ⟨es, hes, h⟩ := Except.bind_eq_ok.mp h
    obtain rfl := Except.ok.inj h
    exact .cons ⟨i, hd⟩ (ih hes)

/-- Each test keeps the first entries of the expectations in its item. -/
lemma forall₂_keeps {items : List Value} {ds : List Draft} {ts : List Test}
    (hds : List.Forall₂ (fun item d => ∃ i, draftOf source i item = .ok d) items ds)
    (hts : List.Forall₂ (fun d t => Draft.test d = .ok t) ds ts) :
    List.Forall₂ Keeps items ts := by
  induction hds generalizing ts with
  | nil =>
    obtain ⟨⟩ := hts
    exact .nil
  | cons hd _ ih =>
    obtain ⟨i, hd⟩ := hd
    obtain _ | ⟨ht, hts⟩ := hts
    exact .cons (keeps_of_draftOf hd ht) (ih hts)

/-- Each test has all that is written exactly if each expectation is a mapping of one entry. -/
lemma forall₂_readsAll_iff {items : List Value} {ts : List Test}
    (h : List.Forall₂ Keeps items ts) :
    List.Forall₂ ReadsAll items ts ↔ ∀ item ∈ items, AllSingle item := by
  induction h with
  | nil => exact iff_of_true .nil nofun
  | cons hkeeps _ ih =>
    rw [List.forall₂_cons, ih, List.forall_mem_cons, hkeeps.readsAll_iff]

lemma draftsOf_eq_error {i : ℕ} {items : List Value} (h : draftsOf source i items = .error f) :
    IsFileError source f ∨ ∃ item ∈ items, ItemHoldsUnshown item f := by
  induction items generalizing i with
  | nil => cases h
  | cons item items ih =>
    rcases Except.bind_eq_error.mp h with h | ⟨_, -, h⟩
    · exact (draftOf_eq_error h).imp_right fun hitem => ⟨item, List.mem_cons_self, hitem⟩
    · rcases Except.bind_eq_error.mp h with h | ⟨_, -, h⟩
      · exact (ih h).imp_right fun ⟨u, hu, hunshown⟩ => ⟨u, List.mem_cons_of_mem _ hu, hunshown⟩
      · cases h

/-! ### Suites -/

lemma field?_of_itemsAt? {es : List (Value × Value)} {items : List Value} {name : String}
    (h : itemsAt? name es = some items) : (Value.dict es).field? name = some (.list items) := by
  unfold itemsAt? at h
  split at h
  · rename_i hnamed
    rw [← Option.some.inj h]
    exact hnamed
  · cases h

lemma mappingOf_eq_error {content kind : String} {v : Value} (hread : Yaml.read content = .ok v)
    (h : mappingOf content kind source = .error f) : IsFileError source f := by
  unfold mappingOf at h
  rw [hread] at h
  split at h
  · cases h
  · exact Except.error.inj h ▸ isFileError_failure _ _
  · rename_i hbad
    cases hbad
  · rename_i hbad
    cases hbad

lemma mappingOf_eq_ok {content kind : String} {v : Value} {es : List (Value × Value)}
    (hread : Yaml.read content = .ok v) (h : mappingOf content kind source = .ok es) :
    v = .dict es := by
  unfold mappingOf at h
  rw [hread] at h
  split at h
  · rename_i hdict
    rw [Except.ok.inj hdict, Except.ok.inj h]
  · cases h
  · cases h
  · cases h

lemma accepted_eq_ok {α : Type} {c : Checked α} {a : α} :
    accepted source c = .ok a ↔ c = .ok a := by
  cases c with
  | ok b => simp [accepted]
  | refused first rest => exact ⟨nofun, nofun⟩

lemma accepted_eq_error {α : Type} {c : Checked α} (h : accepted source c = .error f) :
    IsFileError source f := by
  cases c with
  | ok b => cases h
  | refused first rest => exact Except.error.inj h ▸ isFileError_failure _ _

/-- What is done when a suite is read. -/
lemma exists_of_parse {content : String} {s : Suite} (h : Suite.parse content source = .ok s) :
    ∃ entries items drafts, mappingOf content ".eval" source = .ok entries ∧
      itemsAt? "tests" entries = some items ∧ draftsOf source 0 items = .ok drafts ∧
      List.Forall₂ (fun d t => Draft.test d = .ok t) drafts s.tests := by
  unfold Suite.parse at h
  obtain ⟨entries, hentries, h⟩ := Except.bind_eq_ok.mp h
  split at h
  · split at h
    · rename_i items hitems
      obtain ⟨drafts, hdrafts, h⟩ := Except.bind_eq_ok.mp h
      refine ⟨entries, items, drafts, hentries, hitems, hdrafts, ?_⟩
      obtain ⟨build, tests, hbuild, htests, rfl⟩ := Checked.seq_eq_ok.mp (accepted_eq_ok.mp h)
      obtain ⟨config, -, rfl⟩ := Checked.map_eq_ok.mp hbuild
      exact Checked.forall₂_of_all_mapIdx (Checked.within_eq_ok.mp htests)
    · cases h
  · cases h

lemma parse_eq_error {content : String} (h : Suite.parse content source = .error f) :
    mappingOf content ".eval" source = .error f ∨ IsFileError source f ∨
      ∃ entries items, mappingOf content ".eval" source = .ok entries ∧
        itemsAt? "tests" entries = some items ∧ draftsOf source 0 items = .error f := by
  unfold Suite.parse at h
  rcases Except.bind_eq_error.mp h with h | ⟨entries, hentries, h⟩
  · exact .inl h
  · refine .inr ?_
    split at h
    · split at h
      · rename_i items hitems
        rcases Except.bind_eq_error.mp h with h | ⟨drafts, -, h⟩
        · exact .inr ⟨entries, items, hentries, hitems, h⟩
        · exact .inl (accepted_eq_error h)
      · exact .inl (Except.error.inj h ▸ isFileError_failure _ _)
    · exact .inl (Except.error.inj h ▸ isFileError_failure _ _)

/-- **What is read of the expectations that are written.** A suite that is read has a test for each
that is written, in order, and each test has an expectation for each mapping in its two lists, the
first entry of it, with a known operator; at least one. So every entry is read exactly if no mapping
has more than one. Where no suite is read, the error names the file, unless a mapping starts with a
key that has no text. -/
theorem parse_keeps {content : String} {v : Value} (hread : Yaml.read content = .ok v)
    (source : Option String) :
    (∀ s, Suite.parse content source = .ok s → ∃ items, v.field? "tests" = some (.list items) ∧
      List.Forall₂ Keeps items s.tests ∧
      (List.Forall₂ ReadsAll items s.tests ↔ ∀ item ∈ items, AllSingle item)) ∧
    ∀ f, Suite.parse content source = .error f → IsFileError source f ∨
      ∃ items, v.field? "tests" = some (.list items) ∧ ∃ item ∈ items, ItemHoldsUnshown item f := by
  refine ⟨fun s h => ?_, fun f h => ?_⟩
  · obtain ⟨entries, items, drafts, hentries, hitems, hdrafts, htests⟩ := exists_of_parse h
    obtain rfl := mappingOf_eq_ok hread hentries
    have hkeeps := forall₂_keeps (draftsOf_eq_ok hdrafts) htests
    exact ⟨items, field?_of_itemsAt? hitems, hkeeps, forall₂_readsAll_iff hkeeps⟩
  · rcases parse_eq_error h with h | h | ⟨entries, items, hentries, hitems, h⟩
    · exact .inl (mappingOf_eq_error hread h)
    · exact .inl h
    · obtain rfl := mappingOf_eq_ok hread hentries
      exact (draftsOf_eq_error h).imp_right fun hitem => ⟨items, field?_of_itemsAt? hitems, hitem⟩

deriving instance DecidableEq for Assertion, Suite.Test, Suite.Config, Suite

/-- A suite whose one expectation is a mapping of two entries, as where a hyphen is forgotten. -/
def forgetful : String :=
  "suite: s\ntests:\n- name: t\n  expect_render:\n  - contains: a\n    not_contains: b\n"

/-- Its one test. -/
def forgetfulTest : Value :=
  .ofBindings [("name", .text "t"),
    ("expect_render", .list [.ofBindings [("contains", .text "a"), ("not_contains", .text "b")]])]

/-- What is read of it: the second entry is lost. -/
theorem parse_keeps_forgetful :
    Yaml.read forgetful =
        .ok (.ofBindings [("suite", .text "s"), ("tests", .list [forgetfulTest])]) ∧
      Suite.parse forgetful none =
        .ok ⟨"s", {}, [⟨"t", none, none, none, some [⟨"contains", .text "a"⟩], none⟩]⟩ ∧
      ¬ List.Forall₂ ReadsAll [forgetfulTest]
        [⟨"t", none, none, none, some [⟨"contains", .text "a"⟩], none⟩] := by
  have hread : Yaml.read forgetful =
      .ok (.ofBindings [("suite", .text "s"), ("tests", .list [forgetfulTest])]) := by
    decide +kernel
  have hparse : Suite.parse forgetful none =
      .ok ⟨"s", {}, [⟨"t", none, none, none, some [⟨"contains", .text "a"⟩], none⟩]⟩ := by
    decide +kernel
  refine ⟨hread, hparse, ?_⟩
  obtain ⟨items, hitems, -, hall⟩ := (parse_keeps hread none).1 _ hparse
  obtain rfl : [forgetfulTest] = items := Value.list.inj (Option.some.inj hitems)
  rw [hall]
  intro hsingle
  obtain ⟨e, he⟩ := (hsingle forgetfulTest List.mem_cons_self).1 _ List.mem_cons_self
  cases he

end Stencil.Suite
