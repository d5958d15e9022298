import Stencil.Proofs.Dataset.Written
import Stencil.Proofs.Files.Tree
import Stencil.Proofs.Value.Written
import Stencil.Proofs.Yaml.Written

/-!
What a shelf has recorded, read again by a fresh one.

On a shelf that came about by loading and recording, every dataset has a path that a file can have,
and sets of parameters as they are read (`sound_of_arises`). When a recording
succeeds, the file is at the dataset's path, and it holds the dataset that is on the shelf
(`exists_of_record`). So a fresh shelf finds that dataset, unless the reader refuses it: it has no
set of parameters, as is so where the recording created it, or a set without a name
(`fetch_after_record`).
-/

namespace Stencil.Dataset

open Suite

variable {tree tree' : Files.Tree} {name time : String} {s s' : Shelf} {d : Dataset}
  {r : Completion.Response}

/-! ### Paths of dataset files -/

/-- A path that a file can have. -/
def HasPath (s : Shelf) (name : String) : Prop :=
  (s.pathFor name).toList.contains (Char.ofNat 0) = false

/-- The path of a dataset's file leads to a file of its directory. -/
lemma exists_namesOf_pathFor (s : Shelf) (name : String) :
    ∃ ms n, Files.Path.namesOf (s.pathFor name) = ms ++ [n] ∧ n ≠ ".." :=
  Files.Path.exists_namesOf_joined s.folder name (by decide) (by decide)

/-- A path that no file can have fails otherwise than by an error of the library. -/
lemma load_of_not_hasPath (h : ¬ HasPath s name) : load tree (s.pathFor name) =
    .error (.foreign Files.Tree.Fault.noPath.kind
      (Files.Tree.Fault.noPath.message (s.pathFor name))) := by
  have hplace : tree.place (s.pathFor name) = .error .noPath := if_pos (by simpa [HasPath] using h)
  have hread : tree.readAt (s.pathFor name) = .error .noPath := by
    rw [Files.Tree.readAt, hplace]
    rfl
  unfold load fileText
  rw [hread]
  rfl

/-! ### The work of a shelf -/

section

variable {α β : Type}

lemma run_bind (x : Shelving α) (f : α → Shelving β) (s : Shelf) :
    (x >>= f).run s = match x.run s with
      | (.ok a, s') => (f a).run s'
      | (.error e, s') => (.error e, s') := by
  show (match x.run s with | (a, s') => ExceptT.bindCont f a s') = _
  rcases x.run s with ⟨e | a, s'⟩ <;> rfl

lemma run_tryCatch (x : Shelving α) (handle : Failure → Shelving α) (s : Shelf) :
    (tryCatch x handle).run s = match x.run s with
      | (.ok a, s') => (.ok a, s')
      | (.error e, s') => (handle e).run s' := by
  have hcatch : tryCatch x handle = ExceptT.tryCatch x handle := rfl
  rw [hcatch, ExceptT.tryCatch, ExceptT.run_mk]
  rcases hx : x.run s with ⟨e | a, s'⟩
  all_goals
    simp only [bind, StateT.bind]
    rw [show x s = _ from hx]
    rfl

lemma run_get (s : Shelf) : ExceptT.run (get : Shelving Shelf) s = (.ok s, s) := rfl

lemma run_lift (x : Except Failure α) (s : Shelf) :
    ExceptT.run (liftM x : Shelving α) s = (x, s) := by
  cases x <;> rfl

end

/-- The shelf with a dataset put on it. -/
def Shelf.put (s : Shelf) (name : String) (d : Dataset) : Shelf :=
  { s with loaded := (name, d) :: s.loaded.filter (·.1 != name) }

lemma lookup_put (s : Shelf) (name : String) (d : Dataset) :
    (s.put name d).loaded.lookup name = some d := by
  simp [Shelf.put]

lemma lookup_put_of_ne {n : String} (h : n ≠ name) (s : Shelf) (d : Dataset) :
    (s.put name d).loaded.lookup n = s.loaded.lookup n := by
  have hfilter (l : List (String × Dataset)) : (l.filter (·.1 != name)).lookup n = l.lookup n := by
    induction l with
    | nil => rfl
    | cons e l ih =>
      rw [List.filter_cons, List.lookup_cons]
      split
      · rw [List.lookup_cons, ih]
      · rename_i hname
        have hname : e.1 = name := by simpa using hname
        rw [ih, hname, beq_eq_false_iff_ne.mpr h]
  rw [Shelf.put, List.lookup_cons, beq_eq_false_iff_ne.mpr h]
  exact hfilter s.loaded

lemma run_fetch (tree : Files.Tree) (name : String) (s : Shelf) :
    (fetch tree name).run s = match s.loaded.lookup name with
      | some d => (.ok d, s)
      | none => match load tree (s.pathFor name) with
        | .ok d => (.ok d, s.put name d)
        | .error f => (.error f, s) := by
  rw [fetch, run_bind, run_get]
  dsimp only
  cases s.loaded.lookup name with
  | some d => rfl
  | none =>
    cases load tree (s.pathFor name) with
    | ok d => rfl
    | error f => rfl

lemma run_fetchOrNew (tree : Files.Tree) (name : String) (s : Shelf) :
    (fetchOrNew tree name).run s = match (fetch tree name).run s with
      | (.ok d, s') => (.ok d, s')
      | (.error (.error (.suiteFile ..)), s') => (.ok { name }, s')
      | (.error f, s') => (.error f, s') := by
  rw [fetchOrNew, run_tryCatch]
  rcases (fetch tree name).run s with ⟨f | d, s'⟩
  · cases f with
    | error e => cases e <;> rfl
    | _ => rfl
  · rfl

/-- The tree with a dataset written to the file at a path. -/
def saved (tree : Files.Tree) (path : String) (d : Dataset) : Except Failure Files.Tree := do
  let content ← ofValue (Yaml.write d.written)
  match tree.writeAt (Files.Path.splitLast path).1 (Files.Path.splitLast path).2 content with
  | .ok tree => .ok tree
  | .error (f, path) => .error (.foreign f.kind (f.message path))

lemma run_save (tree : Files.Tree) (name : String) (d : Dataset) (s : Shelf) :
    (save tree name d).run s = (saved tree (s.pathFor name) d, s) := by
  rw [save, run_bind, run_get, saved]
  dsimp only
  generalize Files.Path.splitLast (s.pathFor name) = cut
  rw [run_bind, run_lift]
  cases ofValue (Yaml.write d.written) with
  | error f => rfl
  | ok content =>
    dsimp only [bind, Except.bind]
    cases tree.writeAt cut.1 cut.2 content with
    | error f => rfl
    | ok tree' => rfl

lemma run_record (tree : Files.Tree) (name : String) (r : Completion.Response) (time : String)
    (s : Shelf) :
    (record tree name r time).run s = match (fetchOrNew tree name).run s with
      | (.error f, s₁) => (.error f, s₁)
      | (.ok d, s₁) => match goldenOf r time with
        | .error f => (.error f, s₁)
        | .ok g => match saved tree (s₁.pathFor name) { d with golden := some g } with
          | .error f => (.error f, s₁)
          | .ok tree' => (.ok tree', s₁.put name { d with golden := some g }) := by
  rw [record, run_bind]
  rcases (fetchOrNew tree name).run s with ⟨f | d, s₁⟩
  · rfl
  · dsimp only
    rw [run_bind, run_lift]
    cases goldenOf r time with
    | error f => rfl
    | ok g =>
      dsimp only
      rw [run_bind, run_save]
      cases saved tree (s₁.pathFor name) { d with golden := some g } with
      | error f => rfl
      | ok tree' => rfl

/-! ### Shelves that come about -/

/-- The shelves that come about in a directory from an empty one, while the files may change. -/
inductive Shelf.Arises (directory : String) : Shelf → Prop
  | new : Arises directory { directory }
  | fetch {s : Shelf} (h : Arises directory s) (tree : Files.Tree) (name : String) :
    Arises directory ((fetch tree name).run s).2
  | fetchSet {s : Shelf} (h : Arises directory s) (tree : Files.Tree) (name set : String) :
    Arises directory ((fetchSet tree name set).run s).2
  | fetchFirst {s : Shelf} (h : Arises directory s) (tree : Files.Tree) (name : String) :
    Arises directory ((fetchFirst tree name).run s).2
  | fetchGolden {s : Shelf} (h : Arises directory s) (tree : Files.Tree) (name : String) :
    Arises directory ((fetchGolden tree name).run s).2
  | record {s : Shelf} (h : Arises directory s) (tree : Files.Tree) (name : String)
    (r : Completion.Response) (time : String) :
    Arises directory ((record tree name r time).run s).2

/-- What is on the shelf was read or recorded: its file can have its path, and its sets of
parameters are such as are read. -/
structure Shelf.Sound (directory : String) (s : Shelf) : Prop where
  directory_eq : s.directory = directory
  hasPath : ∀ e ∈ s.loaded, HasPath s e.1
  wasRead : ∀ e ∈ s.loaded, e.2.WasRead

variable {directory : String}

lemma Shelf.Sound.put (h : s.Sound directory) (hpath : HasPath s name) (hd : d.WasRead) :
    (s.put name d).Sound directory where
  directory_eq := h.directory_eq
  hasPath := List.forall_mem_cons.mpr
    ⟨hpath, fun e he => h.hasPath e (List.mem_of_mem_filter he)⟩
  wasRead := List.forall_mem_cons.mpr
    ⟨hd, fun e he => h.wasRead e (List.mem_of_mem_filter he)⟩

lemma wasRead_of_load {path : String} (h : load tree path = .ok d) : d.WasRead := by
  obtain ⟨content, -, h⟩ := Except.bind_eq_ok.mp h
  exact wasRead_of_parse h

/-- What fetching a dataset does: the shelf stays sound, and if there is a dataset, or a fault of
its file, then the file can have its path. -/
lemma sound_fetch (h : s.Sound directory) (tree : Files.Tree) (name : String) :
    ((fetch tree name).run s).2.Sound directory ∧
      (∀ d, ((fetch tree name).run s).1 = .ok d → HasPath s name ∧ d.WasRead) ∧
      ∀ m source, ((fetch tree name).run s).1 = .error (.error (.suiteFile m source)) →
        HasPath s name := by
  rw [run_fetch]
  cases hlookup : s.loaded.lookup name with
  | some d =>
    obtain ⟨_, _, hloaded, -⟩ := List.lookup_eq_some_iff.mp hlookup
    have hmem : (name, d) ∈ s.loaded := by simp [hloaded]
    dsimp only
    refine ⟨h, fun d' hd' => ?_, nofun⟩
    obtain rfl := Except.ok.inj hd'
    exact ⟨h.hasPath (name, d) hmem, h.wasRead (name, d) hmem⟩
  | none =>
    dsimp only
    cases hload : load tree (s.pathFor name) with
    | ok d =>
      have hpath : HasPath s name := by
        by_contra hpath
        rw [load_of_not_hasPath hpath] at hload
        cases hload
      refine ⟨h.put hpath (wasRead_of_load hload), fun d' hd' => ?_, nofun⟩
      obtain rfl := Except.ok.inj hd'
      exact ⟨hpath, wasRead_of_load hload⟩
    | error f =>
      refine ⟨h, nofun, fun m source hf => ?_⟩
      obtain rfl := Except.error.inj hf
      by_contra hpath
      rw [load_of_not_hasPath hpath] at hload
      cases hload

lemma sound_fetchOrNew (h : s.Sound directory) (tree : Files.Tree) (name : String) :
    ((fetchOrNew tree name).run s).2.Sound directory ∧
      ∀ d, ((fetchOrNew tree name).run s).1 = .ok d → HasPath s name ∧ d.WasRead := by
  obtain ⟨hsound, hok, hfault⟩ := sound_fetch h tree name
  rw [run_fetchOrNew]
  rcases hrun : (fetch tree name).run s with ⟨f | d, s₁⟩
  · rw [hrun] at hsound hfault
    cases f with
    | error e =>
      cases e with
      | suiteFile m source =>
        refine ⟨hsound, ?_⟩
        rintro _ ⟨⟩
        exact ⟨hfault m source rfl, nofun, nofun⟩
      | _ => exact ⟨hsound, nofun⟩
    | _ => exact ⟨hsound, nofun⟩
  · rw [hrun] at hsound hok
    refine ⟨hsound, ?_⟩
    rintro _ ⟨⟩
    exact hok d rfl

lemma sound_record (h : s.Sound directory) (tree : Files.Tree) (name : String)
    (r : Completion.Response) (time : String) :
    ((record tree name r time).run s).2.Sound directory := by
  obtain ⟨hsound, hok⟩ := sound_fetchOrNew h tree name
  rw [run_record]
  rcases hrun : (fetchOrNew tree name).run s with ⟨f | d, s₁⟩
  · rw [hrun] at hsound
    exact hsound
  · rw [hrun] at hsound hok
    obtain ⟨hpath, hd⟩ := hok d rfl
    have hpath₁ : HasPath s₁ name := by
      rw [HasPath, Shelf.pathFor, Shelf.folder, hsound.directory_eq, ← h.directory_eq]
      exact hpath
    dsimp only
    cases goldenOf r time with
    | error f => exact hsound
    | ok g =>
      dsimp only
      cases saved tree (s₁.pathFor name) { d with golden := some g } with
      | error f => exact hsound
      | ok tree' => exact hsound.put hpath₁ (hd.withGolden g)

/-- What is looked up in a dataset leaves the shelf as fetching it does. -/
lemma snd_run_fetch_bind {α : Type} {f : Dataset → Shelving α}
    (h : ∀ d s, ((f d).run s).2 = s) (tree : Files.Tree) (name : String) (s : Shelf) :
    ((fetch tree name >>= f).run s).2 = ((fetch tree name).run s).2 := by
  rw [run_bind]
  rcases (fetch tree name).run s with ⟨e | d, s₁⟩
  · rfl
  · exact h d s₁

lemma sound_of_arises (h : s.Arises directory) : s.Sound directory := by
  induction h with
  | new => exact ⟨rfl, nofun, nofun⟩
  | fetch _ tree name ih => exact (sound_fetch ih tree name).1
  | fetchSet _ tree name set ih =>
    rw [fetchSet, snd_run_fetch_bind]
    · exact (sound_fetch ih tree name).1
    · intro d s
      cases d.findSet? set <;> rfl
  | fetchFirst _ tree name ih =>
    rw [fetchFirst, snd_run_fetch_bind]
    · exact (sound_fetch ih tree name).1
    · rintro ⟨_, _, _, _ | _⟩ s <;> rfl
  | fetchGolden _ tree name ih =>
    rw [fetchGolden, snd_run_fetch_bind]
    · exact (sound_fetch ih tree name).1
    · exact fun _ _ => rfl
  | record _ tree name r time ih => exact sound_record ih tree name r time

/-! ### Reading what was recorded -/

/-- What was done when a recording succeeds. -/
lemma exists_of_record (h : (record tree name r time).run s = (.ok tree', s')) :
    ∃ d s₁ g, (fetchOrNew tree name).run s = (.ok d, s₁) ∧ goldenOf r time = .ok g ∧
      saved tree (s₁.pathFor name) { d with golden := some g } = .ok tree' ∧
      s' = s₁.put name { d with golden := some g } := by
  rw [run_record] at h
  rcases hrun : (fetchOrNew tree name).run s with ⟨f | d, s₁⟩
  · rw [hrun] at h
    cases h
  · rw [hrun] at h
    dsimp only at h
    cases hg : goldenOf r time with
    | error f =>
      rw [hg] at h
      cases h
    | ok g =>
      rw [hg] at h
      dsimp only at h
      cases hsaved : saved tree (s₁.pathFor name) { d with golden := some g } with
      | error f =>
        rw [hsaved] at h
        cases h
      | ok t =>
        rw [hsaved] at h
        obtain ⟨ht, rfl⟩ := Prod.mk.inj h
        obtain rfl := Except.ok.inj ht
        exact ⟨d, s₁, g, rfl, rfl, hsaved, rfl⟩

lemma exists_of_saved {path : String} (h : saved tree path d = .ok tree') :
    ∃ content, Yaml.write d.written = .ok content ∧
      tree.writeAt (Files.Path.splitLast path).1 (Files.Path.splitLast path).2 content =
        .ok tree' := by
  unfold saved at h
  cases hwrite : Yaml.write d.written with
  | error f =>
    rw [hwrite] at h
    cases h
  | ok content =>
    rw [hwrite] at h
    refine ⟨content, rfl, ?_⟩
    simp only [ofValue, bind, Except.bind] at h
    split at h
    · rename_i hput
      rw [hput, Except.ok.inj h]
    · cases h

/-- A recording keeps the sets of parameters of the dataset that there was. -/
lemma parameters_of_fetchOrNew {s₁ : Shelf} (h : (fetchOrNew tree name).run s = (.ok d, s₁)) :
    d.parameters = ((fetch tree name).run s).1.toOption.elim [] (·.parameters) := by
  rw [run_fetchOrNew] at h
  rcases hrun : (fetch tree name).run s with ⟨f | d', s'⟩
  · rw [hrun] at h
    cases f with
    | error e =>
      cases e with
      | suiteFile m source =>
        obtain rfl := Except.ok.inj (Prod.mk.inj h).1
        rfl
      | _ => cases h
    | _ => cases h
  · rw [hrun] at h
    obtain rfl := Except.ok.inj (Prod.mk.inj h).1
    rfl

lemma distinct_of_goldenOf {g : Golden} (h : goldenOf r time = .ok g) :
    ∀ m ∈ g.metadata, m.Distinct := by
  unfold goldenOf at h
  split at h
  · cases h
  · obtain rfl := Except.ok.inj h
    intro m hm
    obtain rfl := Option.some.inj hm
    exact (by decide : ["tokens", "latency_ms"].Nodup)

/-- The text written for a dataset is read as the dataset. -/
def ReadsBack (d : Dataset) : Prop :=
  ∀ content, Yaml.write d.written = .ok content → Yaml.read content = .ok d.written

/-- A file has the text that was written for the dataset. -/
lemma fileText_of_saved (ht : tree.Sound) (hpath : HasPath s name)
    (h : saved tree (s.pathFor name) d = .ok tree') :
    ∃ content, Yaml.write d.written = .ok content ∧
      fileText tree' (s.pathFor name) = .ok content := by
  obtain ⟨content, hwrite, hput⟩ := exists_of_saved h
  obtain ⟨ms, n, hnames, hn⟩ := exists_namesOf_pathFor s name
  obtain ⟨-, hread⟩ := Files.Tree.readAt_writeAt ht hpath hnames hn hput
  rw [Yaml.unifyLines_write hwrite] at hread
  exact ⟨content, hwrite, by rw [fileText, hread]⟩

/-- What a fresh shelf makes of a dataset's file, when the dataset was written to it. -/
lemma load_of_saved (ht : tree.Sound) (hpath : HasPath s name) (hd : d.WasRead)
    (hgolden : ∀ g ∈ d.golden, ∀ m ∈ g.metadata, m.Distinct) (hyaml : d.ReadsBack)
    (h : saved tree (s.pathFor name) d = .ok tree') :
    load tree' (s.pathFor name) =
      d.fault?.elim (.ok d) fun f => .error (f.failure (some (s.pathFor name))) := by
  obtain ⟨content, hwrite, htext⟩ := fileText_of_saved ht hpath h
  have hload : load tree' (s.pathFor name) = parse content (some (s.pathFor name)) := by
    rw [load, htext]
    rfl
  rw [hload, parse_of_written hd hgolden (hyaml content hwrite)]

/-- **What is recorded can be read again, if it has sets of parameters.** After a recording
succeeds on a shelf, a fresh shelf of the directory finds the dataset that the first one holds,
unless the reader refuses it for having no set of parameters or one without a name. The sets are
those of the dataset that there was before the recording, none if there was none that could be
read: a dataset that is created by a recording is never read. -/
theorem fetch_of_record (hs : s.Arises directory) (ht : tree.Sound)
    (h : (record tree name r time).run s = (.ok tree', s'))
    (hyaml : ∀ d, s'.loaded.lookup name = some d → d.ReadsBack) :
    ∃ d, s'.loaded.lookup name = some d ∧
      d.parameters = ((fetch tree name).run s).1.toOption.elim [] (·.parameters) ∧
      ((fetch tree' name).run { directory }).1 =
        d.fault?.elim (.ok d) fun f => .error (f.failure (some (s.pathFor name))) := by
  have hsound := sound_of_arises hs
  obtain ⟨d, s₁, g, hrun, hg, hsaved, rfl⟩ := exists_of_record h
  obtain ⟨hsound₁, hok⟩ := sound_fetchOrNew hsound tree name
  rw [hrun] at hsound₁ hok
  obtain ⟨hpath, hd⟩ := hok d rfl
  have hpathFor : s₁.pathFor name = s.pathFor name := by
    rw [Shelf.pathFor, Shelf.pathFor, Shelf.folder, Shelf.folder, hsound₁.directory_eq,
      hsound.directory_eq]
  have hlookup := lookup_put s₁ name { d with golden := some g }
  have hparameters := parameters_of_fetchOrNew hrun
  refine ⟨_, hlookup, hparameters, ?_⟩
  have hmetadata : ∀ g' ∈ some g, ∀ m ∈ g'.metadata, m.Distinct := by
    intro g' hg'
    obtain rfl := Option.some.inj hg'
    exact distinct_of_goldenOf hg
  have hload := load_of_saved ht hpath (hd.withGolden g) hmetadata (hyaml _ hlookup)
    (hpathFor ▸ hsaved)
  have hfresh : Shelf.pathFor { directory } name = s.pathFor name := by
    rw [Shelf.pathFor, Shelf.pathFor, Shelf.folder, Shelf.folder, hsound.directory_eq]
  rw [run_fetch, List.lookup_nil]
  dsimp only
  rw [hfresh, hload]
  cases fault? { d with golden := some g } <;> rfl

/-! ### A dataset that a recording creates -/

deriving instance DecidableEq for Golden, Dataset, Files.Entry, Files.Tree, Shelf

/-- The dataset that is created when the answer `hi` is recorded. -/
def created : Dataset where
  name := "a"
  golden := some {
    response := "hi"
    model := some "m"
    recordedAt := some "now"
    metadata := some [("tokens", .int 0), ("latency_ms", .float (.zero false))] }

/-- The text of its file. -/
def createdText : String :=
  "\"name\": \"a\"\n\"golden\": \x7b\"response\": \"hi\", \"model\": \"m\", " ++
    "\"recorded_at\": \"now\", \"metadata\": \x7b\"tokens\": 0, \"latency_ms\": 0.0\x7d\x7d\n" ++
    "\"parameters\": []\n"

/-- The tree with the file alone. -/
def createdTree : Files.Tree where
  entries := [⟨["p", "eval", "datasets", "a.dset"], Files.Tree.encode createdText⟩]
  directories := [["p"], ["p", "eval"], ["p", "eval", "datasets"]]

lemma read_of_toOption {content : String} {v : Value}
    (h : (Yaml.read content).toOption = some v) : Yaml.read content = .ok v := by
  cases hread : Yaml.read content with
  | error f =>
    rw [hread] at h
    cases h
  | ok w =>
    rw [hread] at h
    rw [Option.some.inj h]

lemma readsBack_created : created.ReadsBack := by
  intro content hcontent
  have hwrite : Yaml.write created.written = .ok createdText := by decide +kernel
  obtain rfl := Except.ok.inj (hwrite.symm.trans hcontent)
  exact read_of_toOption (by decide +kernel)

/-- Where there was no file, the recording creates one, and a fresh shelf refuses it. -/
theorem fetch_of_record_created :
    (record { entries := [] } "a" { text := some "hi", model := "m" } "now").run
        { directory := "p" } = (.ok createdTree, Shelf.put { directory := "p" } "a" created) ∧
      ((fetch createdTree "a").run { directory := "p" }).1 =
        .error ((SuiteFault.missingOrEmpty "parameters").failure
          (some "p/eval/datasets/a.dset")) := by
  have hrun : (show Except Failure Files.Tree × Shelf from
      (record { entries := [] } "a" { text := some "hi", model := "m" } "now").run
        { directory := "p" }) = (.ok createdTree, Shelf.put { directory := "p" } "a" created) := by
    decide +kernel
  have hempty : Files.Tree.Sound { entries := [] } := ⟨fun _ _ => rfl, rfl⟩
  refine ⟨hrun, ?_⟩
  obtain ⟨d, hlookup, -, hfetch⟩ := fetch_of_record (.new : Shelf.Arises "p" _) hempty hrun
    fun d hd => Option.some.inj hd ▸ readsBack_created
  obtain rfl : created = d := Option.some.inj hlookup
  rw [hfetch]
  decide +kernel

end Stencil.Dataset
