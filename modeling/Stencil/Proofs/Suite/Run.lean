import Stencil.Proofs.Suite.Step

/-!
When a suite passes.

A test passes exactly if it goes well step by step: its variables are resolved, its template is
rendered, every expectation of the text is met, and where something is expected of the completion,
the completion is made and every expectation of it is met (`test_passes_iff`). A suite passes
exactly if its target can be read and every selected test passes, each in the states that the one
before it left (`run_passes_iff`).
-/

namespace Stencil.Suite

variable {σ : Type}

/-! ### Statuses -/

lemma Status.worst_eq_pass_iff {ss : List Status} :
    Status.worst ss = .pass ↔ ∀ s ∈ ss, s = .pass := by
  unfold worst
  constructor
  · intro h s hs
    split_ifs at h with herror hfail
    cases s with
    | pass => rfl
    | fail => exact absurd (List.contains_iff_mem.mpr hs) hfail
    | error => exact absurd (List.contains_iff_mem.mpr hs) herror
  · intro h
    have hnot (s : Status) (hs : s ≠ .pass) : ss.contains s ≠ true :=
      fun hmem => hs (h s (List.contains_iff_mem.mp hmem))
    rw [if_neg (hnot .error nofun), if_neg (hnot .fail nofun)]

lemma worst_findings_iff {fs : List Finding} :
    Status.worst (fs.map (·.status)) = .pass ↔ ∀ f ∈ fs, f.status = .pass := by
  simp [Status.worst_eq_pass_iff]

namespace Run

variable {r : Run σ} {t : Test} {c c' : Dataset.Shelf × σ}

/-! ### The steps of a test -/

/-- The engine of a run, with imports from the files as they are. -/
def engineAt (r : Run σ) (w : σ) : Engine σ :=
  { r.engine with loader := some (r.loader (r.bench.disk.read w)) }

/-- The request for the completion of a text. -/
def request (r : Run σ) (text : String) : Completion.Request :=
  ⟨[⟨.user, text⟩], some { model := (filled? r.suite.config.model).or r.options.model }⟩

lemma comesTo_tree (r : Run σ) (c : Dataset.Shelf × σ) :
    comesTo r.tree c = (.ok (r.bench.disk.read c.2), c) := rfl

lemma comesTo_render (r : Run σ) (b : Bindings) (c : Dataset.Shelf × σ) :
    comesTo (r.render b) c = (((r.engineAt c.2).render r.template b none none c.2).1, c.1,
      ((r.engineAt c.2).render r.template b none none c.2).2) := by
  rw [render, comesTo_bind, comesTo_tree]
  dsimp only
  rw [comesTo_bind, comesTo_act]
  exact comesTo_settle _ _

lemma comesTo_check (s : Subject σ) (as : List Assertion) (c : Dataset.Shelf × σ) :
    comesTo (check s as) c = match checkAll s as c.2 with
      | (some fs, w) => (.ok fs, c.1, w)
      | (none, w) => (.error .endless, c.1, w) := by
  rw [check, comesTo_bind, comesTo_act]
  dsimp only
  rcases checkAll s as c.2 with ⟨_ | fs, w⟩ <;> rfl

lemma check_met_iff {s : Subject σ} {as : List Assertion} :
    (∃ fs, comesTo (check s as) c = (.ok fs, c') ∧ ∀ f ∈ fs, f.status = .pass) ↔
      Met s as c.2 c'.2 ∧ c'.1 = c.1 := by
  rw [comesTo_check, met_iff]
  constructor
  · rintro ⟨fs, h, hpass⟩
    rcases hcheck : checkAll s as c.2 with ⟨_ | gs, w⟩
    · rw [hcheck] at h
      cases h
    · rw [hcheck] at h
      obtain ⟨rfl, rfl⟩ := result_inj h
      exact ⟨⟨gs, rfl, hpass⟩, rfl⟩
  · rintro ⟨⟨fs, hcheck, hpass⟩, hshelf⟩
    rw [hcheck]
    exact ⟨fs, by rw [← hshelf], hpass⟩

/-! ### Tests that pass -/

/-- What is expected of the completion of a text is met: nothing is expected, or the completion is
made and meets every expectation. Where completions are to be recorded, expectations are checked
once this is done, and none is met if it fails. -/
inductive Completes (r : Run σ) (t : Test) (text : String) :
    Dataset.Shelf × σ → Dataset.Shelf × σ → Prop
  | unasked {c : Dataset.Shelf × σ} (nothing : t.completed.getD [] = []) : Completes r t text c c
  | asked {s s' : Dataset.Shelf} {w w₁ w₂ w₃ : σ} {p : Completion.Provider σ}
    {a : Completion.Response} (expected : t.completed.getD [] ≠ [])
    (provider : r.bench.provider = some p)
    (answered : p.complete (r.request text) w = (.answer a, w₁))
    (recorded : comesTo (r.recordFor t a) (s, w₁) = (.ok (), s', w₂))
    (met : Met ⟨a.text, some a, r.judge⟩ (t.completed.getD []) w₂ w₃) :
    Completes r t text (s, w) (s', w₃)

/-- The test passes: its variables are resolved, its template is rendered, and every expectation
of the text and of its completion is met. -/
inductive Passes (r : Run σ) (t : Test) : Dataset.Shelf × σ → Dataset.Shelf × σ → Prop
  | intro {s s₁ : Dataset.Shelf} {w w₁ w₂ : σ} {c' : Dataset.Shelf × σ} {b : Bindings}
    {text : String} (resolved : (t.bindings (r.bench.disk.read w)).run s = (.ok b, s₁))
    (rendered : (r.engineAt w).render r.template b none none w = (.ok text, w₁))
    (met : Met { text := some text, judge := r.judge } (t.rendered.getD []) w₁ w₂)
    (completed : r.Completes t text (s₁, w₂) c') : Passes r t (s, w) c'

/-- What asking for a completion comes to: the answer, or a finding that is an error. -/
lemma comesTo_complete (r : Run σ) (p : Completion.Provider σ) (text : String)
    (c : Dataset.Shelf × σ) :
    (∃ a w, p.complete (r.request text) c.2 = (.answer a, w) ∧
      comesTo (r.complete p text) c = (.ok (.ok a), c.1, w)) ∨
    (∀ a w, p.complete (r.request text) c.2 ≠ (.answer a, w)) ∧
      ∀ x c', comesTo (r.complete p text) c = (.ok x, c') →
        ∃ f, x = .error f ∧ f.status = .error := by
  have hrun : comesTo (r.complete p text) c =
      comesTo (r.answered (p.complete (r.request text) c.2).1)
        (c.1, (p.complete (r.request text) c.2).2) := by
    rw [complete, comesTo_bind, comesTo_act]
    rfl
  rw [hrun]
  rcases p.complete (r.request text) c.2 with ⟨_ | f | _, w⟩
  · exact .inl ⟨_, w, rfl, rfl⟩
  · refine .inr ⟨nofun, fun x c' h => ?_⟩
    obtain ⟨rfl, -⟩ := result_inj h
    exact ⟨_, rfl, rfl⟩
  · refine .inr ⟨nofun, fun x c' h => ?_⟩
    dsimp only [answered] at h
    split at h
    · obtain ⟨rfl, -⟩ := result_inj h
      exact ⟨_, rfl, rfl⟩
    · cases h

/-- The findings about a completion all pass exactly if it is made and meets every expectation. -/
lemma completion_passes_iff {text : String} (h : t.completed.getD [] ≠ []) :
    (∃ fs done, comesTo (r.completion t (t.completed.getD []) text) c = (.ok (fs, done), c') ∧
      ∀ f ∈ fs, f.status = .pass) ↔ r.Completes t text c c' := by
  constructor
  · rintro ⟨fs, done, hrun, hpass⟩
    unfold completion at hrun
    cases hp : r.bench.provider with
    | none =>
      rw [hp] at hrun
      obtain ⟨rfl, -⟩ := Prod.mk.inj (result_inj hrun).1
      cases hpass _ List.mem_cons_self
    | some p =>
      rw [hp] at hrun
      obtain ⟨x, c₁, hx, hrun⟩ := comesTo_bind_ok.mp hrun
      rcases comesTo_complete r p text c with ⟨a, w, hanswer, hcomplete⟩ | ⟨-, hfailed⟩
      · obtain ⟨rfl, rfl⟩ := result_inj (hx.symm.trans hcomplete)
        obtain ⟨u, c₂, hrecord, hrun⟩ := comesTo_bind_ok.mp hrun
        obtain ⟨gs, c₃, hcheck, hrun⟩ := comesTo_bind_ok.mp hrun
        obtain ⟨hgs, rfl⟩ := result_inj hrun
        obtain ⟨rfl, -⟩ := Prod.mk.inj hgs
        obtain ⟨hmet, hshelf⟩ := check_met_iff.mp ⟨gs, hcheck, hpass⟩
        have := Completes.asked h hp hanswer hrecord hmet
        rwa [← hshelf] at this
      · obtain ⟨f, rfl, hf⟩ := hfailed x c₁ hx
        obtain ⟨gs, c₂, -, hrun⟩ := comesTo_bind_ok.mp hrun
        obtain ⟨rfl, -⟩ := Prod.mk.inj (result_inj hrun).1
        rw [hpass f List.mem_cons_self] at hf
        cases hf
  · rintro (⟨hnothing⟩ | ⟨-, hp, hanswer, hrecord, hmet⟩)
    · exact absurd hnothing h
    · rename_i s s' w w₁ w₂ w₃ p a
      have hcomplete : comesTo (r.complete p text) (s, w) = (.ok (.ok a), s, w₁) := by
        rcases comesTo_complete r p text (s, w) with ⟨a', w', hanswer', hcomplete⟩ | ⟨hnone, -⟩
        · obtain ⟨ha, rfl⟩ := Prod.mk.inj (hanswer.symm.trans hanswer')
          rwa [Completion.Outcome.answer.inj ha]
        · exact absurd hanswer (hnone a w₁)
      obtain ⟨gs, hcheck, hpass⟩ : ∃ gs, comesTo (check ⟨a.text, some a, r.judge⟩
          (t.completed.getD [])) (s', w₂) = (.ok gs, s', w₃) ∧ ∀ f ∈ gs, f.status = .pass :=
        check_met_iff.mpr ⟨hmet, rfl⟩
      refine ⟨gs, a.text, ?_, hpass⟩
      unfold completion
      rw [hp]
      refine comesTo_bind_ok.mpr ⟨_, _, hcomplete, ?_⟩
      refine comesTo_bind_ok.mpr ⟨_, _, hrecord, ?_⟩
      exact comesTo_bind_ok.mpr ⟨_, _, hcheck, rfl⟩

/-- What is done about the completion of a text: nothing where nothing is expected of it. -/
def completionFor (r : Run σ) (t : Test) (text : String) : Step σ (List Finding × Option String) :=
  match t.completed.getD [] with
  | [] => pure ([], none)
  | as => r.completion t as text

lemma completionFor_passes_iff {text : String} :
    (∃ fs done, comesTo (r.completionFor t text) c = (.ok (fs, done), c') ∧
      ∀ f ∈ fs, f.status = .pass) ↔ r.Completes t text c c' := by
  unfold completionFor
  split
  · rename_i hnothing
    constructor
    · rintro ⟨fs, done, hrun, -⟩
      obtain ⟨-, rfl⟩ := Prod.mk.inj hrun
      exact .unasked hnothing
    · rintro (_ | ⟨hexpected, -⟩)
      · exact ⟨[], none, rfl, nofun⟩
      · exact absurd hnothing hexpected
  · rename_i hexpected
    exact completion_passes_iff hexpected

/-- The result of a test with its findings. -/
def resultOf (t : Test) (text : String) (first : List Finding)
    (second : List Finding × Option String) : TestResult :=
  { name := t.name, status := .worst ((first ++ second.1).map (·.status)),
    findings := first ++ second.1, rendered := some text, completed := second.2 }

lemma steps_eq (r : Run σ) (t : Test) : r.steps t = do
    let tree ← r.tree
    let b ← shelve (t.bindings tree)
    let text ← r.render b
    let first ← check { text := some text, judge := r.judge } (t.rendered.getD [])
    let second ← r.completionFor t text
    return resultOf t text first second := by
  unfold steps completionFor
  congr; funext tree
  congr; funext b
  congr; funext text
  cases t.rendered.getD [] <;> cases t.completed.getD [] <;> rfl

/-- Unless recording is asked for, nothing stands between an answer and what is expected of it. -/
theorem comesTo_recordFor {a : Completion.Response} (h : r.options.record = false) :
    comesTo (r.recordFor t a) c = (.ok (), c) := by
  unfold recordFor
  cases filled? t.dataset with
  | none => rfl
  | some d => simp only [h, Bool.false_eq_true, if_false]; rfl

/-- All that a test asks for goes well exactly if the test passes. -/
lemma steps_passes_iff :
    (∃ tr, comesTo (r.steps t) c = (.ok tr, c') ∧ tr.status = .pass) ↔ r.Passes t c c' := by
  rw [steps_eq]
  constructor
  · rintro ⟨tr, hrun, hpass⟩
    obtain ⟨tree, c₀, htree, hrun⟩ := comesTo_bind_ok.mp hrun
    obtain ⟨b, c₁, hb, hrun⟩ := comesTo_bind_ok.mp hrun
    obtain ⟨text, c₂, htext, hrun⟩ := comesTo_bind_ok.mp hrun
    obtain ⟨first, c₃, hfirst, hrun⟩ := comesTo_bind_ok.mp hrun
    obtain ⟨second, c₄, hsecond, hrun⟩ := comesTo_bind_ok.mp hrun
    obtain ⟨rfl, rfl⟩ := result_inj hrun
    obtain ⟨hfirstPass, hsecondPass⟩ :=
      List.forall_mem_append.mp (worst_findings_iff.mp hpass)
    obtain ⟨rfl, rfl⟩ := result_inj htree
    rw [comesTo_shelve] at hb
    rw [comesTo_render] at htext
    obtain ⟨hresolved, rfl⟩ := Prod.mk.inj hb
    obtain ⟨hrendered, rfl⟩ := Prod.mk.inj htext
    obtain ⟨hmet, hshelf⟩ := check_met_iff.mp ⟨first, hfirst, hfirstPass⟩
    have hcompletes := completionFor_passes_iff.mp ⟨second.1, second.2, hsecond, hsecondPass⟩
    obtain ⟨s₃, w₃⟩ := c₃
    obtain rfl := hshelf
    exact .intro (Prod.ext hresolved rfl) (Prod.ext hrendered rfl) hmet hcompletes
  · rintro ⟨hresolved, hrendered, hmet, hcompleted⟩
    rename_i s s₁ w w₁ w₂ b text
    obtain ⟨first, hfirst, hfirstPass⟩ : ∃ fs,
        comesTo (check { text := some text, judge := r.judge } (t.rendered.getD [])) (s₁, w₁) =
          (.ok fs, s₁, w₂) ∧ ∀ f ∈ fs, f.status = .pass :=
      check_met_iff.mpr ⟨hmet, rfl⟩
    obtain ⟨fs, done, hsecond, hsecondPass⟩ := completionFor_passes_iff.mpr hcompleted
    refine ⟨resultOf t text first (fs, done), ?_,
      worst_findings_iff.mpr (List.forall_mem_append.mpr ⟨hfirstPass, hsecondPass⟩)⟩
    refine comesTo_bind_ok.mpr ⟨_, _, comesTo_tree r (s, w), ?_⟩
    refine comesTo_bind_ok.mpr ⟨b, (s₁, w), by rw [comesTo_shelve, hresolved], ?_⟩
    refine comesTo_bind_ok.mpr ⟨text, (s₁, w₁), by rw [comesTo_render, hrendered], ?_⟩
    refine comesTo_bind_ok.mpr ⟨first, (s₁, w₂), hfirst, ?_⟩
    exact comesTo_bind_ok.mpr ⟨_, _, hsecond, rfl⟩

/-- A test that cannot be run to its end is an error. -/
lemma comesTo_test (r : Run σ) (t : Test) (c : Dataset.Shelf × σ) :
    comesTo (r.test t) c = match comesTo (r.steps t) c with
      | (.ok tr, c') => (.ok tr, c')
      | (.error .endless, c') => (.error .endless, c')
      | (.error f, c') =>
        (.ok { name := t.name, status := .error, error := some f.summary }, c') := by
  rw [test, comesTo_tryCatch]
  rcases comesTo (r.steps t) c with ⟨f | tr, c'⟩
  · cases f <;> rfl
  · rfl

lemma test_passes_iff :
    (∃ tr, comesTo (r.test t) c = (.ok tr, c') ∧ tr.status = .pass) ↔ r.Passes t c c' := by
  rw [← steps_passes_iff, comesTo_test]
  rcases comesTo (r.steps t) c with ⟨f | tr, c₁⟩
  · constructor
    · rintro ⟨tr, h, hpass⟩
      cases f with
      | endless => cases h
      | _ =>
        obtain ⟨rfl, -⟩ := result_inj h
        cases hpass
    · rintro ⟨tr, h, -⟩
      cases h
  · exact Iff.rfl

lemma name_of_test {tr : TestResult} (h : comesTo (r.test t) c = (.ok tr, c')) :
    tr.name = t.name := by
  rw [comesTo_test] at h
  rcases hsteps : comesTo (r.steps t) c with ⟨f | tr', c₁⟩
  · rw [hsteps] at h
    cases f with
    | endless => cases h
    | _ =>
      obtain ⟨rfl, -⟩ := result_inj h
      rfl
  · rw [hsteps] at h
    obtain ⟨rfl, -⟩ := result_inj h
    rw [steps_eq] at hsteps
    obtain ⟨_, _, -, hrun⟩ := comesTo_bind_ok.mp hsteps
    obtain ⟨_, _, -, hrun⟩ := comesTo_bind_ok.mp hrun
    obtain ⟨_, _, -, hrun⟩ := comesTo_bind_ok.mp hrun
    obtain ⟨_, _, -, hrun⟩ := comesTo_bind_ok.mp hrun
    obtain ⟨_, _, -, hrun⟩ := comesTo_bind_ok.mp hrun
    obtain ⟨rfl, -⟩ := result_inj hrun
    rfl

/-- Tests pass in turn, each in the states that the one before it left. -/
inductive AllPass (r : Run σ) : List Test → Dataset.Shelf × σ → Dataset.Shelf × σ → Prop
  | nil {c : Dataset.Shelf × σ} : AllPass r [] c c
  | cons {t : Test} {ts : List Test} {c c₁ c₂ : Dataset.Shelf × σ} (first : r.Passes t c c₁)
    (rest : AllPass r ts c₁ c₂) : AllPass r (t :: ts) c c₂

lemma tests_pass_iff {ts : List Test} :
    (∃ trs, comesTo (r.tests ts) c = (.ok trs, c') ∧ ∀ tr ∈ trs, tr.status = .pass) ↔
      r.AllPass ts c c' := by
  induction ts generalizing c with
  | nil =>
    constructor
    · rintro ⟨trs, h, -⟩
      obtain ⟨-, rfl⟩ := Prod.mk.inj h
      exact .nil
    · rintro ⟨⟩
      exact ⟨[], rfl, nofun⟩
  | cons t ts ih =>
    constructor
    · rintro ⟨trs, h, hpass⟩
      obtain ⟨tr, c₁, htr, h⟩ := comesTo_bind_ok.mp h
      obtain ⟨us, c₂, hus, h⟩ := comesTo_bind_ok.mp h
      obtain ⟨rfl, rfl⟩ := result_inj h
      obtain ⟨hfirst, hrest⟩ := List.forall_mem_cons.mp hpass
      exact .cons (test_passes_iff.mp ⟨tr, htr, hfirst⟩) (ih.mp ⟨us, hus, hrest⟩)
    · rintro (_ | ⟨first, rest⟩)
      obtain ⟨tr, htr, hfirst⟩ := test_passes_iff.mpr first
      obtain ⟨us, hus, hrest⟩ := ih.mpr rest
      refine ⟨tr :: us, ?_, List.forall_mem_cons.mpr ⟨hfirst, hrest⟩⟩
      exact comesTo_bind_ok.mpr ⟨tr, _, htr, comesTo_bind_ok.mpr ⟨us, _, hus, rfl⟩⟩

/-- Every test that is run has its result. -/
lemma names_of_tests {ts : List Test} {trs : List TestResult}
    (h : comesTo (r.tests ts) c = (.ok trs, c')) : trs.map (·.name) = ts.map (·.name) := by
  induction ts generalizing c c' trs with
  | nil =>
    obtain ⟨rfl, -⟩ := result_inj h
    rfl
  | cons t ts ih =>
    obtain ⟨tr, c₁, htr, h⟩ := comesTo_bind_ok.mp h
    obtain ⟨us, c₂, hus, h⟩ := comesTo_bind_ok.mp h
    obtain ⟨rfl, -⟩ := result_inj h
    rw [List.map_cons, List.map_cons, name_of_test htr, ih hus]

end Run

/-! ### Suites that pass -/

/-- The engine with its plugins loaded, everything remembered being forgotten first. -/
def Bench.ready (b : Bench σ) : StateM σ (Engine σ × Except Failure Unit) := do
  b.memories.own.renew b.settings.judgeCacheTtl
  b.spare.renew Judgment.Cache.standardTtl
  b.engine.loadPlugins b.plugins

/-- The path of the template that a suite in a file is about. -/
def targetPath (b : Bench σ) (path : String) (s : Suite) : String :=
  Files.Path.joined (promptDirectory b.workingDirectory path).text s.config.target

/-- The run of a suite's tests in a state. -/
def Bench.runOf (b : Bench σ) (o : RunOptions) (path : String) (s : Suite) (template : String)
    (w : σ) : Run σ :=
  ⟨b, o, s, (b.ready w).1.1, b.judgeFor o.model (b.ready w).1.1, template,
    promptDirectory b.workingDirectory path⟩

/-- The suite in a file passes: its target can be read, and every selected test passes. -/
inductive SuitePasses (b : Bench σ) (o : RunOptions) (path : String) (s : Suite) (w w' : σ) : Prop
  | intro {template : String} {shelf : Dataset.Shelf}
    (readable : (b.disk.read w).readAt (targetPath b path s) = .ok template)
    (passed : (b.runOf o path s template w).AllPass (selected o.filter s.tests)
      ({ directory := (promptDirectory b.workingDirectory path).text }, (b.ready w).2) (shelf, w'))

/-- A run in a line: the target is read, then plugins are loaded, then tests are run. -/
lemma run_eq_match (b : Bench σ) (o : RunOptions) (path : String) (s : Suite) (w : σ) :
    run b o path s w = match (b.disk.read w).readAt (targetPath b path s) with
      | .error .noPath => (.error (.foreign Files.Tree.Fault.noPath.kind
          (Files.Tree.Fault.noPath.message (targetPath b path s))), w)
      | .error _ =>
        (.ok (.failed s.name ("Failed to load target prompt: " ++ targetPath b path s) 0), w)
      | .ok template =>
        match (b.ready w).1.2 with
        | .error f => (.error f, (b.ready w).2)
        | .ok () =>
          let ran := comesTo ((b.runOf o path s template w).tests (selected o.filter s.tests))
            ({ directory := (promptDirectory b.workingDirectory path).text }, (b.ready w).2)
          (ran.1.map fun ts => .ofTests s.name ts 0, ran.2.2) := by
  have hget : (get : StateM σ σ) w = (w, w) := rfl
  unfold run
  rw [StateM.bind_apply, hget]
  dsimp only
  rw [← targetPath]
  rcases (b.disk.read w).readAt (targetPath b path s) with f | template
  · cases f <;> rfl
  · dsimp only
    simp only [StateM.bind_apply]
    have hready : b.engine.loadPlugins b.plugins (b.spare.renew Judgment.Cache.standardTtl
        (b.memories.own.renew b.settings.judgeCacheTtl w).2).2 = b.ready w := rfl
    rw [hready, Bench.runOf]
    clear hready
    rcases b.ready w with ⟨⟨engine, _ | _⟩, w₁⟩ <;> rfl

lemma run_eq (b : Bench σ) (o : RunOptions) (path : String) (s : Suite) (w : σ)
    (hload : (b.ready w).1.2 = .ok ()) :
    run b o path s w = match (b.disk.read w).readAt (targetPath b path s) with
      | .error .noPath => (.error (.foreign Files.Tree.Fault.noPath.kind
          (Files.Tree.Fault.noPath.message (targetPath b path s))), w)
      | .error _ =>
        (.ok (.failed s.name ("Failed to load target prompt: " ++ targetPath b path s) 0), w)
      | .ok template =>
        let ran := comesTo ((b.runOf o path s template w).tests (selected o.filter s.tests))
          ({ directory := (promptDirectory b.workingDirectory path).text }, (b.ready w).2)
        (ran.1.map fun ts => .ofTests s.name ts 0, ran.2.2) := by
  rw [run_eq_match, hload]

lemma status_ofTests_iff {name : String} {ts : List TestResult} {ms : Int} :
    (Outcome.ofTests name ts ms).status = .pass ↔ ∀ t ∈ ts, t.status = .pass := by
  simp [Outcome.ofTests, Status.worst_eq_pass_iff]

/-- A suite's outcome is a pass exactly if the suite passes. -/
lemma run_passes_iff {b : Bench σ} {o : RunOptions} {path : String} {s : Suite} {w w' : σ}
    (hload : (b.ready w).1.2 = .ok ()) :
    (∃ outcome, run b o path s w = (.ok outcome, w') ∧ outcome.status = .pass) ↔
      SuitePasses b o path s w w' := by
  rw [run_eq b o path s w hload]
  constructor
  · rintro ⟨outcome, h, hpass⟩
    rcases hread : (b.disk.read w).readAt (targetPath b path s) with f | template
    · rw [hread] at h
      cases f with
      | noPath => cases h
      | _ =>
        obtain ⟨rfl, -⟩ := result_inj h
        cases hpass
    · rw [hread] at h
      dsimp only at h
      rcases hran : comesTo ((b.runOf o path s template w).tests (selected o.filter s.tests))
          ({ directory := (promptDirectory b.workingDirectory path).text }, (b.ready w).2) with
        ⟨f | trs, shelf, w₁⟩
      · rw [hran] at h
        cases h
      · rw [hran] at h
        obtain ⟨rfl, rfl⟩ := result_inj h
        exact .intro hread (Run.tests_pass_iff.mp ⟨trs, hran, status_ofTests_iff.mp hpass⟩)
  · rintro ⟨hread, passed⟩
    obtain ⟨trs, hran, hpass⟩ := Run.tests_pass_iff.mpr passed
    rw [hread]
    dsimp only
    rw [hran]
    exact ⟨_, rfl, status_ofTests_iff.mpr hpass⟩

/-- The suite in a file passes: the file holds a suite, and that passes. -/
inductive FilePasses (b : Bench σ) (o : RunOptions) (path : String) (w w' : σ) : Prop
  | intro {s : Suite} (loaded : load (b.disk.read w) path = .ok s)
    (passes : SuitePasses b o path s w w')

lemma runFile_eq (b : Bench σ) (o : RunOptions) (path : String) (w : σ) :
    runFile b o path w = match load (b.disk.read w) path with
      | .error f => (.error f, w)
      | .ok s => run b o path s w := by
  have hget : (get : StateM σ σ) w = (w, w) := rfl
  unfold runFile
  rw [StateM.bind_apply, hget]
  dsimp only
  cases load (b.disk.read w) path <;> rfl

lemma runFile_passes_iff {b : Bench σ} {o : RunOptions} {path : String} {w w' : σ}
    (hload : (b.ready w).1.2 = .ok ()) :
    (∃ outcome, runFile b o path w = (.ok outcome, w') ∧ outcome.status = .pass) ↔
      FilePasses b o path w w' := by
  rw [runFile_eq]
  constructor
  · rintro ⟨outcome, h, hpass⟩
    cases hsuite : load (b.disk.read w) path with
    | error f =>
      rw [hsuite] at h
      cases h
    | ok s =>
      rw [hsuite] at h
      exact .intro hsuite ((run_passes_iff hload).mp ⟨outcome, h, hpass⟩)
  · rintro ⟨hsuite, passes⟩
    rw [hsuite]
    exact (run_passes_iff hload).mpr passes

/-! ### Counting -/

lemma Summary.total_ofTests (ts : List TestResult) (ms : Int) :
    (ofTests ts ms).total = (ofTests ts ms).passed + (ofTests ts ms).failed +
      (ofTests ts ms).errored := by
  simp only [ofTests]
  induction ts with
  | nil => rfl
  | cons t ts ih =>
    simp only [List.length_cons, List.countP_cons]
    cases t.status <;> simp <;> omega

/-- The outcome counts the selected tests of a suite: every one was run, unless the suite could not
be run at all, and each is passed, failed or errored. -/
structure Outcome.Counts (outcome : Outcome) (o : RunOptions) (s : Suite) : Prop where
  ran : outcome.tests.map (·.name) =
    if outcome.error.isSome then [] else (selected o.filter s.tests).map (·.name)
  total : outcome.summary.total = outcome.tests.length
  sum : outcome.summary.total =
    outcome.summary.passed + outcome.summary.failed + outcome.summary.errored

lemma run_counts {b : Bench σ} {o : RunOptions} {path : String} {s : Suite} {w w' : σ}
    {outcome : Outcome} (hload : (b.ready w).1.2 = .ok ())
    (h : run b o path s w = (.ok outcome, w')) : outcome.Counts o s := by
  rw [run_eq b o path s w hload] at h
  rcases hread : (b.disk.read w).readAt (targetPath b path s) with f | template
  · rw [hread] at h
    cases f with
    | noPath => cases h
    | _ =>
      obtain ⟨rfl, -⟩ := result_inj h
      exact ⟨rfl, rfl, Summary.total_ofTests _ _⟩
  · rw [hread] at h
    dsimp only at h
    rcases hran : comesTo ((b.runOf o path s template w).tests (selected o.filter s.tests))
        ({ directory := (promptDirectory b.workingDirectory path).text }, (b.ready w).2) with
      ⟨f | trs, shelf, w₁⟩
    · rw [hran] at h
      cases h
    · rw [hran] at h
      obtain ⟨rfl, -⟩ := result_inj h
      exact ⟨Run.names_of_tests hran, rfl, Summary.total_ofTests _ _⟩

lemma runFile_counts {b : Bench σ} {o : RunOptions} {path : String} {w w' : σ} {outcome : Outcome}
    (hload : (b.ready w).1.2 = .ok ()) (h : runFile b o path w = (.ok outcome, w')) :
    ∃ s, load (b.disk.read w) path = .ok s ∧ outcome.Counts o s := by
  rw [runFile_eq] at h
  cases hsuite : load (b.disk.read w) path with
  | error f =>
    rw [hsuite] at h
    cases h
  | ok s =>
    rw [hsuite] at h
    exact ⟨s, rfl, run_counts hload h⟩

end Stencil.Suite
