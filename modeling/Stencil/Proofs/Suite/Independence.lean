import Stencil.Proofs.Dataset.Shelf
import Stencil.Proofs.Evaluation.Coupling
import Stencil.Proofs.Suite.Run

/-!
Tests of a suite apart from each other.

What tests share is an engine, a judge, a shelf of datasets and the files. A test leaves the files
as they are and puts nothing on the shelf but what is in them, so it comes to the same in whatever
state the tests before it left the rest (`isSteady_test`). Hence each has a result of its own, which
it has among any other tests in any order (`run_alone`).
-/

namespace Stencil

variable {ε τ σ α β : Type} {I : τ × σ → Prop} {J : σ → Prop}

/-! ### Results in turn -/

namespace Except

variable {f : α → Except ε β} {g : α → β} {as : List α} {bs : List β}

lemma exists_of_mapM (h : as.mapM f = .ok bs) : ∀ a ∈ as, ∃ b, f a = .ok b := by
  induction as generalizing bs with
  | nil => exact nofun
  | cons a as ih =>
    rw [List.mapM_cons] at h
    obtain ⟨b, hb, h⟩ := Except.bind_eq_ok.mp h
    obtain ⟨cs, hcs, -⟩ := Except.bind_eq_ok.mp h
    exact List.forall_mem_cons.mpr ⟨⟨b, hb⟩, ih hcs⟩

lemma mapM_eq_ok (h : ∀ a ∈ as, f a = .ok (g a)) : as.mapM f = .ok (as.map g) := by
  induction as with
  | nil => rfl
  | cons a as ih =>
    obtain ⟨ha, has⟩ := List.forall_mem_cons.mp h
    rw [List.mapM_cons, ha, ih has]
    rfl

end Except

/-! ### Names in lower case -/

namespace Text

/-- The lower case of a character that is no capital sigma, wherever it stands. -/
def lowered (c : Char) : List Char :=
  if c.toNat == 0x130 then ['i', Char.ofNat 0x307] else [lowerChar c]

lemma toList_lower {s : String} (h : 'Σ' ∉ s.toList) :
    (lower s).toList = s.toList.flatMap lowered := by
  have hfrom (before : List Char) {cs : List Char} (hcs : 'Σ' ∉ cs) :
      lowerFrom before cs = cs.flatMap lowered := by
    induction cs generalizing before with
    | nil => rfl
    | cons c cs ih =>
      obtain ⟨hc, hcs⟩ := List.ne_and_not_mem_of_not_mem_cons hcs
      have hsigma : (c.toNat == 0x3a3) = false := by
        refine beq_eq_false_iff_ne.mpr fun h => hc ?_
        exact (Char.toNat_inj.mp (h : c.toNat = 'Σ'.toNat)).symm
      rw [lowerFrom, hsigma, ih _ hcs, List.flatMap_cons]
      rfl
  rw [lower, String.toList_ofList, hfrom [] h]

/-- A text has another in it but for case. -/
def HasButForCase (w s : String) : Prop :=
  w.toList.flatMap lowered <:+: s.toList.flatMap lowered

instance (w s : String) : Decidable (HasButForCase w s) :=
  inferInstanceAs (Decidable (_ <:+: _))

end Text

/-! ### Steps that do not depend on the state -/

/-- From all states of a kind there is one result, and a state of the kind is left. -/
def StateM.IsSteady (J : σ → Prop) (m : StateM σ α) : Prop :=
  ∀ w w', J w → J w' → (m w).1 = (m w').1 ∧ J (m w).2

namespace StateM.IsSteady

variable {m : StateM σ α} {f : α → StateM σ β}

lemma pure (a : α) : IsSteady J (Pure.pure a : StateM σ α) := fun _ _ hw _ => ⟨rfl, hw⟩

lemma bind (hm : IsSteady J m) (hf : ∀ a, IsSteady J (f a)) : IsSteady J (m >>= f) := by
  intro w w' hw hw'
  obtain ⟨hsame, hkept⟩ := hm w w' hw hw'
  have hkept' := (hm w' w hw' hw).2
  rw [StateM.bind_apply, StateM.bind_apply, hsame]
  exact hf _ _ _ hkept hkept'

end StateM.IsSteady

/-- From all states of a kind the step comes to one result, and it leaves a state of the kind. -/
def IsSteady (I : τ × σ → Prop) (x : ExceptT ε (StateT τ (StateM σ)) α) : Prop :=
  ∀ c c', I c → I c' → (comesTo x c).1 = (comesTo x c').1 ∧ I (comesTo x c).2

namespace IsSteady

variable {x : ExceptT ε (StateT τ (StateM σ)) α} {f : α → ExceptT ε (StateT τ (StateM σ)) β}

lemma pure (a : α) : IsSteady I (Pure.pure a : ExceptT ε (StateT τ (StateM σ)) α) :=
  fun _ _ hc _ => ⟨rfl, hc⟩

lemma bind (hx : IsSteady I x) (hf : ∀ a, IsSteady I (f a)) : IsSteady I (x >>= f) := by
  intro c c' hc hc'
  obtain ⟨hsame, hkept⟩ := hx c c' hc hc'
  have hkept' := (hx c' c hc' hc).2
  rw [comesTo_bind, comesTo_bind]
  rcases hrun : comesTo x c with ⟨e | a, d⟩ <;> rcases hrun' : comesTo x c' with ⟨e' | a', d'⟩ <;>
    rw [hrun] at hsame hkept <;> rw [hrun'] at hsame hkept'
  · exact ⟨congrArg Except.error (Except.error.inj hsame), hkept⟩
  · cases hsame
  · cases hsame
  · obtain rfl := Except.ok.inj hsame
    exact hf a d d' hkept hkept'

end IsSteady

/-! ### Evaluations that leave the files as they are -/

namespace Suite

/-- The judge answers as a function of value and question, and leaves the files as they are. -/
structure Disk.Trusts (disk : Disk σ) (judge : Judge σ) : Prop where
  isFunction : judge.IsFunction
  keeps : ∀ v question w, disk.read (judge.ask v question w).2 = disk.read w

end Suite

namespace Evaluation

open Suite (Disk)

variable {disk : Disk σ} {tree : Files.Tree} {e : Setup σ} {s t : State σ}

/-- What two runs without context have in common that start from the same files. -/
structure SameButWorld (disk : Disk σ) (tree : Files.Tree) (s t : State σ) : Prop where
  bindings : s.bindings = t.bindings
  parts : s.parts = t.parts
  issues : s.issues = t.issues
  left : disk.read s.world = tree
  right : disk.read t.world = tree

/-- Without a resolver, a lookup answers by the paths alone. -/
lemma exists_resolvePaths_none (paths : List String) : ∃ answers, ∀ w : σ,
    Context.resolvePaths (none : Option (Context.Resolver σ)) paths w = (answers, w) := by
  unfold Context.resolvePaths
  dsimp only
  split <;> exact ⟨_, fun _ => rfl⟩

lemma SameButWorld.entered (hresolver : e.resolver = none) (h : SameButWorld disk tree s t)
    (ns : List Node) : SameButWorld disk tree (e.entered ns s) (e.entered ns t) := by
  obtain ⟨answers, hanswers⟩ := exists_resolvePaths_none (σ := σ) (unbound s.bindings ns)
  rw [← hresolver] at hanswers
  have hunbound : unbound t.bindings ns = unbound s.bindings ns := by rw [h.bindings]
  have hs : e.answers ns s = answers := congrArg Prod.fst (hanswers s.world)
  have ht : e.answers ns t = answers := by
    rw [Setup.answers, hunbound, hanswers]
  refine ⟨?_, congrArg (knownParts · (Node.parts ns)) h.parts, ?_, ?_, ?_⟩
  · change (e.lookedUp ns s).bindings = (e.lookedUp ns t).bindings
    unfold Setup.lookedUp
    rw [hunbound, hs, ht]
    split
    · exact h.bindings
    · rw [h.bindings]
  · change (e.lookedUp ns s).issues = (e.lookedUp ns t).issues
    rw [lookedUp_issues, lookedUp_issues, hs, ht, h.issues]
  · change disk.read (e.lookedUp ns s).world = tree
    rw [lookedUp_world, hanswers]
    exact h.left
  · change disk.read (e.lookedUp ns t).world = tree
    rw [lookedUp_world, hunbound, hanswers]
    exact h.right

lemma reduceAlike_of_trusts (hresolver : e.resolver = none)
    (hjudge : ∀ judge, e.judge = some judge → disk.Trusts judge) (origin : Option String)
    (ns : List Node) (b : Bindings) (w w' : σ) :
    ReduceAlike e e (fun _ _ => False) (e.Visits origin ns b w) (e.Visits origin ns b w')
      (SameButWorld disk tree) where
  strict := rfl
  operators := rfl
  leads hx hxy := hx.leads hxy
  leads' hy hxy := hy.leads hxy
  names h := by rw [h.bindings]
  lookup _ _ h := by rw [h.bindings]
  judge h v question := by
    refine askJudge_coupled rfl rfl (fun judge hj => (hjudge judge hj).isFunction) v question h
      fun judge hj => ?_
    have hkeeps := (hjudge judge hj).keeps v question
    exact ⟨h.bindings, h.parts, h.issues, (hkeeps _).trans h.left, (hkeeps _).trans h.right⟩
  present hx _ h := by
    obtain ⟨r, hr⟩ := hx.orderly.present
    exact ⟨r, hr, h.bindings ▸ hr⟩
  loader := rfl
  loads _ _ h h' _ := by rw [Option.some.inj (h.symm.trans h')]
  timeout := rfl
  deep hx := hx.orderly.depth_ne_zero
  deep' hy := hy.orderly.depth_ne_zero
  skipped hskip := hskip.elim
  context _ hx _ h := by
    obtain ⟨r, hr⟩ := hx.orderly.context
    exact ⟨r, hr, h.bindings ▸ hr⟩
  parts h := by
    rw [h.parts]
    exact .refl _
  report h kind message path _ :=
    ⟨rfl, h.bindings, h.parts,
      congrArg (fun issues => issues ++ [(⟨kind, message, path⟩ : Issue)]) h.issues,
      h.left, h.right⟩
  enter := by
    intro depth stack n key ms ns s t _ _ h
    unfold Eval.Coupled
    rw [enter_on, enter_on]
    exact ⟨rfl, h.entered hresolver ms⟩

/-- An evaluation without context shows the same whatever the state of its judge, as long as this
answers as a function and does nothing to the files. -/
lemma isSteady_evaluate (hresolver : e.resolver = none)
    (hjudge : ∀ judge, e.judge = some judge → disk.Trusts judge) (origin : Option String)
    (d : Document) (b : Bindings) :
    StateM.IsSteady (disk.read · = tree) (evaluate e origin d b) := by
  intro w w' hw hw'
  have hsame : SameButWorld disk tree ⟨b, [], [], w⟩ ⟨b, [], [], w'⟩ :=
    ⟨rfl, rfl, rfl, hw, hw'⟩
  have hstart := hsame.entered hresolver d.children
  have hstep := evaluateIn_coupled
    (reduceAlike_of_trusts hresolver hjudge origin d.children b w w') (.refl _) rfl hstart
  obtain ⟨hview, s, t, hR, hs, -⟩ := evaluate_coupled (f := id) hstep fun h d => by
    rw [h.bindings, h.parts, h.issues]
  rw [Except.map_id] at hview
  exact ⟨hview.symm, (congrArg disk.read hs).trans hR.left⟩

end Evaluation

namespace Suite

variable {disk : Disk σ} {tree : Files.Tree}

lemma isSteady_render {e : Engine σ} (hresolver : e.resolver = none)
    (hjudge : ∀ judge, e.judge = some judge → disk.Trusts judge) (source : String)
    (b : Bindings) :
    StateM.IsSteady (disk.read · = tree) (e.render source b none none) := by
  unfold Engine.render renderTemplate
  extract_lets parsed
  split
  · exact .pure _
  · refine .bind (Evaluation.isSteady_evaluate (e := e.setup) hresolver hjudge none _ b) fun r => ?_
    cases r <;> exact .pure _

/-! ### Expectations -/

section

variable {s : Subject σ} (hjudge : ∀ judge, s.judge = some judge → disk.Trusts judge)

include hjudge

lemma isSteady_askJudge (operator : String) (question : Except CheckFault Question) :
    StateM.IsSteady (disk.read · = tree) (askJudge operator question s) := by
  unfold askJudge
  split
  · exact .pure _
  · exact .pure _
  · rename_i q judge hsome
    obtain ⟨⟨answer, hanswer⟩, hkeeps⟩ := hjudge judge hsome
    have hask : StateM.IsSteady (disk.read · = tree)
        (judge.ask (.ofOptText s.text) q.question) := fun w w' hw _ =>
      ⟨(hanswer _ _ w).trans (hanswer _ _ w').symm, (hkeeps _ _ w).trans hw⟩
    refine hask.bind fun v => ?_
    split <;> exact .pure _

lemma isSteady_check (a : Assertion) :
    StateM.IsSteady (disk.read · = tree) (a.check s) := by
  unfold Assertion.check
  split
  · exact .pure _
  · rename_i op _
    refine StateM.IsSteady.bind ?_ fun _ => .pure _
    cases op with
    | judged | sentiment => exact isSteady_askJudge hjudge _ _
    | _ => exact .pure _

lemma isSteady_checkAll (as : List Assertion) :
    StateM.IsSteady (disk.read · = tree) (checkAll s as) := by
  induction as with
  | nil => exact .pure _
  | cons a as ih =>
    refine (isSteady_check hjudge a).bind fun f => ?_
    cases f with
    | none => exact .pure _
    | some f => exact ih.bind fun _ => .pure _

end

/-! ### Shelves -/

/-- What is on the shelf is what is in the files. -/
structure Faithful (tree : Files.Tree) (directory : String) (s : Dataset.Shelf) : Prop where
  directory_eq : s.directory = directory
  loads : ∀ name d, s.loaded.lookup name = some d → Dataset.load tree (s.pathFor name) = .ok d

variable {directory : String} {s s' : Dataset.Shelf}

lemma Faithful.pathFor (h : Faithful tree directory s) (name : String) :
    s.pathFor name = Dataset.Shelf.pathFor { directory } name := by
  unfold Dataset.Shelf.pathFor Dataset.Shelf.folder
  rw [h.directory_eq]

/-- A dataset is fetched as it is in its file, and what is put on the shelf is too. -/
lemma Faithful.fetch (h : Faithful tree directory s) (name : String) :
    ((Dataset.fetch tree name).run s).1 =
        Dataset.load tree (Dataset.Shelf.pathFor { directory } name) ∧
      Faithful tree directory ((Dataset.fetch tree name).run s).2 := by
  rw [Dataset.run_fetch, ← h.pathFor name]
  cases hlookup : s.loaded.lookup name with
  | some d => exact ⟨(h.loads name d hlookup).symm, h⟩
  | none =>
    dsimp only
    cases hload : Dataset.load tree (s.pathFor name) with
    | error f => exact ⟨rfl, h⟩
    | ok d =>
      refine ⟨rfl, h.directory_eq, fun n d' hd' => ?_⟩
      by_cases hn : n = name
      · subst hn
        obtain rfl := Option.some.inj ((Dataset.lookup_put s n d).symm.trans hd')
        exact hload
      · exact h.loads n d' ((Dataset.lookup_put_of_ne hn s d).symm.trans hd')

/-- What is looked up in a dataset depends on the files alone. -/
lemma Faithful.lookup {f : Dataset → Dataset.Shelving α}
    (hf : ∀ d, ∃ r, ∀ s, (f d).run s = (r, s)) (h : Faithful tree directory s)
    (h' : Faithful tree directory s') (name : String) :
    ((Dataset.fetch tree name >>= f).run s).1 = ((Dataset.fetch tree name >>= f).run s').1 ∧
      Faithful tree directory ((Dataset.fetch tree name >>= f).run s).2 := by
  obtain ⟨hresult, hkept⟩ := h.fetch name
  obtain ⟨hresult', -⟩ := h'.fetch name
  rw [Dataset.run_bind, Dataset.run_bind]
  rcases hrun : (Dataset.fetch tree name).run s with ⟨e | d, s₁⟩ <;>
    rcases hrun' : (Dataset.fetch tree name).run s' with ⟨e' | d', s₁'⟩ <;>
    rw [hrun] at hresult hkept <;> rw [hrun', ← hresult] at hresult'
  · exact ⟨congrArg Except.error (Except.error.inj hresult'.symm), hkept⟩
  · cases hresult'
  · cases hresult'
  · obtain rfl := Except.ok.inj hresult'
    obtain ⟨r, hr⟩ := hf d'
    dsimp only
    rw [hr, hr]
    exact ⟨rfl, hkept⟩

lemma Faithful.bindings (h : Faithful tree directory s) (h' : Faithful tree directory s')
    (t : Test) : ((t.bindings tree).run s).1 = ((t.bindings tree).run s').1 ∧
      Faithful tree directory ((t.bindings tree).run s).2 := by
  unfold Test.bindings
  split
  · exact ⟨rfl, h⟩
  · rename_i set _ _ _
    refine h.lookup (fun d => ?_) h' _
    cases d.findSet? set <;> exact ⟨_, fun _ => rfl⟩
  · refine h.lookup (fun d => ?_) h' _
    cases d.parameters <;> exact ⟨_, fun _ => rfl⟩
  · exact ⟨rfl, h⟩

/-! ### Tests -/

namespace Run

variable {r : Run σ} {t : Test} {ts : List Test} {c₀ : Dataset.Shelf × σ}

/-- The states that tests are run in while the files are as they are. -/
def Among (r : Run σ) (tree : Files.Tree) (c : Dataset.Shelf × σ) : Prop :=
  Faithful tree r.directory.text c.1 ∧ r.bench.disk.read c.2 = tree

/-- The run asks nothing of context, and its judges answer as functions. -/
structure IsClosed (r : Run σ) : Prop where
  resolver : r.engine.resolver = none
  engineJudge : ∀ judge, r.engine.judge = some judge → r.bench.disk.Trusts judge
  judge : ∀ judge, r.judge = some judge → r.bench.disk.Trusts judge

lemma isSteady_act {m : StateM σ α} (hm : StateM.IsSteady (r.bench.disk.read · = tree) m) :
    IsSteady (r.Among tree) (act m) := by
  intro c c' hc hc'
  obtain ⟨hsame, hkept⟩ := hm c.2 c'.2 hc.2 hc'.2
  exact ⟨congrArg Except.ok hsame, hc.1, hkept⟩

lemma isSteady_settle (x : Except Failure α) : IsSteady (r.Among tree) (settle x : Step σ α) := by
  intro c c' hc _
  rw [comesTo_settle, comesTo_settle]
  exact ⟨rfl, hc⟩

lemma isSteady_tree_bind {f : Files.Tree → Step σ α} (hf : IsSteady (r.Among tree) (f tree)) :
    IsSteady (r.Among tree) (r.tree >>= f) := by
  intro c c' hc hc'
  rw [comesTo_bind, comesTo_bind, comesTo_tree, comesTo_tree, hc.2, hc'.2]
  exact hf c c' hc hc'

lemma isSteady_bindings (t : Test) :
    IsSteady (r.Among tree) (shelve (t.bindings tree) : Step σ Bindings) := by
  intro c c' hc hc'
  obtain ⟨hsame, hkept⟩ := hc.1.bindings hc'.1 t
  rw [comesTo_shelve, comesTo_shelve]
  exact ⟨hsame, hkept, hc.2⟩

lemma isSteady_render (hr : r.IsClosed) (b : Bindings) : IsSteady (r.Among tree) (r.render b) := by
  refine isSteady_tree_bind ?_
  refine IsSteady.bind (isSteady_act ?_) fun _ => isSteady_settle _
  exact Suite.isSteady_render (e := { r.engine with loader := some (r.loader tree) }) hr.resolver
    hr.engineJudge _ b

lemma isSteady_check (hr : r.IsClosed) (text : String) (as : List Assertion) :
    IsSteady (r.Among tree) (check { text := some text, judge := r.judge } as) := by
  refine IsSteady.bind (isSteady_act (isSteady_checkAll hr.judge as)) fun fs => ?_
  cases fs with
  | none => exact isSteady_settle (.error .endless)
  | some fs => exact .pure fs

/-- **A test without completions comes to the same in whatever state others leave.** -/
lemma isSteady_test (hr : r.IsClosed) (ht : t.completed.getD [] = []) :
    IsSteady (r.Among tree) (r.test t) := by
  have hsteps : IsSteady (r.Among tree) (r.steps t) := by
    rw [steps_eq]
    refine isSteady_tree_bind ((isSteady_bindings t).bind fun b => ?_)
    refine (isSteady_render hr b).bind fun text => ?_
    refine (isSteady_check hr text _).bind fun first => ?_
    unfold completionFor
    rw [ht]
    exact IsSteady.bind (.pure _) fun _ => .pure _
  intro c c' hc hc'
  obtain ⟨hsame, hkept⟩ := hsteps c c' hc hc'
  rw [comesTo_test, comesTo_test]
  rcases hrun : comesTo (r.steps t) c with ⟨f | tr, d⟩ <;>
    rcases hrun' : comesTo (r.steps t) c' with ⟨f' | tr', d'⟩ <;>
    rw [hrun] at hsame hkept <;> rw [hrun'] at hsame
  · obtain rfl := Except.error.inj hsame
    cases f <;> exact ⟨rfl, hkept⟩
  · cases hsame
  · cases hsame
  · exact ⟨hsame, hkept⟩

/-- Tests in turn come to what each of them comes to alone. -/
lemma comesTo_tests (hr : r.IsClosed) (hts : ∀ t ∈ ts, t.completed.getD [] = [])
    (hc₀ : r.Among tree c₀) : ∀ c, r.Among tree c →
      (comesTo (r.tests ts) c).1 = ts.mapM fun t => (comesTo (r.test t) c₀).1 := by
  induction ts with
  | nil => exact fun _ _ => rfl
  | cons t ts ih =>
    intro c hc
    obtain ⟨ht, hts⟩ := List.forall_mem_cons.mp hts
    obtain ⟨hsame, hkept⟩ := isSteady_test hr ht c c₀ hc hc₀
    rw [tests, comesTo_bind, List.mapM_cons, ← hsame]
    rcases hrun : comesTo (r.test t) c with ⟨f | tr, d⟩
    · rfl
    · rw [hrun] at hkept
      have hrest := ih hts d hkept
      dsimp only
      rw [comesTo_bind, ← hrest]
      rcases comesTo (r.tests ts) d with ⟨_ | us, d'⟩ <;> rfl

/-- Without completions it does not matter what is asked of the run besides. -/
lemma test_congr (ht : t.completed.getD [] = []) (o : RunOptions) (s : Suite) :
    { r with options := o, suite := s }.test t = r.test t := by
  unfold test
  rw [steps_eq, steps_eq]
  unfold completionFor
  rw [ht]
  rfl

lemma tests_congr (hts : ∀ t ∈ ts, t.completed.getD [] = []) (o : RunOptions) (s : Suite) :
    { r with options := o, suite := s }.tests ts = r.tests ts := by
  induction ts with
  | nil => rfl
  | cons t ts ih =>
    obtain ⟨ht, hts⟩ := List.forall_mem_cons.mp hts
    rw [tests, tests, test_congr ht, ih hts]

end Run

/-! ### Runs -/

lemma mem_of_mem_selected {filter : Option String} {ts : List Test} :
    ∀ t ∈ selected filter ts, t ∈ ts := by
  unfold selected
  split
  · exact fun _ => id
  · exact fun _ => List.mem_of_mem_filter

/-- Loading plugins leaves the judge and the resolver as they are. -/
lemma loadPlugins_keeps (e : Engine σ) (ps : List (Plugin σ)) (w : σ) :
    (e.loadPlugins ps w).1.1.judge = e.judge ∧ (e.loadPlugins ps w).1.1.resolver = e.resolver := by
  have hload (e : Engine σ) (p : Plugin σ) (w : σ) :
      (e.loadPlugin p w).1.1.judge = e.judge ∧ (e.loadPlugin p w).1.1.resolver = e.resolver := by
    unfold Engine.loadPlugin
    cases p.fault? with
    | some f => exact ⟨rfl, rfl⟩
    | none =>
      rcases p.onLoad with _ | act | _
      · exact ⟨rfl, rfl⟩
      · dsimp only
        rw [StateM.bind_apply]
        rcases act w with ⟨_ | _, w'⟩ <;> exact ⟨rfl, rfl⟩
      · exact ⟨rfl, rfl⟩
  induction ps generalizing e w with
  | nil => exact ⟨rfl, rfl⟩
  | cons p ps ih =>
    obtain ⟨hjudge, hresolver⟩ := hload e p w
    rw [Engine.loadPlugins, StateM.bind_apply]
    rcases hrun : e.loadPlugin p w with ⟨⟨e', _ | _⟩, w'⟩ <;> rw [hrun] at hjudge hresolver
    · exact ⟨hjudge, hresolver⟩
    · obtain ⟨hjudge', hresolver'⟩ := ih e' w'
      exact ⟨hjudge'.trans hjudge, hresolver'.trans hresolver⟩

section

variable {b : Bench σ} {o : RunOptions} {path template : String} {s : Suite} {w : σ}
  (hstore : b.settings.contextStore = none)
  (hjudge : ∀ judge, b.judge = some judge → b.disk.Trusts judge)
  (hprovider : b.judge = none → b.provider = none)

include hstore hjudge hprovider

/-- The run of a bench with no judge but its own asks nothing of context or completions. -/
lemma isClosed_runOf : (b.runOf o path s template w).IsClosed := by
  obtain ⟨hkept, hresolver⟩ : (b.ready w).1.1.judge = b.engine.judge ∧
      (b.ready w).1.1.resolver = b.engine.resolver := loadPlugins_keeps b.engine b.plugins _
  have hengine : b.engine.judge = b.judge := by
    cases h : b.judge with
    | none => simp [Bench.engine, Engine.create, h, hprovider h]
    | some judge => simp [Bench.engine, Engine.create, h]
  have hnone : b.engine.resolver = none := by simp [Bench.engine, Engine.create, hstore]
  refine ⟨hresolver.trans hnone, fun judge h => hjudge judge ?_, fun judge h => hjudge judge ?_⟩
  · rw [← hengine, ← hkept]
    exact h
  · have hfor : b.judgeFor o.model (b.ready w).1.1 = b.judge := by
      rw [Bench.judgeFor, hkept, hengine]
      cases h : b.judge with
      | none => simp [hprovider h]
      | some judge => rfl
    rw [← hfor]
    exact h

/-- Either no test is run, whatever tests there are, or each test has a result of its own, and a run
comes to the results of the selected tests in turn. -/
lemma run_alone (o : RunOptions) (path : String) (s : Suite) (w : σ) :
    (∃ x : Except Failure Outcome,
      (∀ outcome, x = .ok outcome → outcome.error.isSome = true ∧ outcome.tests = []) ∧
      ∀ filter ts, (run b { o with filter := filter } path { s with tests := ts } w).1 = x) ∨
    ∃ alone : Test → Except Failure TestResult, ∀ filter ts,
      (∀ t ∈ ts, t.completed.getD [] = []) →
        (run b { o with filter := filter } path { s with tests := ts } w).1 =
          ((selected filter ts).mapM alone).map (.ofTests s.name · 0) := by
  have htarget (ts : List Test) :
      targetPath b path { s with tests := ts } = targetPath b path s := rfl
  rcases hread : (b.disk.read w).readAt (targetPath b path s) with f | template
  · have hrun (filter : Option String) (ts : List Test) :
        (run b { o with filter := filter } path { s with tests := ts } w).1 =
          (run b o path { s with tests := [] } w).1 := by
      rw [run_eq_match, run_eq_match, htarget ts, htarget [], hread]
      cases f <;> rfl
    refine .inl ⟨_, fun outcome h => ?_, hrun⟩
    rw [run_eq_match, htarget [], hread] at h
    cases f with
    | noPath => cases h
    | _ =>
      obtain rfl := Except.ok.inj h
      exact ⟨rfl, rfl⟩
  · rcases hload : (b.ready w).1.2 with f | _
    · refine .inl ⟨.error f, nofun, fun filter ts => ?_⟩
      rw [run_eq_match, htarget, hread]
      dsimp only
      rw [hload]
    · let r := b.runOf o path s template w
      let c₀ : Dataset.Shelf × σ :=
        ({ directory := (promptDirectory b.workingDirectory path).text }, (b.ready w).2)
      have hc₀ : r.Among (b.disk.read (b.ready w).2) c₀ := ⟨⟨rfl, nofun⟩, rfl⟩
      refine .inr ⟨fun t => (comesTo (r.test t) c₀).1, fun filter ts hts => ?_⟩
      have hselected : ∀ t ∈ selected filter ts, t.completed.getD [] = [] :=
        fun t ht => hts t (mem_of_mem_selected t ht)
      have hclosed : r.IsClosed := isClosed_runOf hstore hjudge hprovider
      rw [run_eq_match, htarget ts, hread]
      dsimp only
      rw [hload]
      dsimp only
      have hsame := Run.tests_congr (r := r) hselected { o with filter := filter }
        { s with tests := ts }
      have hresults := Run.comesTo_tests hclosed hselected hc₀ c₀ hc₀
      exact congrArg (Except.map (Outcome.ofTests s.name · 0))
        ((congrArg (fun x => (comesTo x c₀).1) hsame).trans hresults)

omit hstore hjudge hprovider in
/-- Where no capital sigma is, the tests are selected whose names have the filter in them but for
case. -/
lemma selected_eq {filter : Option String} {ts : List Test}
    (hfilter : 'Σ' ∉ (filter.getD "").toList) (hts : ∀ t ∈ ts, 'Σ' ∉ t.name.toList) :
    selected filter ts = ts.filter fun t => Text.HasButForCase (filter.getD "") t.name := by
  have hall : ts = ts.filter fun t => Text.HasButForCase "" t.name := by
    refine (List.filter_eq_self.mpr fun t _ => decide_eq_true ?_).symm
    exact List.nil_infix
  cases filter with
  | none => exact hall
  | some f =>
    by_cases hf : f = ""
    · subst hf
      exact hall
    · have hfilled : filled? (some f) = some f := by simp [filled?, hf]
      rw [selected, hfilled]
      refine List.filter_congr fun t ht => Bool.eq_iff_iff.mpr ?_
      have hf : 'Σ' ∉ f.toList := hfilter
      rw [Text.hasText_iff, Text.toList_lower hf, Text.toList_lower (hts t ht), decide_eq_true_iff]
      rfl

/-- **Tests of a suite are independent**: in a run without completions and without context, each
test has a result of its own. A run with a filter comes to the results of the tests that it selects,
in order, and so does a run of any of the tests in any order. The tests that are selected are those
whose names have the filter in them but for case, where no capital sigma is in them. -/
theorem run_selected {outcome : Outcome} (hcompleted : ∀ t ∈ s.tests, t.completed.getD [] = [])
    (hrun : (run b { o with filter := none } path s w).1 = .ok outcome) :
    ∃ alone : Test → TestResult,
      outcome.tests = (if outcome.error.isSome then [] else s.tests.map alone) ∧
      ∀ filter ts, (∀ t ∈ ts, t ∈ s.tests) →
        (∃ outcome', (run b { o with filter := filter } path { s with tests := ts } w).1 =
            .ok outcome' ∧ outcome'.error = outcome.error ∧
          outcome'.tests =
            if outcome.error.isSome then [] else (selected filter ts).map alone) ∧
        ('Σ' ∉ (filter.getD "").toList → (∀ t ∈ ts, 'Σ' ∉ t.name.toList) →
          selected filter ts = ts.filter fun t => Text.HasButForCase (filter.getD "") t.name) := by
  rcases run_alone hstore hjudge hprovider o path s w with ⟨x, hx, hall⟩ | ⟨alone, halone⟩
  · obtain rfl : x = .ok outcome := (hall none s.tests).symm.trans hrun
    obtain ⟨herror, htests⟩ := hx outcome rfl
    refine ⟨fun t => { name := t.name, status := .error }, by rw [htests, if_pos herror],
      fun filter ts _ => ⟨⟨outcome, hall filter ts, rfl, by rw [htests, if_pos herror]⟩,
        selected_eq⟩⟩
  · have hwhole := (halone none s.tests hcompleted).symm.trans hrun
    cases hresults : (selected none s.tests).mapM alone with
    | error f =>
      rw [hresults] at hwhole
      cases hwhole
    | ok trs =>
      rw [hresults] at hwhole
      obtain rfl := Except.ok.inj hwhole
      let result (t : Test) : TestResult :=
        (alone t).toOption.getD { name := t.name, status := .error }
      have hresult : ∀ t ∈ s.tests, alone t = .ok (result t) := fun t ht => by
        obtain ⟨tr, htr⟩ := Except.exists_of_mapM hresults t ht
        simp only [result, htr]
        rfl
      have hall := Except.mapM_eq_ok hresult
      refine ⟨result, Except.ok.inj (hresults.symm.trans hall), fun filter ts hts => ?_⟩
      have hsub : ∀ t ∈ selected filter ts, t ∈ s.tests := fun t ht =>
        hts t (mem_of_mem_selected t ht)
      have hsome := Except.mapM_eq_ok fun t ht => hresult t (hsub t ht)
      refine ⟨⟨_, (halone filter ts fun t ht => hcompleted t (hts t ht)).trans
        (congrArg _ hsome), rfl, rfl⟩, selected_eq⟩

end

/-! ### A suite over a dataset -/

/-- A template and a dataset with one user, and a judge that agrees to everything. -/
def usersBench : Bench Unit :=
  let memory : Judgment.Memory Unit :=
    ⟨fun _ => ⟨.zero false, []⟩, fun _ w => w, fun _ => .zero false⟩
  let prompt : Files.Entry := ⟨["p", "prompt.echo"], Files.Tree.encode "Hello \x7b\x7buser\x7d\x7d"⟩
  let users : Files.Entry := ⟨["p", "eval", "datasets", "users.dset"],
    Files.Tree.encode "name: users\nparameters:\n- \x7bname: first, user: Bo\x7d\n"⟩
  { judge := some ⟨fun _ _ => pure (.answer (.bool true))⟩
    store := fun _ => ⟨fun _ => pure (.ok [])⟩
    memories := { own := memory, shared := memory }
    spare := memory
    disk := ⟨fun _ => { entries := [prompt, users] }, fun _ w => w⟩
    workingDirectory := []
    time := "" }

def annTest : Test where
  name := "Greets Ann"
  given := some [("user", .text "Ann")]
  dataset := none
  params := none
  rendered := some [⟨"contains", .text "Ann"⟩]
  completed := none

def boTest : Test where
  name := "greets Bo"
  given := none
  dataset := some "users"
  params := none
  rendered := some [⟨"llm_judge", .text "Is it kind?"⟩]
  completed := none

def usersSuite : Suite := ⟨"users", {}, [boTest, annTest]⟩

def usersOutcome : Outcome :=
  .ofTests "users"
    [{ name := "greets Bo"
       status := .pass
       findings := [⟨"llm_judge", .pass, "Is it kind?", none, "LLM judge answered yes"⟩]
       rendered := "Hello Bo" },
     { name := "Greets Ann"
       status := .pass
       findings := [⟨"contains", .pass, "Ann", none, none⟩]
       rendered := "Hello Ann" }] 0

/-- The test that the filter selects comes out as it does behind the other one. -/
theorem run_selected_users :
    (run usersBench {} "p/eval/tests/a.eval" usersSuite ()).1 = .ok usersOutcome ∧
      ∃ alone : Test → TestResult, usersOutcome.tests = [alone boTest, alone annTest] ∧
        ∃ outcome, (run usersBench { filter := some "ANN" } "p/eval/tests/a.eval" usersSuite ()).1 =
          .ok outcome ∧ outcome.tests = [alone annTest] := by
  have hrun : (run usersBench {} "p/eval/tests/a.eval" usersSuite ()).1 = .ok usersOutcome := by
    decide +kernel
  have htrusts : ∀ judge, usersBench.judge = some judge → usersBench.disk.Trusts judge := by
    rintro _ ⟨⟩
    exact ⟨⟨fun _ _ => .answer (.bool true), fun _ _ _ => rfl⟩, fun _ _ _ => rfl⟩
  have hcompleted : ∀ t ∈ usersSuite.tests, t.completed.getD [] = [] := by
    simp [usersSuite, annTest, boTest]
  obtain ⟨alone, hall, hsome⟩ := run_selected (o := {}) rfl htrusts nofun hcompleted hrun
  obtain ⟨⟨outcome, houtcome, -, htests⟩, hselected⟩ :=
    hsome (some "ANN") usersSuite.tests fun _ => id
  refine ⟨hrun, alone, hall, outcome, houtcome, htests.trans ?_⟩
  rw [hselected (by decide) (by decide)]
  rfl

end Suite

end Stencil
