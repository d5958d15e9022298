import Stencil.Proofs.Evaluation.Coupling

/-!
Branches that are not taken do not matter.

Once a document is entered, the truth of its conditions is settled: later bindings are results of
context only, and the paths that a condition asks for have theirs already (`holds_grown`). So a
branch that is not taken at first is never taken, in whatever place its part is included, and a run
on the document with another branch there goes in step with the run on the document itself.
-/

namespace Stencil

/-! ### What altered trees define -/

namespace Node

variable {skip : Condition → Bool → Prop} {ns ns' : List Node}

lemma definitions_cons (n : Node) (ns : List Node) :
    definitions (n :: ns) = (part? n).toList ++ (definitions n.children ++ definitions ns) := by
  rw [definitions, walk_cons, List.filterMap_cons, List.filterMap_append]
  cases part? n <;> rfl

/-- Altered trees define altered parts. -/
lemma Alters.definitions (h : Alters skip ns ns') :
    AlteredParts skip (definitions ns) (definitions ns') := by
  induction h with
  | nil =>
    rw [Node.definitions, walk_nil]
    exact .nil
  | @leaf n ns ns' hn _ ih =>
    rw [definitions_cons, definitions_cons]
    exact List.rel_append (AlteredParts.refl _) (List.rel_append (AlteredParts.refl _) ih)
  | part hc _ ihc ih =>
    rw [definitions_cons, definitions_cons]
    exact .cons ⟨rfl, hc⟩ (List.rel_append ihc ih)
  | conditional _ _ _ iha ihf ih =>
    rw [definitions_cons, definitions_cons, children, children, definitions_append,
      definitions_append]
    exact List.rel_append .nil (List.rel_append (List.rel_append iha ihf) ih)
  | thenBranch _ hd _ _ ihf ih =>
    rw [definitions_cons, definitions_cons, children, children, definitions_append,
      definitions_append, hd]
    exact List.rel_append .nil (List.rel_append (List.rel_append (AlteredParts.refl _) ihf) ih)
  | elseBranch _ hd _ _ iha ih =>
    rw [definitions_cons, definitions_cons, children, children, definitions_append,
      definitions_append, hd]
    exact List.rel_append .nil (List.rel_append (List.rel_append iha (AlteredParts.refl _)) ih)

namespace AlteredParts

variable {ds ds' known known' : List (String × List Node)} {x x' : String × List Node}

lemma any_eq (h : AlteredParts skip ds ds') (name : String) :
    ds'.any (·.1 == name) = ds.any (·.1 == name) := by
  induction h with
  | nil => rfl
  | cons hd _ ih => rw [List.any_cons, List.any_cons, ih, hd.1]

lemma define (h : AlteredParts skip ds ds') (hx : x'.1 = x.1 ∧ Alters skip x.2 x'.2) :
    AlteredParts skip (define ds x) (define ds' x') := by
  unfold Node.define
  rw [hx.1, h.any_eq]
  split
  · refine List.forall₂_map_left_iff.mpr (List.forall₂_map_right_iff.mpr (h.imp fun d d' hd => ?_))
    rw [hd.1]
    split
    · exact hx
    · exact hd
  · exact List.rel_append h (.cons hx .nil)

/-- Making definitions known, one by one. -/
lemma foldl {f : List (String × List Node) → String × List Node → List (String × List Node)}
    (hf : ∀ {ds ds' x x'}, AlteredParts skip ds ds' → (x'.1 = x.1 ∧ Alters skip x.2 x'.2) →
      AlteredParts skip (f ds x) (f ds' x'))
    (hknown : AlteredParts skip known known') (h : AlteredParts skip ds ds') :
    AlteredParts skip (ds.foldl f known) (ds'.foldl f known') := by
  induction h generalizing known known' with
  | nil => exact hknown
  | cons hx _ ih => exact ih (hf hknown hx)

end AlteredParts

lemma Alters.parts (h : Alters skip ns ns') : AlteredParts skip (parts ns) (parts ns') := by
  rw [parts_eq_foldl, parts_eq_foldl]
  exact .foldl (fun h hx => h.define hx) .nil h.definitions

end Node

namespace Evaluation

open Node (Alters AlteredParts)

variable {σ : Type} {e : Setup σ} {s t : State σ} {d : Document} {b : Bindings} {w : σ}

/-! ### Settled conditions -/

lemma Grown.own_eq (h : Grown s t) : Context.own s.bindings = Context.own t.bindings :=
  (h.kept (fun b => Context.own b = Context.own s.bindings)
    (fun b results hb => (Context.own_bind b results).trans hb) rfl).symm

/-- **Conditions are settled**: one whose paths have their results, and that does not reach these
by a name, comes out the same in every later state. -/
lemma holds_grown (hjudge : ∀ judge, e.judge = some judge → judge.IsFunction) {c : Condition}
    (hc : c.Fits IsBlind s.bindings) (h : Grown s t) :
    Eval.Coupled Grown (holds e c) (holds e c) s t := by
  have A : DecideAlike e e (Fit IsBlind) (fun _ => True) Grown := {
    strict := rfl
    operators := rfl
    leads := fun hx hxy => hx.leads hxy
    leads' := fun _ _ => trivial
    names := fun h => by rw [publicNames_eq, publicNames_eq, h.own_eq]
    lookup := fun hx hname h => (Condition.Fits.kind hx).lookup hname h.own_eq
    judge := fun h v question => askJudge_coupled rfl rfl hjudge v question h fun _ _ =>
      ⟨h.bound, h.others, h.kept⟩
    present := fun {p span s t} hx _ h => by
      obtain ⟨r, hr⟩ := Option.isSome_iff_exists.mp (hx.2 p (by simp))
      exact ⟨r, hr, h.bound p r hr⟩ }
  exact holds_coupled A c s t hc trivial h

/-- The condition is that of a conditional in the document, looks up no name that may reach the
results of context, and does not come out as `v` once the document is entered. -/
structure Setup.Untaken (e : Setup σ) (d : List Node) (b : Bindings) (w : σ) (c : Condition)
    (v : Bool) : Prop where
  occurs : ∃ a f span, .conditional c a f span ∈ Node.walk d
  blind : ∀ x ∈ c.names, Variable.seesContext x = false
  not_taken : ∀ s, (enter e d).on ⟨b, [], [], w⟩ = (.ok (), s) → ∀ t, (holds e c).on s ≠ (.ok v, t)

/-- What is not taken at first is never taken. -/
lemma Setup.Untaken.holds_ne (hjudge : ∀ judge, e.judge = some judge → judge.IsFunction)
    {ns : List Node} {c : Condition} {v : Bool} (h : e.Untaken ns b w c v)
    (hs : Grown (e.entered ns ⟨b, [], [], w⟩) s) : (holds e c).on s ≠ (.ok v, t) := by
  intro ht
  let s₀ := e.entered ns ⟨b, [], [], w⟩
  have hready : Ready (Node.Asks AnyCondition) s₀ ns :=
    ((enter_meets (admitted_any_main (e := e) ns) (settled_initial b w)
      (Q := fun _ => True)).of_ok (enter_on e ns _)).2.2
  obtain ⟨a, f, span, hoccurs⟩ := h.occurs
  have hfits : c.Fits IsBlind s₀.bindings :=
    ⟨fun x hx name hname => h.blind name (List.mem_filterMap.mpr ⟨x, hx, hname⟩),
      (hready _ hoccurs).2⟩
  obtain ⟨hsame, -⟩ := holds_grown hjudge hfits hs
  rw [ht] at hsame
  exact h.not_taken s₀ (enter_on e ns _) ((holds e c).on s₀).2 (Prod.ext hsame rfl)

/-! ### Both runs -/

/-- The states are the same but for what the parts have in branches that are skipped. -/
structure SameButParts (skip : Condition → Bool → Prop) (s t : State σ) : Prop where
  bindings : s.bindings = t.bindings
  issues : s.issues = t.issues
  world : s.world = t.world
  parts : AlteredParts skip s.parts t.parts

namespace SameButParts

variable {skip : Condition → Bool → Prop} {ns ns' : List Node}

lemma knownParts {known known' ds ds' : List (String × List Node)}
    (hknown : AlteredParts skip known known') (h : AlteredParts skip ds ds') :
    AlteredParts skip (knownParts known ds) (knownParts known' ds') := by
  refine .foldl (fun {ds ds' x x'} h hx => ?_) hknown h
  rw [hx.1, h.any_eq]
  split
  · exact h
  · exact List.rel_append h (.cons hx .nil)

/-- Entering trees that are altered, but ask for the same paths. -/
lemma entered (h : SameButParts skip s t) (halt : Alters skip ns ns')
    (hpaths : Node.contextPaths ns' = Node.contextPaths ns) :
    SameButParts skip (e.entered ns s) (e.entered ns' t) := by
  have hunbound : unbound t.bindings ns' = unbound s.bindings ns := by
    rw [unbound, hpaths, h.bindings, unbound]
  have hanswers : e.answers ns' t = e.answers ns s := by
    rw [Setup.answers, hunbound, ← h.world, Setup.answers]
  refine ⟨?_, ?_, ?_, knownParts h.parts halt.parts⟩
  · change (e.lookedUp ns s).bindings = (e.lookedUp ns' t).bindings
    unfold Setup.lookedUp
    rw [hunbound, hanswers]
    split
    · exact h.bindings
    · rw [h.bindings]
  · change (e.lookedUp ns s).issues = (e.lookedUp ns' t).issues
    rw [lookedUp_issues, lookedUp_issues, hanswers, h.issues]
  · change (e.lookedUp ns s).world = (e.lookedUp ns' t).world
    rw [lookedUp_world, lookedUp_world, hunbound, h.world]

end SameButParts

/-- A run and one on other branches go in step. -/
lemma reduceAlike_of_untaken (hjudge : ∀ judge, e.judge = some judge → judge.IsFunction)
    (origin : Option String) (ns ns' : List Node) :
    ReduceAlike e e (e.Untaken ns b w) (e.Visits origin ns b w) (e.Visits origin ns' b w)
      (SameButParts (e.Untaken ns b w)) where
  strict := rfl
  operators := rfl
  leads hx hxy := hx.leads hxy
  leads' hy hxy := hy.leads hxy
  names h := by rw [h.bindings]
  lookup _ _ h := by rw [h.bindings]
  judge h v question := askJudge_coupled rfl rfl hjudge v question h fun judge _ =>
    ⟨h.bindings, h.issues, by rw [h.world], h.parts⟩
  present hx _ h := by
    obtain ⟨r, hr⟩ := hx.orderly.present
    exact ⟨r, hr, h.bindings ▸ hr⟩
  loader := rfl
  loads _ _ h h' _ := by rw [Option.some.inj (h.symm.trans h')]
  timeout := rfl
  deep hx := hx.orderly.depth_ne_zero
  deep' hy := hy.orderly.depth_ne_zero
  skipped hskip hx _ := hskip.holds_ne hjudge hx.grown
  context _ hx _ h := by
    obtain ⟨r, hr⟩ := hx.orderly.context
    exact ⟨r, hr, h.bindings ▸ hr⟩
  parts h := h.parts
  report h kind message path _ :=
    ⟨rfl, h.bindings, congrArg (fun issues => issues ++ [(⟨kind, message, path⟩ : Issue)]) h.issues,
      h.world, h.parts⟩
  enter := by
    intro depth stack n key ms ns s t _ _ h
    unfold Eval.Coupled
    rw [enter_on, enter_on]
    exact ⟨rfl, h.entered (.refl ms) rfl⟩

/-- What an evaluation shows: the tree and the problems found, with the bindings. -/
def Result.view (r : Result) : Document × Bindings × List Issue :=
  (r.document, r.bindings, r.issues)

end Evaluation

open Evaluation

/-- **The untaken branch is irrelevant**: if a document is changed in branches that are not taken
once it is entered, without changing the parts that it defines or the context paths that it asks
for, then it evaluates to the same tree with the same problems, or fails alike, after the same
calls to the judge and the resolver, wherever the conditional stands or is included. -/
theorem evaluate_of_untaken {σ : Type} (e : Setup σ)
    (hjudge : ∀ judge, e.judge = some judge → judge.IsFunction) (origin : Option String)
    (d : Document) (b : Bindings) (w : σ) (ns' : List Node)
    (halt : Node.Alters (e.recorded.Untaken d.children b (w, [])) d.children ns')
    (hpaths : Node.contextPaths ns' = Node.contextPaths d.children) :
    let run := evaluate e.recorded origin d b (w, [])
    let run' := evaluate e.recorded origin { d with children := ns' } b (w, [])
    run'.1.map Result.view = run.1.map Result.view ∧ run'.2 = run.2 := by
  intro run run'
  have hstart : SameButParts (e.recorded.Untaken d.children b (w, []))
      (e.recorded.entered d.children ⟨b, [], [], (w, [])⟩)
      (e.recorded.entered ns' ⟨b, [], [], (w, [])⟩) :=
    SameButParts.entered ⟨rfl, rfl, rfl, .nil⟩ halt hpaths
  have hstep : Eval.Coupled (SameButParts (e.recorded.Untaken d.children b (w, [])))
      (evaluateIn e.recorded origin d) (evaluateIn e.recorded origin { d with children := ns' })
      ⟨b, [], [], (w, [])⟩ ⟨b, [], [], (w, [])⟩ :=
    evaluateIn_coupled (reduceAlike_of_untaken (isFunction_recorded hjudge) origin d.children ns')
      halt rfl hstart
  obtain ⟨hview, s, t, hR, hs, ht⟩ := evaluate_coupled (f := Result.view) hstep
    fun h d => congrArg₂ (fun b i => (d, b, i)) h.bindings.symm h.issues.symm
  exact ⟨hview, ht.trans (hR.world.symm.trans hs.symm)⟩

/-- The judge says yes, so the else branch of an included part is not taken. -/
theorem evaluate_of_untaken_included :
    let e : Setup Unit := { judge := some ⟨fun _ _ => pure (.answer (.bool true))⟩ }
    let tree (t : String) : List Node :=
      [.part "s"
        [.conditional (.judge "x" "kind" .empty) [.text "a" .empty] [.text t .empty] .empty] .empty,
        .included "s" .empty]
    let run (t : String) := evaluate e.recorded none ⟨tree t, .empty⟩ [("x", .null)] ((), [])
    (run "c").1.map Result.view = (run "b").1.map Result.view ∧ (run "c").2 = (run "b").2 := by
  intro e tree run
  have huntaken : e.recorded.Untaken (tree "b") [("x", .null)] ((), [])
      (.judge "x" "kind" .empty) false := {
    occurs := ⟨[.text "a" .empty], [.text "b" .empty], .empty,
      by simp [tree, Node.walk_cons, Node.children]⟩
    blind := by
      intro x hx
      obtain rfl : x = "x" := by simpa using hx
      with_unfolding_all rfl
    not_taken := by
      intro s hs t ht
      rw [enter_on] at hs
      obtain rfl := (Prod.mk.inj hs).2
      have htaken : ((holds e.recorded (.judge "x" "kind" .empty)).on
          (e.recorded.entered (tree "b") ⟨[("x", .null)], [], [], ((), [])⟩)).1 = .ok true := by
        with_unfolding_all rfl
      rw [ht] at htaken
      cases htaken }
  refine evaluate_of_untaken e ?_ none ⟨tree "b", .empty⟩ [("x", .null)] () (tree "c") ?_ ?_
  · rintro _ ⟨⟩
    exact ⟨fun _ _ => .answer (.bool true), fun _ _ _ => rfl⟩
  · exact .part (.elseBranch huntaken (by simp [Node.definitions_cons]; rfl) (.refl _) .nil)
      (.refl _)
  · with_unfolding_all rfl

/-- A branch that is not taken matters if it defines a part, or if the condition looks up all
bindings at once, under a name without any key: the results of context of an import are among
them later on. -/
theorem untaken_branch_matters :
    (let tree (t : String) : List Node :=
        [.conditional (.ref "x" .empty) [.part "s" [.text t .empty] .empty] [] .empty,
          .included "s" .empty]
      let run (t : String) := (evaluate ({} : Setup Unit) none ⟨tree t, .empty⟩ [] ()).1.map
        fun r => r.document.children
      ((holds ({} : Setup Unit) (.ref "x" .empty)).on ⟨[], [], [], ()⟩).1 = .ok false ∧
        Node.contextPaths (tree "b") = Node.contextPaths (tree "a") ∧
        run "a" = .ok [.text "a" .empty] ∧ run "b" = .ok [.text "b" .empty]) ∧
    (let e : Setup Unit := { loader := some (Import.fixed [("m", "#context(p)")]) }
      let tree (t : String) : List Node :=
        [.part "s" [.conditional (.ref "." .empty) [.text t .empty] [] .empty] .empty,
          .imported "m" .empty, .included "s" .empty]
      let run (t : String) := (evaluate e none ⟨tree t, .empty⟩ [] ()).1.map
        fun r => r.document.children
      Variable.isOfContext "." = false ∧
        ((holds e (.ref "." .empty)).on ⟨[], [], [], ()⟩).1 = .ok false ∧
        Node.contextPaths (tree "b") = Node.contextPaths (tree "a") ∧
        (run "a").map List.getLast? = .ok (some (.text "a" .empty)) ∧
        (run "b").map List.getLast? = .ok (some (.text "b" .empty))) := by
  refine ⟨⟨rfl, ?_, ?_, ?_⟩, ⟨rfl, rfl, ?_, ?_, ?_⟩⟩ <;> with_unfolding_all rfl

end Stencil
