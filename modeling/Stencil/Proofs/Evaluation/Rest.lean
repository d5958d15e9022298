import Stencil.Proofs.Evaluation.Origins
import Stencil.Proofs.Evaluation.Shape

/-!
An evaluated tree is evaluated for good.

A tree is at rest when there is nothing to decide or to follow in it, and its context paths have
results that will do (`AtRest`). Evaluating such a tree leaves everything as it is, without a
question to anybody (`evaluate_of_atRest`). What an evaluation leaves is at rest once it holds no
reference: conditionals never stay, and whatever document a context reference came from, its path
got a result when that document was entered.
-/

namespace Stencil

namespace Evaluation

variable {σ : Type} {e : Setup σ} {s : State σ} {strict : Bool} {b : Bindings} {ns : List Node}

/-- There is nothing to do at the node. -/
def Rests (strict : Bool) (b : Bindings) : Node → Prop
  | .text .. | .slot .. | .part .. => True
  | .context path _ => ∃ r, Context.bound? b path = some r ∧ (strict = true → r.success = true)
  | .conditional .. | .imported .. | .included .. => False

/-- There is nothing to do at any node of the trees. -/
def AtRest (strict : Bool) (b : Bindings) (ns : List Node) : Prop :=
  ∀ n ∈ Node.walk ns, Rests strict b n

lemma atRest_cons {n : Node} :
    AtRest strict b (n :: ns) ↔
      Rests strict b n ∧ AtRest strict b n.children ∧ AtRest strict b ns := by
  simp only [AtRest, Node.walk_cons, List.forall_mem_cons, List.forall_mem_append]

/-! ### Evaluating trees at rest -/

/-- All paths in trees at rest have their results. -/
lemma AtRest.unbound_eq_nil (h : AtRest strict b ns) : unbound b ns = [] := by
  refine List.eq_nil_iff_forall_not_mem.mpr fun p hp => ?_
  obtain ⟨hpath, hnone⟩ := mem_unbound.mp hp
  obtain ⟨n, hn, hp⟩ := Node.mem_contextPaths.mp hpath
  have hrests := h n hn
  cases n with
  | context path span =>
    obtain rfl : p = path := by simpa [Node.contextPathsOf] using hp
    obtain ⟨r, hr, -⟩ := hrests
    cases hnone.symm.trans hr
  | conditional | imported | included => exact hrests.elim
  | _ => simp [Node.contextPathsOf, Node.conditions] at hp

/-- Trees at rest are entered without a question. -/
lemma AtRest.entered_eq (h : AtRest strict s.bindings ns) :
    e.entered ns s = { s with parts := knownParts s.parts (Node.parts ns) } := by
  rw [Setup.entered, Setup.lookedUp, h.unbound_eq_nil]
  rfl

/-- A node that comes down to itself, then the rest. -/
lemma reduceAll_cons_on {follow : Node → Eval σ (List Node)} {n : Node}
    (hn : (reduce e follow n).on s = (.ok [n], s))
    (hrest : (reduceAll e follow ns).on s = (.ok ns, s)) :
    (reduceAll e follow (n :: ns)).on s = (.ok (n :: ns), s) := by
  rw [reduceAll, Eval.on_bind, hn]
  dsimp only
  rw [Eval.on_bind_pure, hrest]
  rfl

/-- Trees at rest are reduced to themselves, and nothing happens on the way. -/
lemma AtRest.reduceAll_on (h : AtRest e.strict s.bindings ns) (follow : Node → Eval σ (List Node)) :
    (reduceAll e follow ns).on s = (.ok ns, s) := by
  induction ns using Node.forest_induction with
  | nil =>
    rw [reduceAll]
    rfl
  | text c span ns ih =>
    refine reduceAll_cons_on ?_ (ih (atRest_cons.mp h).2.2)
    rw [reduce.eq_def]
    rfl
  | slot name hint d span ns ih =>
    refine reduceAll_cons_on ?_ (ih (atRest_cons.mp h).2.2)
    rw [reduce.eq_def]
    rfl
  | part name cs span ns ihc ih =>
    obtain ⟨-, hchildren, hrest⟩ := atRest_cons.mp h
    refine reduceAll_cons_on ?_ (ih hrest)
    rw [reduce.eq_def]
    dsimp only
    rw [Eval.on_bind_pure, ihc hchildren]
    rfl
  | context path span ns ih =>
    obtain ⟨⟨r, hbound, hsuccess⟩, -, hrest⟩ := atRest_cons.mp h
    refine reduceAll_cons_on ?_ (ih hrest)
    rw [reduce.eq_def]
    dsimp only
    split
    · rename_i hstrict
      have hrequire : (requireContext e path).on s = (.ok (), s) := by
        rw [requireContext_of_bound hbound, hsuccess hstrict]
        rfl
      rw [Eval.on_bind, hrequire]
      rfl
    · rfl
  | conditional c t f span ns _ _ _ => exact (atRest_cons.mp h).1.elim
  | imported path span ns _ => exact (atRest_cons.mp h).1.elim
  | included path span ns _ => exact (atRest_cons.mp h).1.elim

/-- **Evaluating a document at rest** leaves its tree, the bindings and the state of the
collaborators as they are, and reports no problem. -/
lemma evaluate_of_atRest {d : Document} (h : AtRest e.strict b d.children)
    (origin : Option String) (w : σ) : evaluate e origin d b w =
      (.ok ⟨d, b, knownParts [] (Node.parts d.children), []⟩, w) := by
  have hentered : e.entered d.children ⟨b, [], [], w⟩ =
      ⟨b, knownParts [] (Node.parts d.children), [], w⟩ :=
    AtRest.entered_eq (s := ⟨b, [], [], w⟩) h
  have hreduced := AtRest.reduceAll_on
    (s := ⟨b, knownParts [] (Node.parts d.children), [], w⟩) h
    (follow e (depthBound e d.children) ⟨origin, [], []⟩)
  have hrun : (evaluateIn e origin d).on ⟨b, [], [], w⟩ =
      (.ok d, ⟨b, knownParts [] (Node.parts d.children), [], w⟩) := by
    unfold evaluateIn
    rw [Eval.on_bind, enter_on, hentered]
    dsimp only
    rw [Eval.on_bind_pure, hreduced]
    rfl
  rw [evaluate_eq, hrun]

/-- In the course of evaluating trees at rest there are only trees at rest. -/
lemma Setup.Stands.atRest {origin : Option String} {w : σ} {p : Place} {depth : Nat} {stack : Stack}
    {ms : List Node} (h : e.Stands origin ns b w p depth stack ms s)
    (hrest : AtRest strict b ns) : AtRest strict b ms := by
  induction h with
  | start => exact hrest
  | branch _ _ ih => exact (atRest_cons.mp ih).1.elim
  | part _ ih => exact (atRest_cons.mp ih).2.1
  | included _ _ _ _ ih => exact (atRest_cons.mp ih).1.elim
  | document _ hopen _ ih =>
    obtain ⟨path, loader, hrefers, -⟩ := hopen
    have hrests := (atRest_cons.mp ih).1
    cases hrefers <;> exact hrests.elim
  | behind _ _ ih => exact (atRest_cons.mp ih).2.2

/-- Where trees are at rest the loader is never called. -/
lemma AtRest.not_calls (h : AtRest strict b ns) {origin relativeTo : Option String} {w : σ}
    {path : String} {p : Place} : ¬ e.Calls origin ns b w path relativeTo p := by
  rintro ⟨depth, stack, n, rest, s, hstands, hrefers, -⟩
  have hrests := (atRest_cons.mp (hstands.atRest h)).1
  cases hrefers <;> exact hrests.elim

/-! ### What an evaluation leaves -/

/-- The context paths in what an evaluation leaves have their results. -/
lemma evaluateIn_ready (origin : Option String) (d : Document) (s : State σ) (hs : s.parts = []) :
    (evaluateIn e origin d).Meets s (fun d' t => Ready (Node.Asks AnyCondition) t d'.children)
      fun _ => True := by
  have hsettled : Settled (Node.Asks AnyCondition) (e.partNames d.children) s := by
    rw [Settled, hs]
    simp
  unfold evaluateIn
  refine (enter_meets (admitted_any_main d.children) hsettled).bind fun _ t ht => ?_
  obtain ⟨-, hsettled, hready⟩ := ht
  refine .bind (P := fun ms u => Ready (Node.Asks AnyCondition) u ms) ?_ fun ms u hu => .pure hu
  exact (reduceAll_follow_meets kind_asks (fun _ _ _ _ => admitted_any_import d.children) _ _
    d.children t hsettled hready).mono (fun _ _ h => h.ready) fun _ _ => trivial

lemma Rests.of_stays {n : Node} (h : Stays e b n) (href : n.reference? = none)
    (hpaths : ∀ p ∈ Node.contextPathsOf n, (Context.bound? b p).isSome = true) :
    Rests e.strict b n := by
  cases n with
  | context path span =>
    obtain ⟨r, hr⟩ := Option.isSome_iff_exists.mp (hpaths path (by simp [Node.contextPathsOf]))
    refine ⟨r, hr, fun hstrict => ?_⟩
    obtain ⟨r', hr', hsuccess⟩ := h hstrict
    obtain rfl := Option.some.inj (hr.symm.trans hr')
    exact hsuccess
  | conditional => exact h.elim
  | imported | included => cases href
  | _ => trivial

/-- **What an evaluation leaves is at rest** if it holds no reference. -/
lemma atRest_of_evaluate {origin : Option String} {d : Document} {w : σ} {r : Result}
    (h : (evaluate e origin d b w).1 = .ok r)
    (hclosed : ∀ n ∈ Node.preorderAll r.document.children, n.reference? = none) :
    AtRest e.strict r.bindings r.document.children := by
  rw [evaluate_eq] at h
  rcases hr : (evaluateIn e origin d).on ⟨b, [], [], w⟩ with ⟨f | d', t⟩ <;> rw [hr] at h
  · cases h
  obtain rfl := Except.ok.inj h
  have hreduced := (evaluateIn_reduced origin d _).of_ok hr
  have hready := (evaluateIn_ready origin d _ rfl).of_ok hr
  rw [← Node.walk_eq_preorderAll] at hclosed
  exact fun n hn => .of_stays (hreduced.stays n hn) (hclosed n hn) (hready n hn).2

end Evaluation

open Evaluation

variable {σ : Type}

/-- **An evaluated tree is a fixpoint of evaluation.** If no reference is left in it, evaluating it
again under the bindings that the evaluation returned gives the same tree and the same bindings and
reports no problem; on the way the judge and the resolver are asked nothing, as their record shows,
and the loader is never called. -/
theorem evaluate_evaluated (e : Setup σ) (origin : Option String) (d : Document) (b : Bindings)
    (w : σ) {r : Evaluation.Result} (h : (evaluate e origin d b w).1 = .ok r)
    (hclosed : ∀ path span, Node.imported path span ∉ Node.preorderAll r.document.children ∧
      Node.included path span ∉ Node.preorderAll r.document.children)
    (again : Option String) (w' : σ) (calls : List Call) :
    let rest : Evaluation.Result :=
      ⟨r.document, r.bindings, knownParts [] (Node.parts r.document.children), []⟩
    evaluate e again r.document r.bindings w' = (.ok rest, w') ∧
      evaluate e.recorded again r.document r.bindings (w', calls) = (.ok rest, (w', calls)) ∧
      ∀ path relativeTo p,
        ¬ e.Calls again r.document.children r.bindings w' path relativeTo p := by
  have hreferences : ∀ n ∈ Node.preorderAll r.document.children, n.reference? = none := by
    intro n hn
    cases n with
    | imported path span => exact absurd hn (hclosed path span).1
    | included path span => exact absurd hn (hclosed path span).2
    | _ => rfl
  have hrest := atRest_of_evaluate h hreferences
  exact ⟨evaluate_of_atRest hrest again w', evaluate_of_atRest (e := e.recorded) hrest again _,
    fun _ _ _ => hrest.not_calls⟩

/-- A section that stands in a branch and is included once more, with a context reference in it, in
a strict evaluation with a resolver. -/
theorem evaluate_evaluated_included :
    let d := (parse "[#IF x][#SECTION s]#context(bio)[END SECTION][END IF][#INCLUDE s]").document
    let resolver : Context.Resolver Unit :=
      { resolveBatch := fun paths =>
          pure (.ok (Context.Shelf.resolveBatch [("bio", { text := some "B" })] paths)) }
    let e : Setup Unit := { strict := true, resolver := some resolver }
    ∃ r, (evaluate e none d [("x", .int 1)] ()).1 = .ok r ∧
      (∀ path span, Node.imported path span ∉ Node.preorderAll r.document.children ∧
        Node.included path span ∉ Node.preorderAll r.document.children) ∧
      ∃ again, evaluate e.recorded none r.document r.bindings ((), []) = (.ok again, ((), [])) ∧
        again.document = r.document ∧ again.issues = [] := by
  intro d resolver e
  obtain ⟨r, hr, part, s₁, s₂, s₃, hnodes⟩ : ∃ r,
      (evaluate e none d [("x", .int 1)] ()).1 = .ok r ∧ ∃ part s₁ s₂ s₃,
        r.document.children = [.part part [.context "bio" s₁] s₂, .context "bio" s₃] :=
    ⟨_, by with_unfolding_all rfl, _, _, _, _, by with_unfolding_all rfl⟩
  have hclosed : ∀ path span, Node.imported path span ∉ Node.preorderAll r.document.children ∧
      Node.included path span ∉ Node.preorderAll r.document.children := by
    simp [hnodes, Node.preorderAll, Node.preorder]
  have hagain := (evaluate_evaluated e none d _ () hr hclosed none () []).2.1
  exact ⟨r, hr, hclosed, _, hagain, rfl, rfl⟩

end Stencil
