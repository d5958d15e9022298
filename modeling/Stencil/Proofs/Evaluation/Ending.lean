import Mathlib.Data.List.Dedup
import Stencil.Proofs.Evaluation.Coupling
import Stencil.Proofs.Evaluation.Discipline

/-!
Evaluation ends, whatever refers to what.

A reference leads into a part or a document that it does not stand in already, so no more of them
can be inside each other than there are names of parts and documents. The depth to which
references are followed is therefore of no matter once it exceeds that number: every such depth
leads to the same outcome, and none is used up.
-/

namespace Stencil

open Evaluation

namespace Evaluation

variable {σ : Type} {e : Setup σ} {origin : Option String} {b : Bindings} {w : σ}

/-- Evaluate a document in a given state, its references followed to the depth. -/
def evaluateTo (e : Setup σ) (depth : Nat) (origin : Option String) (d : Document) :
    Eval σ Document := do
  enter e d.children
  let children ← reduceAll e (follow e depth ⟨origin, [], []⟩) d.children
  return { d with children }

lemma evaluateTo_depthBound (e : Setup σ) (origin : Option String) (d : Document) :
    evaluateTo e (depthBound e d.children) origin d = evaluateIn e origin d := rfl

/-- The number of names of parts, in some trees and in all that can be imported, and of
documents. -/
def Setup.nestingBound (e : Setup σ) (ns : List Node) : Nat :=
  (e.partNames ns).dedup.length + e.documents.length

lemma nestingBound_lt_depthBound (e : Setup σ) (ns : List Node) :
    e.nestingBound ns < depthBound e ns := by
  have hnames := (List.dedup_sublist (e.partNames ns)).length_le
  have hdepth := parts_lt_depthBound e ns
  have hkeys : e.keys.length = e.documents.length := List.length_map _
  unfold Setup.nestingBound
  omega

/-! ### Depths -/

lemma Admitted.dedup {N : Node → Prop} {names : List String} {ns : List Node}
    (h : Admitted N names ns) : Admitted N names.dedup ns :=
  ⟨h.kind, fun d hd => List.mem_dedup.mpr (h.parts d hd)⟩

/-- Depths that exceed the number of names and documents lead to the same outcome. -/
lemma evaluateTo_on {d : Document} {depth depth' : Nat}
    (h : e.nestingBound d.children < depth) (h' : e.nestingBound d.children < depth') :
    (evaluateTo e depth origin d).on ⟨b, [], [], w⟩ =
      (evaluateTo e depth' origin d).on ⟨b, [], [], w⟩ := by
  -- points in order, for the names of parts without repetitions
  let V : Point σ → Prop := Orderly e (Node.Asks AnyCondition) (e.partNames d.children).dedup
  have A : ReduceAlike e e (fun _ _ => False) V V (Diagonal fun _ => True) :=
    reduceAlike_self (fun _ hx => hx)
      (fun hx hxy => hx.leads kind_asks
        (fun _ _ _ _ h => (admitted_any_import d.children h).dedup) hxy)
      (fun _ _ _ _ => trivial) (fun _ _ _ _ _ _ => trivial) fun _ _ _ => trivial
  have hstart {depth : Nat} (h : e.nestingBound d.children < depth) :
      V (.trees depth ⟨origin, [], []⟩ d.children, e.entered d.children ⟨b, [], [], w⟩) :=
    orderly_initial (admitted_any_main d.children).dedup (by rwa [Setup.keys, List.length_map])
      origin
  have hsame := reduceAll_coupled A (.refl d.children) (hstart h) (hstart h') ⟨rfl, trivial⟩
  have hreduce := Prod.ext hsame.1 hsame.2.1
  unfold evaluateTo
  rw [Eval.on_bind, Eval.on_bind, enter_on]
  dsimp only
  rw [Eval.on_bind_pure, Eval.on_bind_pure, hreduce]

/-! ### Checks of the stack -/

/-- Follow a reference as `follow` does, but give up where the stack does not pass a check. -/
def followChecked (e : Setup σ) (check : Stack → Prop) [DecidablePred check] :
    (depth : Nat) → Stack → Node → Eval σ (List Node)
  | 0, _, _ => throw .endless
  | d + 1, stack, n =>
    if check stack then
      match n with
      | .imported path span =>
        importDocument e (followChecked e check d) stack (.imported path span) path
      | .included path span =>
        includePart e (followChecked e check d) stack (.included path span) path
      | n => return [n]
    else throw .endless

/-- Evaluate a document in a given state, the stack checked at every reference. -/
def evaluateChecked (e : Setup σ) (check : Stack → Prop) [DecidablePred check]
    (origin : Option String) (d : Document) : Eval σ Document := do
  enter e d.children
  let children ←
    reduceAll e (followChecked e check (depthBound e d.children) ⟨origin, [], []⟩) d.children
  return { d with children }

section

variable {V : Point σ → Prop} (hleads : ∀ {x y}, V x → Leads e x y → V y)

include hleads

/-- Trees are reduced as ever if references are followed as ever at the points of the run. -/
lemma reduceAll_congr {depth : Nat} {stack : Stack} {F : Node → Eval σ (List Node)}
    (hF : ∀ n ns s, V (.trees depth stack (n :: ns), s) →
      (F n).on s = (follow e depth stack n).on s) (ns : List Node) (s : State σ)
    (hx : V (.trees depth stack ns, s)) :
    (reduceAll e F ns).on s = (reduceAll e (follow e depth stack) ns).on s := by
  -- the first node, then the rest
  have cons {n : Node} {ns : List Node} {s : State σ} (hx : V (.trees depth stack (n :: ns), s))
      (ih : ∀ s, V (.trees depth stack ns, s) →
        (reduceAll e F ns).on s = (reduceAll e (follow e depth stack) ns).on s)
      (hn : (reduce e F n).on s = (reduce e (follow e depth stack) n).on s) :
      (reduceAll e F (n :: ns)).on s = (reduceAll e (follow e depth stack) (n :: ns)).on s := by
    rw [reduceAll, reduceAll, Eval.on_bind, Eval.on_bind, hn]
    rcases h : (reduce e (follow e depth stack) n).on s with ⟨f | ms, t⟩
    · rfl
    · dsimp only
      rw [Eval.on_bind_pure, Eval.on_bind_pure, ih t (hleads hx (.behind h))]
  induction ns using Node.forest_induction generalizing s with
  | nil => rw [reduceAll, reduceAll]
  | conditional c a f span ns iha ihf ih =>
    refine cons hx (fun t ht => ih t ht) ?_
    rw [reduce.eq_def, reduce.eq_def]
    dsimp only
    rw [Eval.on_bind, Eval.on_bind]
    rcases h : (holds e c).on s with ⟨fault | v, t⟩
    · rfl
    · have hbranch := hleads hx (.branch h)
      cases v
      · exact ihf t hbranch
      · exact iha t hbranch
  | part name cs span ns ihc ih =>
    refine cons hx (fun t ht => ih t ht) ?_
    rw [reduce.eq_def, reduce.eq_def]
    dsimp only
    rw [Eval.on_bind_pure, Eval.on_bind_pure, ihc s (hleads hx .part)]
  | imported path span ns ih =>
    refine cons hx (fun t ht => ih t ht) ?_
    rw [reduce.eq_def, reduce.eq_def]
    exact hF _ ns s hx
  | included path span ns ih =>
    refine cons hx (fun t ht => ih t ht) ?_
    rw [reduce.eq_def, reduce.eq_def]
    exact hF _ ns s hx
  | _ =>
    rename_i ih
    refine cons hx (fun t ht => ih t ht) ?_
    rw [reduce.eq_def, reduce.eq_def]

variable {check : Stack → Prop} [DecidablePred check]
  (hcheck : ∀ {depth stack ns s}, V (.trees depth stack ns, s) → check stack)

include hcheck

/-- A check that all stacks of the run pass is of no matter. -/
lemma followChecked_on (depth : Nat) (stack : Stack) (n : Node) (ns : List Node) (s : State σ)
    (hx : V (.trees depth stack (n :: ns), s)) :
    (followChecked e check depth stack n).on s = (follow e depth stack n).on s := by
  induction depth generalizing stack n ns s with
  | zero => rfl
  | succ depth ih =>
    have hd (stack : Stack) (ns : List Node) (s : State σ) (hx : V (.trees depth stack ns, s)) :
        (reduceAll e (followChecked e check depth stack) ns).on s =
          (reduceAll e (follow e depth stack) ns).on s :=
      reduceAll_congr hleads (fun n ns s hx => ih stack n ns s hx) ns s hx
    have document {path : String} (hrefers : RefersTo s n path) :
        (importDocument e (followChecked e check depth) stack n path).on s =
          (importDocument e (follow e depth) stack n path).on s := by
      unfold importDocument
      rcases hl : e.loader with _ | loader
      · rfl
      · obtain ⟨r, hr, -⟩ := @openDocument_on _ _ e e rfl loader loader stack path
          fun _ => rfl
        dsimp only
        rw [Eval.on_bind, Eval.on_bind, hr s]
        rcases r with f | ⟨key, ms⟩
        · rfl
        · dsimp only
          rw [Eval.on_bind, Eval.on_bind, enter_on]
          exact hd _ ms _
            (hleads hx (.document ⟨path, loader, hrefers, hl, hr s⟩ (enter_on e ms s)))
    cases n with
    | imported path span =>
      rw [followChecked, if_pos (hcheck hx)]
      exact document (.imported path span)
    | included path span =>
      rw [followChecked, if_pos (hcheck hx), follow]
      unfold includePart
      rw [Eval.on_get_bind, Eval.on_get_bind]
      rcases hp : s.parts.lookup path with _ | children
      · dsimp only
        split
        next hfile =>
          obtain ⟨hfile, -⟩ := Bool.and_eq_true_iff.mp hfile
          exact document (.included path span hp hfile)
        next => rfl
      · dsimp only
        split
        next => rfl
        next hheld =>
          have hnew : path ∉ stack.parts := by simpa using hheld
          exact hd _ children s (hleads hx (.included hp hnew))
    | _ =>
      unfold followChecked
      rw [if_pos (hcheck hx)]
      rfl

end

/-! ### The end -/

/-- The stack holds no part and no document twice, the outermost document included, and no more of
them than the bound. -/
def Stack.Sound (bound : Nat) (stack : Stack) : Prop :=
  stack.parts.Nodup ∧ (stack.outermost.toList ++ stack.documents).Nodup ∧
    stack.parts.length + stack.documents.length ≤ bound

instance (bound : Nat) : DecidablePred (Stack.Sound bound) :=
  fun _ => inferInstanceAs (Decidable (_ ∧ _ ∧ _))

/-- An evaluation ends, and how it uses its stack on the way. -/
structure Ends (e : Setup σ) (origin : Option String) (d : Document) (b : Bindings) (w : σ) :
    Prop where
  /-- There is a result or an error. -/
  outcome : (∃ r, (evaluate e origin d b w).1 = .ok r) ∨
    ∃ f, (evaluate e origin d b w).1 = .error f ∧ f ≠ .endless
  /-- At every point no part and no document is inside itself, and what is around it are parts and
  documents that there are. -/
  nested : ∀ {depth stack ns s}, e.Visits origin d.children b w (.trees depth stack ns, s) →
    stack.Sound (e.nestingBound d.children) ∧ stack.parts ⊆ e.partNames d.children ∧
      stack.documents ⊆ e.keys
  /-- It makes no difference to check this wherever a reference is followed. -/
  checked : (evaluateChecked e (Stack.Sound (e.nestingBound d.children)) origin d).on
    ⟨b, [], [], w⟩ = (evaluateIn e origin d).on ⟨b, [], [], w⟩
  /-- Following references any deeper makes no difference. -/
  deep : ∀ depth, e.nestingBound d.children < depth →
    (evaluateTo e depth origin d).on ⟨b, [], [], w⟩ = (evaluateIn e origin d).on ⟨b, [], [], w⟩

/-- Every stack of a run is sound. -/
lemma Setup.Visits.sound {d ns : List Node} {depth : Nat} {stack : Stack} {s : State σ}
    (h : e.Visits origin d b w (.trees depth stack ns, s)) :
    stack.Sound (e.nestingBound d) := by
  have horder := h.orderly.inOrder
  have hroom := horder.room
  have hparts := hroom.parts.length_le_of_subset fun name hname =>
    List.mem_dedup.mpr (hroom.named name hname)
  have hdocuments := hroom.documents.length_le_of_subset hroom.loaded
  rw [Setup.keys, List.length_map] at hdocuments
  refine ⟨hroom.parts, List.nodup_append.mpr ⟨?_, hroom.documents, ?_⟩,
    Nat.add_le_add hparts hdocuments⟩
  · cases stack.outermost <;> simp
  · rintro key hkey key' hkey' rfl
    exact horder.fresh key hkey' (by simpa using hkey)

end Evaluation

/-- **Evaluation ends**: with a judge that does not keep it waiting for ever, it has a result or an
error, through any circles of parts and documents. On the way no part and no document is inside
itself, so that references are nested no deeper than there are names of parts and documents. -/
theorem evaluate_ends {σ : Type} (e : Setup σ) (hjudge : ¬ e.Stalls) (origin : Option String)
    (d : Document) (b : Bindings) (w : σ) : Ends e origin d b w where
  outcome := by
    rcases he : evaluate e origin d b w with ⟨f | r, w'⟩
    · refine .inr ⟨f, rfl, ?_⟩
      rintro rfl
      cases evaluate_error he with
      | stalled h => exact hjudge h
    · exact .inl ⟨r, rfl⟩
  nested h := ⟨h.sound, h.orderly.inOrder.room.named, h.orderly.inOrder.room.loaded⟩
  checked := by
    unfold evaluateChecked evaluateIn
    rw [Eval.on_bind, Eval.on_bind, enter_on]
    dsimp only
    have hleads {x y : Point σ} (hx : e.Visits origin d.children b w x) (hxy : Leads e x y) :
        e.Visits origin d.children b w y :=
      hx.leads hxy
    have hreduce := reduceAll_congr hleads
      (fun n ns s hx => followChecked_on hleads (fun hx => hx.sound) _ _ n ns s hx)
      d.children _ (e.visits_start origin d.children b w)
    rw [Eval.on_bind_pure, Eval.on_bind_pure, hreduce]
  deep depth h := by
    rw [evaluateTo_on h (nestingBound_lt_depthBound e d.children), evaluateTo_depthBound]

/-- A section imports a document, and that includes the section where the judge agrees. -/
theorem evaluate_ends_circular :
    let e : Setup Unit :=
      { judge := some ⟨fun _ _ => pure (.answer (.bool true))⟩
        loader := some (Import.fixed [("m", "[#IF x #ai_judge(on)][#INCLUDE s][END IF]")]) }
    let d := (parse "[#SECTION s][#IMPORT m][END SECTION][#INCLUDE s]").document
    (evaluate e none d [("x", .int 1)] ()).1 =
        .error (.error (.evaluation (.circularImport ["m", "m"]))) ∧
      Ends e none d [("x", .int 1)] () := by
  intro e d
  have hjudge : ¬ e.Stalls := by
    rintro ⟨-, judge, h, v, q, w, hstalled⟩
    obtain rfl := Option.some.inj h
    cases hstalled
  exact ⟨by with_unfolding_all rfl, evaluate_ends e hjudge none d _ ()⟩

end Stencil
