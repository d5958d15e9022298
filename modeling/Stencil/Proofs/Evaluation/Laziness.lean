import Stencil.Proofs.Evaluation.Coupling
import Stencil.Proofs.Evaluation.Discipline

/-!
Failures of context lookups are lazy.

All context paths of a document are looked up when it is entered, but a result matters only where
it is needed: in a condition on its path, or where a strict evaluation comes to a reference to it.
Runs with two resolvers go in step as long as these agree on such paths, however they differ on
others; what differs are results of context and problems reported of them (`SameButContext`).
-/

namespace Stencil.Evaluation

variable {σ : Type} {e : Setup σ} {ns : List Node}

/-- The setup with a resolver put in. -/
def Setup.withResolver (e : Setup σ) (resolver : Context.Resolver σ) : Setup σ :=
  { e with resolver := some resolver }

/-! ### States -/

/-- The states are the same but for results of context and reported problems. Both have results
for the same paths. -/
structure SameButContext (s t : State (σ × List Call)) : Prop where
  own : Context.own s.bindings = Context.own t.bindings
  bound : ∀ p, (Context.bound? s.bindings p).isSome = (Context.bound? t.bindings p).isSome
  parts : s.parts = t.parts
  calls : s.world.2 = t.world.2

lemma own_lookedUp (e : Setup σ) (ns : List Node) (s : State σ) :
    Context.own (e.lookedUp ns s).bindings = Context.own s.bindings := by
  unfold Setup.lookedUp
  split
  · rfl
  · exact Context.own_bind _ _

namespace SameButContext

variable {s t : State (σ × List Call)} {r₁ r₂ : Context.Resolver σ}

/-- Entering a document asks both resolvers the same. -/
lemma entered (h : SameButContext s t) (ns : List Node) :
    SameButContext ((e.withResolver r₁).recorded.entered ns s)
      ((e.withResolver r₂).recorded.entered ns t) := by
  have hunbound : unbound t.bindings ns = unbound s.bindings ns := by
    unfold unbound
    refine List.filter_congr fun p _ => ?_
    rw [← Option.not_isSome, ← Option.not_isSome, h.bound p]
  refine ⟨?_, fun p => ?_, ?_, ?_⟩
  · change Context.own ((e.withResolver r₁).recorded.lookedUp ns s).bindings =
      Context.own ((e.withResolver r₂).recorded.lookedUp ns t).bindings
    rw [own_lookedUp, own_lookedUp, h.own]
  · change (Context.bound? ((e.withResolver r₁).recorded.lookedUp ns s).bindings p).isSome =
      (Context.bound? ((e.withResolver r₂).recorded.lookedUp ns t).bindings p).isSome
    rw [Bool.eq_iff_iff, isSome_bound?_lookedUp, isSome_bound?_lookedUp, h.bound p]
  · change knownParts s.parts (Node.parts ns) = knownParts t.parts (Node.parts ns)
    rw [h.parts]
  · change ((e.withResolver r₁).recorded.lookedUp ns s).world.2 =
      ((e.withResolver r₂).recorded.lookedUp ns t).world.2
    rw [lookedUp_world, lookedUp_world, hunbound]
    refine (Context.resolvePaths_recorded (some r₁) _ s.world.1 s.world.2).trans
      (Eq.trans ?_ (Context.resolvePaths_recorded (some r₂) _ t.world.1 t.world.2).symm)
    rw [h.calls]
    rfl

end SameButContext

/-! ### Conditions -/

section

variable {r₁ r₂ : Context.Resolver σ} {origin : Option String} {d : Document} {b : Bindings}
  {w : σ} (hjudge : ∀ judge, e.judge = some judge → judge.IsFunction)
  (hnames : ∀ x, e.LooksUp d.children x → Variable.seesContext x = false)

include hnames

include hjudge

end

/-! ### Paths that matter -/

end Stencil.Evaluation

namespace Stencil

open Evaluation

end Stencil
