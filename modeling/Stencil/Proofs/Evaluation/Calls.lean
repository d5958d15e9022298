import Stencil.Proofs.Context.Binding
import Stencil.Proofs.Evaluation.Outcome

/-!
Collaborators that write down what they are asked.

A setup keeps its answers when it is recorded; the state of its collaborators goes along with the
calls made so far. What holds of recorded setups speaks about the order of calls as well.
-/

namespace Stencil

/-- A call to a collaborator. -/
inductive Call where
  | judged (value : Value) (question : String)
  | resolved (paths : List String)

/-- The judge, with its calls. -/
def Judge.recorded {σ : Type} (judge : Judge σ) : Judge (σ × List Call) where
  ask v question := fun (w, calls) =>
    let (verdict, w) := judge.ask v question w
    (verdict, (w, calls ++ [.judged v question]))

/-- The resolver, with its calls. -/
def Context.Resolver.recorded {σ : Type} (resolver : Context.Resolver σ) :
    Context.Resolver (σ × List Call) where
  resolveBatch paths := fun (w, calls) =>
    let (results, w) := resolver.resolveBatch paths w
    (results, (w, calls ++ [.resolved paths]))

/-- The setup with collaborators that write down their calls. -/
def Evaluation.Setup.recorded {σ : Type} (e : Setup σ) : Setup (σ × List Call) :=
  { strict := e.strict
    judge := e.judge.map Judge.recorded
    resolver := e.resolver.map Context.Resolver.recorded
    operators := e.operators
    loader := e.loader
    timeout := e.timeout }

/-! ### Lookups -/

namespace Call

/-- The paths that a resolver is asked for. -/
def batch? : Call → Option (List String)
  | resolved paths => some paths
  | judged .. => none

/-- The batches among some calls. -/
def batches (calls : List Call) : List (List String) := calls.filterMap batch?

lemma batches_append (as bs : List Call) : batches (as ++ bs) = batches as ++ batches bs :=
  List.filterMap_append

end Call

namespace Context

variable {σ : Type}

/-- The call that a lookup makes: for the usable paths, unless there are none or nobody to ask. -/
def lookupCalls (resolver : Option (Resolver σ)) (paths : List String) : List Call :=
  if resolver.isSome && !((Node.distinct paths).filter isValid).isEmpty then
    [.resolved ((Node.distinct paths).filter isValid)]
  else []

/-- A lookup writes down its call. -/
lemma resolvePaths_recorded (resolver : Option (Resolver σ)) (paths : List String) (w : σ)
    (calls : List Call) :
    (resolvePaths (resolver.map Resolver.recorded) paths (w, calls)).2.2 =
      calls ++ lookupCalls resolver paths := by
  unfold resolvePaths lookupCalls
  rcases h : ((Node.distinct paths).filter isValid).isEmpty with _ | _
  · rcases resolver with _ | r
    · exact (List.append_nil calls).symm
    · dsimp only [Option.map_some, Resolver.recorded]
      rw [if_neg Bool.false_ne_true, StateM.bind_apply]
      rcases r.resolveBatch ((Node.distinct paths).filter isValid) w with ⟨f | batch, w'⟩ <;> rfl
  · rw [Bool.not_true, Bool.and_false]
    exact (List.append_nil calls).symm

end Context

/-! ### Questions -/

namespace Judge

variable {σ : Type} {judge : Judge σ}

/-- The judge answers as a function of the value and the question. -/
def IsFunction (judge : Judge σ) : Prop :=
  ∃ answer : Value → String → Verdict,
    ∀ v question w, (judge.ask v question w).1 = answer v question

lemma IsFunction.recorded (h : judge.IsFunction) : judge.recorded.IsFunction := by
  obtain ⟨answer, hanswer⟩ := h
  exact ⟨answer, fun v question w => hanswer v question w.1⟩

end Judge

namespace Evaluation

variable {σ : Type} {e : Setup σ} {s : State σ}

/-- What a verdict counts for, with a time limit. -/
def outcome (timeout : Option Value) (question : String) : Verdict → Except Failure Bool
  | .answer a => .ok a.truthy
  | .failed f => .error (judgeFailure question f)
  | .stalled limit =>
    match timeout, limit with
    | some t, some (s, f) =>
      match seconds? t with
      | some x =>
        if Double.le x s then .error (.error (.timeout t)) else .error (judgeFailure question f)
      | none => .error (judgeFailure question f)
    | some t, none => .error (.error (.timeout t))
    | none, some (_, f) => .error (judgeFailure question f)
    | none, none => .error .endless

lemma askJudge_on_none (h : e.judge = none) (v : Value) (question : String) (s : State σ) :
    (askJudge e v question).on s = (.error (.error (.judge .unconfigured (some question))), s) := by
  unfold askJudge
  rw [h]
  rfl

lemma askJudge_on_some {judge : Judge σ} (h : e.judge = some judge) (v : Value)
    (question : String) (s : State σ) : (askJudge e v question).on s =
      (outcome e.timeout question (judge.ask v question s.world).1,
        { s with world := (judge.ask v question s.world).2 }) := by
  unfold askJudge
  rw [h]
  dsimp only
  rw [Eval.on_bind, Eval.on_onWorld]
  dsimp only
  rcases (judge.ask v question s.world).1 with a | f | limit
  · rfl
  · rfl
  · unfold outcome
    rcases e.timeout with _ | t <;> rcases limit with _ | ⟨x, f⟩
    · rfl
    · rfl
    · rfl
    · dsimp only
      rcases seconds? t with _ | y
      · rfl
      · dsimp only
        split <;> rfl

lemma askJudge_parts (v : Value) (question : String) (s : State σ) :
    ((askJudge e v question).on s).2.parts = s.parts := by
  rcases hj : e.judge with _ | judge
  · rw [askJudge_on_none hj]
  · rw [askJudge_on_some hj]

lemma isFunction_recorded (h : ∀ judge, e.judge = some judge → judge.IsFunction) :
    ∀ judge, e.recorded.judge = some judge → judge.IsFunction := by
  intro judge hj
  obtain ⟨judge, hsome, rfl⟩ := Option.map_eq_some_iff.mp hj
  exact (h judge hsome).recorded

/-- What asking a recorded judge does to the state. -/
lemma askJudge_recorded (e : Setup σ) (v : Value) (question : String)
    (s : State (σ × List Call)) : ∃ w calls, ((askJudge e.recorded v question).on s).2 =
      { s with world := (w, s.world.2 ++ calls) } ∧ Call.batches calls = [] := by
  rcases hj : e.judge with _ | judge
  · have hnone : e.recorded.judge = none := by rw [Setup.recorded, hj]; rfl
    exact ⟨s.world.1, [], by rw [askJudge_on_none hnone, List.append_nil], rfl⟩
  · have hsome : e.recorded.judge = some judge.recorded := by rw [Setup.recorded, hj]; rfl
    exact ⟨_, [.judged v question], by rw [askJudge_on_some hsome]; rfl, rfl⟩

end Evaluation

end Stencil
