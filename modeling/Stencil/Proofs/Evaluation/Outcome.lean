import Mathlib.Tactic.Common
import Stencil.Evaluation.Condition

/-!
What a step of an evaluation comes to in a state.

A step `Meets` two predicates when its result and the state behind it satisfy the first, or its
failure the second. What meets something is put together along `bind`.
-/

namespace Stencil.Evaluation

variable {σ α β : Type} {s t : State σ}

/-- What a step comes to: its result or failure, and the state behind it. -/
def Eval.on (x : Eval σ α) (s : State σ) : Except Failure α × State σ := x.run.run s

namespace Eval

lemma on_bind (x : Eval σ α) (f : α → Eval σ β) (s : State σ) :
    Eval.on (x >>= f) s = match x.on s with
      | (.ok a, t) => (f a).on t
      | (.error e, t) => (.error e, t) := by
  unfold Eval.on
  rw [ExceptT.run_bind, StateT.run_bind]
  rcases StateT.run (ExceptT.run x) s with ⟨_ | a, t⟩ <;> rfl

/-- A result that is only put into another form. -/
lemma on_bind_pure (x : Eval σ α) (f : α → β) (s : State σ) :
    Eval.on (x >>= fun a => pure (f a)) s = ((x.on s).1.map f, (x.on s).2) := by
  rw [on_bind]
  rcases x.on s with ⟨_ | a, t⟩ <;> rfl

lemma on_lookup (name : String) (s : State σ) :
    Eval.on (lookup name) s = match Variable.lookup name s.bindings with
      | .ok v => (.ok v, s)
      | .error f => (.error (.value f), s) := by
  have h : Eval.on (lookup name) s = Eval.on (match Variable.lookup name s.bindings with
      | .ok v => pure v
      | .error f => throw (.value f) : Eval σ (Option Value)) s := rfl
  rw [h]
  rcases Variable.lookup name s.bindings with f | v <;> rfl

/-- A result behind two steps, step by step. -/
lemma on_bind_ok {x : Eval σ α} {f : α → Eval σ β} {b : β} :
    Eval.on (x >>= f) s = (.ok b, t) ↔
      ∃ a u, x.on s = (.ok a, u) ∧ (f a).on u = (.ok b, t) := by
  rw [on_bind]
  rcases x.on s with ⟨_ | a, u⟩
  · simp
  · constructor
    · exact fun h => ⟨a, u, rfl, h⟩
    · rintro ⟨a', u', h, h'⟩
      obtain ⟨h1, rfl⟩ := Prod.mk.inj h
      obtain rfl := Except.ok.inj h1
      exact h'

/-- A failure of the first of two steps, or of the second behind a result of the first. -/
lemma on_bind_error {x : Eval σ α} {f : α → Eval σ β} {fault : Failure} :
    (Eval.on (x >>= f) s).1 = .error fault ↔
      (x.on s).1 = .error fault ∨ ∃ a t, x.on s = (.ok a, t) ∧ ((f a).on t).1 = .error fault := by
  rw [on_bind]
  rcases x.on s with ⟨_ | a, t⟩
  · simp
  · constructor
    · exact fun h => .inr ⟨a, t, rfl, h⟩
    · rintro (h | ⟨a', t', h, h'⟩)
      · cases h
      · obtain ⟨h1, rfl⟩ := Prod.mk.inj h
        obtain rfl := Except.ok.inj h1
        exact h'

/-- A name that cannot be looked up, or a failure behind a lookup. -/
lemma on_lookup_bind_error {name : String} {f : Option Value → Eval σ β} {fault : Failure} :
    (Eval.on (lookup name >>= f) s).1 = .error fault ↔
      (∃ k, Variable.lookup name s.bindings = .error k ∧ fault = .value k) ∨
        ∃ v, Variable.lookup name s.bindings = .ok v ∧ ((f v).on s).1 = .error fault := by
  rw [on_bind, on_lookup]
  rcases Variable.lookup name s.bindings with k | v
  · simp [eq_comm]
  · simp

lemma on_get_bind (f : State σ → Eval σ β) (s : State σ) :
    Eval.on (get >>= f : Eval σ β) s = (f s).on s := rfl

lemma on_onWorld (act : StateM σ α) (s : State σ) : Eval.on (onWorld act) s =
    (.ok (act s.world).1, { s with world := (act s.world).2 }) := rfl

/-- A loop whose rounds only change the state. -/
lemma on_forIn {γ : Type} {body : γ → PUnit → Eval σ (ForInStep PUnit)}
    {f : State σ → γ → State σ} (hb : ∀ x s, (body x ⟨⟩).on s = (.ok (.yield ⟨⟩), f s x))
    (xs : List γ) (s : State σ) :
    Eval.on (forIn xs (⟨⟩ : PUnit) body) s = (.ok ⟨⟩, xs.foldl f s) := by
  induction xs generalizing s with
  | nil => rfl
  | cons x xs ih =>
    rw [List.forIn_cons, on_bind, hb x s]
    exact ih (f s x)

end Eval

/-! ### Steps of conditions -/

/-- A failure of an operator, as the evaluation reports it. -/
def operatorFailure (name : String) : Failure → Failure
  | .error fault => .error fault
  | fault => .error (.evaluation (.operatorFailed name fault.message))

lemma applyOperator_on (name : String) (op : Operator) (v : Value) (arg : Argument)
    (s : State σ) : (applyOperator name op v arg).on s =
      ((op.handler v arg.value).mapError (operatorFailure name) |>.map Value.truthy, s) := by
  unfold applyOperator
  rcases op.handler v arg.value with fault | r
  · cases fault <;> rfl
  · rfl

lemma unknownVariable_on (e : Setup σ) (name : String) (s : State σ) :
    (unknownVariable e name).on s = (if e.strict then
        .error (.error (.evaluation (.unknownVariable name (publicNames s.bindings))))
      else .ok false, s) := by
  unfold unknownVariable
  cases e.strict <;> rfl

/-! ### What a step meets -/

/-- From the state, the step has a result that satisfies `P` with the state behind it, or a
failure that satisfies `Q`. -/
def Eval.Meets (x : Eval σ α) (s : State σ) (P : α → State σ → Prop) (Q : Failure → Prop) : Prop :=
  match x.on s with
  | (.ok a, t) => P a t
  | (.error f, _) => Q f

namespace Eval.Meets

variable {x : Eval σ α} {P P' : α → State σ → Prop} {Q Q' : Failure → Prop}
  {R : β → State σ → Prop}

/-- What is known of a result that a step has. -/
lemma of_ok {a : α} (h : x.Meets s P Q) (hx : x.on s = (.ok a, t)) : P a t := by
  unfold Eval.Meets at h
  rwa [hx] at h

lemma of_error {f : Failure} (h : x.Meets s P Q) (hx : x.on s = (.error f, t)) : Q f := by
  unfold Eval.Meets at h
  rwa [hx] at h

lemma mono (h : x.Meets s P Q) (hP : ∀ a t, P a t → P' a t) (hQ : ∀ f, Q f → Q' f) :
    x.Meets s P' Q' := by
  unfold Eval.Meets at *
  split
  · rename_i hx
    rw [hx] at h
    exact hP _ _ h
  · rename_i hx
    rw [hx] at h
    exact hQ _ h

/-- Two things that are known of a result. -/
lemma and (h : x.Meets s P Q) (k : x.Meets s P' Q') :
    x.Meets s (fun a t => P a t ∧ P' a t) Q' := by
  unfold Eval.Meets at *
  split
  · rename_i hx
    rw [hx] at h k
    exact ⟨h, k⟩
  · rename_i hx
    rw [hx] at k
    exact k

lemma bind {f : α → Eval σ β} (hx : x.Meets s P Q) (hf : ∀ a t, P a t → (f a).Meets t R Q) :
    Eval.Meets (x >>= f) s R Q := by
  unfold Eval.Meets at *
  rw [Eval.on_bind]
  rcases hr : x.on s with ⟨e | a, t⟩ <;> rw [hr] at hx
  · exact hx
  · exact hf a t hx

lemma pure {a : α} (h : P a s) : Eval.Meets (Pure.pure a) s P Q := h
lemma throw {f : Failure} (h : Q f) : Eval.Meets (MonadExcept.throw f : Eval σ α) s P Q := h
lemma fail {e : Error} (h : Q (.error e)) : Eval.Meets (Evaluation.fail e : Eval σ α) s P Q := h
lemma modify {f : State σ → State σ} {P : Unit → State σ → Prop} (h : P () (f s)) :
    Eval.Meets (modify f) s P Q := h
lemma report {kind message path : String} {P : Unit → State σ → Prop}
    (h : P () { s with issues := s.issues ++ [⟨kind, message, path⟩] }) :
    Eval.Meets (Evaluation.report kind message path) s P Q := h

/-- Looking at the state. -/
lemma get_bind {f : State σ → Eval σ β} (h : (f s).Meets s R Q) :
    Eval.Meets (get >>= f : Eval σ β) s R Q := h

lemma onWorld_bind {act : StateM σ α} {f : α → Eval σ β}
    (h : (f (act s.world).1).Meets { s with world := (act s.world).2 } R Q) :
    Eval.Meets (onWorld act >>= f) s R Q := h

lemma lookup_bind {name : String} {f : Option Value → Eval σ β}
    (h : ∀ v, Variable.lookup name s.bindings = .ok v → (f v).Meets s R Q)
    (he : ∀ fault, Variable.lookup name s.bindings = .error fault → Q (.value fault)) :
    Eval.Meets (lookup name >>= f) s R Q := by
  unfold Eval.Meets
  rw [Eval.on_bind, Eval.on_lookup]
  rcases hv : Variable.lookup name s.bindings with fault | v
  · exact he fault hv
  · exact h v hv

end Eval.Meets

end Stencil.Evaluation
