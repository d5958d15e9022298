import Mathlib.Tactic.Common
import Stencil.Proofs.Context.Binding
import Stencil.Suite.Run

/-!
Steps over two states: what a run keeps for itself, and the state of the collaborators.

A step comes to a result or a failure in a pair of states (`comesTo`), and a step behind another
starts where that one ends (`comesTo_bind_ok`).
-/

namespace Stencil

variable {ε τ σ α β : Type}

/-- What a step comes to, and the states behind it. -/
def comesTo (x : ExceptT ε (StateT τ (StateM σ)) α) (c : τ × σ) : Except ε α × (τ × σ) :=
  match (x.run c.1) c.2 with
  | ((a, s), w) => (a, s, w)

/-- A step comes to one result in one state. -/
lemma result_inj {γ : Type} {a b : α} {c c' : γ}
    (h : ((.ok a, c) : Except ε α × γ) = (.ok b, c')) : a = b ∧ c = c' := by
  obtain ⟨hab, hc⟩ := Prod.mk.inj h
  exact ⟨Except.ok.inj hab, hc⟩

lemma comesTo_bind (x : ExceptT ε (StateT τ (StateM σ)) α)
    (f : α → ExceptT ε (StateT τ (StateM σ)) β) (c : τ × σ) :
    comesTo (x >>= f) c = match comesTo x c with
      | (.ok a, c') => comesTo (f a) c'
      | (.error e, c') => (.error e, c') := by
  obtain ⟨s, w⟩ := c
  show (match (match (x.run s) w with
    | ((a, s'), w') => (ExceptT.bindCont f a s') w') with | ((a, s), w) => (a, s, w)) = _
  unfold comesTo
  dsimp only
  rcases (x.run s) w with ⟨⟨e | a, s'⟩, w'⟩ <;> rfl

lemma comesTo_get (c : τ × σ) :
    comesTo (get : ExceptT ε (StateT τ (StateM σ)) τ) c = (.ok c.1, c) := rfl

lemma comesTo_set (s : τ) (c : τ × σ) :
    comesTo (set s : ExceptT ε (StateT τ (StateM σ)) Unit) c = (.ok (), s, c.2) := rfl

lemma comesTo_tryCatch (x : ExceptT ε (StateT τ (StateM σ)) α)
    (handle : ε → ExceptT ε (StateT τ (StateM σ)) α) (c : τ × σ) :
    comesTo (tryCatch x handle) c = match comesTo x c with
      | (.ok a, c') => (.ok a, c')
      | (.error e, c') => comesTo (handle e) c' := by
  obtain ⟨s, w⟩ := c
  have hcatch : tryCatch x handle = ExceptT.tryCatch x handle := rfl
  rw [comesTo, comesTo, hcatch, ExceptT.tryCatch, ExceptT.run_mk]
  rcases hx : (x.run s) w with ⟨⟨e | a, s'⟩, w'⟩
  all_goals
    simp only [bind, StateT.bind]
    rw [show (x s) w = _ from hx]
    rfl

/-- A result behind two steps, step by step. -/
lemma comesTo_bind_ok {x : ExceptT ε (StateT τ (StateM σ)) α}
    {f : α → ExceptT ε (StateT τ (StateM σ)) β} {b : β} {c c' : τ × σ} :
    comesTo (x >>= f) c = (.ok b, c') ↔
      ∃ a c₁, comesTo x c = (.ok a, c₁) ∧ comesTo (f a) c₁ = (.ok b, c') := by
  rw [comesTo_bind]
  rcases comesTo x c with ⟨_ | a, c₁⟩
  · simp
  · constructor
    · exact fun h => ⟨a, c₁, rfl, h⟩
    · rintro ⟨a', c₁', h, h'⟩
      obtain ⟨h1, rfl⟩ := Prod.mk.inj h
      obtain rfl := Except.ok.inj h1
      exact h'

namespace Suite

lemma comesTo_act (m : StateM σ α) (c : Dataset.Shelf × σ) :
    comesTo (act m) c = (.ok (m c.2).1, c.1, (m c.2).2) := rfl

lemma comesTo_settle (x : Except Failure α) (c : Dataset.Shelf × σ) :
    comesTo (settle x) c = (x, c) := by
  cases x <;> rfl

lemma comesTo_shelve (m : Dataset.Shelving α) (c : Dataset.Shelf × σ) :
    comesTo (shelve m) c = ((m.run c.1).1, (m.run c.1).2, c.2) := by
  rw [shelve, comesTo_bind, comesTo_get]
  dsimp only
  rcases m.run c.1 with ⟨a, s⟩
  dsimp only
  rw [comesTo_bind, comesTo_set]
  exact comesTo_settle _ _

/-! ### Expectations -/

/-- Expectations are met in turn: each is checked in the state that the one before left, and
passes. -/
inductive Met (s : Subject σ) : List Assertion → σ → σ → Prop
  | nil {w : σ} : Met s [] w w
  | cons {a : Assertion} {as : List Assertion} {f : Finding} {w w₁ w₂ : σ}
    (check : a.check s w = (some f, w₁)) (pass : f.status = .pass) (rest : Met s as w₁ w₂) :
    Met s (a :: as) w w₂

lemma met_iff {s : Subject σ} {as : List Assertion} {w w' : σ} :
    Met s as w w' ↔ ∃ fs, checkAll s as w = (some fs, w') ∧ ∀ f ∈ fs, f.status = .pass := by
  induction as generalizing w with
  | nil =>
    constructor
    · rintro ⟨⟩
      exact ⟨[], rfl, nofun⟩
    · rintro ⟨fs, h, -⟩
      obtain ⟨-, rfl⟩ := Prod.mk.inj h
      exact .nil
  | cons a as ih =>
    have hstep : checkAll s (a :: as) w = match a.check s w with
        | (none, w₁) => (none, w₁)
        | (some f, w₁) => ((checkAll s as w₁).1.map (f :: ·), (checkAll s as w₁).2) := by
      rw [checkAll, StateM.bind_apply]
      rcases a.check s w with ⟨_ | f, w₁⟩ <;> rfl
    rw [hstep]
    constructor
    · rintro (_ | ⟨check, pass, rest⟩)
      obtain ⟨fs, hfs, hpass⟩ := ih.mp rest
      rw [check]
      dsimp only
      rw [hfs]
      exact ⟨_ :: fs, rfl, List.forall_mem_cons.mpr ⟨pass, hpass⟩⟩
    · rintro ⟨fs, h, hpass⟩
      rcases hcheck : a.check s w with ⟨_ | f, w₁⟩
      · rw [hcheck] at h
        cases h
      · rw [hcheck] at h
        obtain ⟨hall, rfl⟩ := Prod.mk.inj h
        obtain ⟨gs, hgs, rfl⟩ := Option.map_eq_some_iff.mp hall
        obtain ⟨hf, hrest⟩ := List.forall_mem_cons.mp hpass
        exact .cons hcheck hf (ih.mpr ⟨gs, Prod.ext hgs rfl, hrest⟩)

end Suite

end Stencil
