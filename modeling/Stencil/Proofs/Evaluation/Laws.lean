import Mathlib.Logic.Relation
import Stencil.Proofs.Evaluation.Calls

/-!
Laws of Boolean logic for conditions.

An operand is evaluated only where those before it leave the truth open, and may fail, ask a judge
or look up context when it is. So a law says that two conditions are the same step of an
evaluation: the order of their operands is kept, and each is evaluated in one exactly if it is in
the other. What one use of a law inside a condition leaves as it is (`holds_of_rewrites`), any
number of them does, in either direction (`holds_of_equivalent`).
-/

namespace Stencil

namespace Condition

/-- The two sides of a law. -/
inductive Law : Condition → Condition → Prop where
  | not_and (cs : List Condition) (s t u : Span) :
      Law (.not (.and cs s) t) (.or (cs.map (.not · t)) u)
  | not_or (cs : List Condition) (s t u : Span) :
      Law (.not (.or cs s) t) (.and (cs.map (.not · t)) u)
  | not_not (c : Condition) (s t : Span) : Law (.not (.not c s) t) c
  | and_and (as cs bs : List Condition) (s t : Span) :
      Law (.and (as ++ .and cs s :: bs) t) (.and (as ++ cs ++ bs) t)
  | or_or (as cs bs : List Condition) (s t : Span) :
      Law (.or (as ++ .or cs s :: bs) t) (.or (as ++ cs ++ bs) t)

/-- A law is used on a condition, or on one at any depth in it; or only places change. -/
inductive Rewrites : Condition → Condition → Prop where
  | law {c d : Condition} (h : Law c d) : Rewrites c d
  | places {c d : Condition} (h : c.unplaced = d.unplaced) : Rewrites c d
  | not {c d : Condition} (h : Rewrites c d) (s : Span) : Rewrites (.not c s) (.not d s)
  | and {c d : Condition} (h : Rewrites c d) (as bs : List Condition) (s : Span) :
      Rewrites (.and (as ++ c :: bs) s) (.and (as ++ d :: bs) s)
  | or {c d : Condition} (h : Rewrites c d) (as bs : List Condition) (s : Span) :
      Rewrites (.or (as ++ c :: bs) s) (.or (as ++ d :: bs) s)

/-- Laws lead from one condition to the other, used in either direction and any number of times. -/
def Equivalent : Condition → Condition → Prop := Relation.EqvGen Rewrites

end Condition

namespace Evaluation

open Condition

variable {σ : Type} {c d : Condition}

/-! ### Operands in a row -/

section

variable (e : Setup σ)

lemma allHold_cons (c : Condition) (cs : List Condition) : allHold e (c :: cs) = do
    if ← holds e c then allHold e cs else return false := rfl

lemma anyHolds_cons (c : Condition) (cs : List Condition) : anyHolds e (c :: cs) = (do
    if ← holds e c then return true else anyHolds e cs) := rfl

lemma holds_not (c : Condition) (s : Span) : holds e (.not c s) = do return !(← holds e c) := rfl

lemma allHold_append (as bs : List Condition) : allHold e (as ++ bs) = do
    if ← allHold e as then allHold e bs else return false := by
  induction as with
  | nil => simp [allHold]
  | cons a as ih =>
    rw [List.cons_append, allHold_cons, allHold_cons, ih, bind_assoc]
    refine bind_congr fun b => ?_
    cases b <;> simp

lemma anyHolds_append (as bs : List Condition) : anyHolds e (as ++ bs) = (do
    if ← anyHolds e as then return true else anyHolds e bs) := by
  induction as with
  | nil => simp [anyHolds]
  | cons a as ih =>
    rw [List.cons_append, anyHolds_cons, anyHolds_cons, ih, bind_assoc]
    refine bind_congr fun b => ?_
    cases b <;> simp

/-- The first operand that holds decides as the first negation that does not. -/
lemma allHold_map_not (cs : List Condition) (s : Span) :
    allHold e (cs.map (.not · s)) = do return !(← anyHolds e cs) := by
  induction cs with
  | nil => simp [allHold, anyHolds]
  | cons c cs ih =>
    rw [List.map_cons, allHold_cons, anyHolds_cons, holds_not, ih, bind_assoc, bind_assoc]
    refine bind_congr fun b => ?_
    cases b <;> simp

lemma anyHolds_map_not (cs : List Condition) (s : Span) :
    anyHolds e (cs.map (.not · s)) = do return !(← allHold e cs) := by
  induction cs with
  | nil => simp [allHold, anyHolds]
  | cons c cs ih =>
    rw [List.map_cons, anyHolds_cons, allHold_cons, holds_not, ih, bind_assoc, bind_assoc]
    refine bind_congr fun b => ?_
    cases b <;> simp

/-! ### One use of a law -/

/-- One operand among others matters only by the step that it is. -/
lemma allHold_congr (h : holds e c = holds e d) (as bs : List Condition) :
    allHold e (as ++ c :: bs) = allHold e (as ++ d :: bs) := by
  rw [allHold_append, allHold_append, allHold_cons, allHold_cons, h]

lemma anyHolds_congr (h : holds e c = holds e d) (as bs : List Condition) :
    anyHolds e (as ++ c :: bs) = anyHolds e (as ++ d :: bs) := by
  rw [anyHolds_append, anyHolds_append, anyHolds_cons, anyHolds_cons, h]

lemma holds_of_law (h : Law c d) : holds e c = holds e d := by
  cases h with
  | not_and cs s t u => rw [holds, holds, holds, anyHolds_map_not]
  | not_or cs s t u => rw [holds, holds, holds, allHold_map_not]
  | not_not d s t => simp [holds]
  | and_and as cs bs s t =>
    have hnested : allHold e (.and cs s :: bs) = allHold e (cs ++ bs) := by
      rw [allHold_cons, holds, allHold_append]
    rw [holds, holds, List.append_assoc, allHold_append, hnested, ← allHold_append]
  | or_or as cs bs s t =>
    have hnested : anyHolds e (.or cs s :: bs) = anyHolds e (cs ++ bs) := by
      rw [anyHolds_cons, holds, anyHolds_append]
    rw [holds, holds, List.append_assoc, anyHolds_append, hnested, ← anyHolds_append]

mutual

/-- Places do not matter. -/
lemma holds_unplaced : ∀ c : Condition, holds e c.unplaced = holds e c
  | .literal b _ => by rw [unplaced, holds, holds]
  | .ref name _ => by rw [unplaced, holds, holds]
  | .not c _ => by rw [unplaced, holds, holds, holds_unplaced c]
  | .and cs _ => by rw [unplaced, holds, holds, allHold_unplacedAll cs]
  | .or cs _ => by rw [unplaced, holds, holds, anyHolds_unplacedAll cs]
  | .compare name op arg _ => by rw [unplaced, holds, holds]
  | .judge name question _ => by rw [unplaced, holds, holds]
  | .present path _ => by rw [unplaced, holds, holds]

lemma allHold_unplacedAll : ∀ cs : List Condition, allHold e (unplacedAll cs) = allHold e cs
  | [] => by rw [unplacedAll]
  | c :: cs => by
    rw [unplacedAll, allHold_cons, allHold_cons, holds_unplaced c, allHold_unplacedAll cs]

lemma anyHolds_unplacedAll : ∀ cs : List Condition, anyHolds e (unplacedAll cs) = anyHolds e cs
  | [] => by rw [unplacedAll]
  | c :: cs => by
    rw [unplacedAll, anyHolds_cons, anyHolds_cons, holds_unplaced c, anyHolds_unplacedAll cs]

end

/-- A law used at any depth leaves the step as it is. -/
lemma holds_of_rewrites (h : Rewrites c d) : holds e c = holds e d := by
  induction h with
  | law h => exact holds_of_law e h
  | places h => rw [← holds_unplaced, h, holds_unplaced]
  | not _ s ih => rw [holds_not, holds_not, ih]
  | and _ as bs s ih => rw [holds, holds, allHold_congr e ih]
  | or _ as bs s ih => rw [holds, holds, anyHolds_congr e ih]

/-! ### Any number of them -/

lemma holds_eq_of_equivalent (h : Equivalent c d) : holds e c = holds e d := by
  induction h with
  | rel c d h => exact holds_of_rewrites e h
  | refl c => rfl
  | symm c d _ ih => exact ih.symm
  | trans c d f _ _ ih ih' => exact ih.trans ih'

end

/-- What a condition comes to in a state: its truth or a failure, and the calls to the judge and
the resolver, in order. -/
def course (e : Setup σ) (c : Condition) (s : State σ) : Except Failure Bool × List Call :=
  let r := (holds e.recorded c).on ⟨s.bindings, s.parts, s.issues, (s.world, [])⟩
  (r.1, r.2.world.2)

/-- **Laws of conditions**: conditions that laws lead from one to the other are the same step of
an evaluation, strict or not and with any collaborators. In every state they come to the same truth
or failure, make the same calls in the same order, and leave the same state behind. -/
theorem holds_of_equivalent (h : Equivalent c d) (e : Setup σ) :
    holds e c = holds e d ∧ ∀ s, course e c s = course e d s := by
  refine ⟨holds_eq_of_equivalent e h, fun s => ?_⟩
  unfold course
  rw [holds_eq_of_equivalent e.recorded h]

/-- A negation is moved inwards over a nested group, behind which a question is put. -/
theorem holds_of_equivalent_nested :
    let e : Setup Unit := { strict := true, judge := some ⟨fun v _ => pure (.answer v)⟩ }
    let s : State Unit := ⟨[("x", .bool true), ("y", .bool false)], [], [], ()⟩
    let x := Condition.ref "x" .empty
    let y := Condition.judge "y" "Safe?" .empty
    let c := Condition.not (.and [x, .not (.not (.or [.or [y, y] .empty, y] .empty) .empty) .empty]
      .empty) .empty
    let d := Condition.or [.not x .empty, .not (.or [y, y, y] .empty) .empty] .empty
    Equivalent c d ∧ (holds e c = holds e d ∧ ∀ s, course e c s = course e d s) ∧
      course e c s = (.ok true, List.replicate 3 (.judged (.bool false) "Safe?")) := by
  intro e s x y c d
  have hnested : Law (.or [.or [y, y] .empty, y] .empty) (.or [y, y, y] .empty) :=
    .or_or [] [y, y] [y] .empty .empty
  have hdouble : Equivalent c (.not (.and [x, .or [.or [y, y] .empty, y] .empty] .empty) .empty) :=
    .rel _ _ (.not (.and (.law (.not_not _ .empty .empty)) [x] [] .empty) .empty)
  have hflat : Equivalent (.not (.and [x, .or [.or [y, y] .empty, y] .empty] .empty) .empty)
      (.not (.and [x, .or [y, y, y] .empty] .empty) .empty) :=
    .rel _ _ (.not (.and (.law hnested) [x] [] .empty) .empty)
  have hmorgan : Equivalent (.not (.and [x, .or [y, y, y] .empty] .empty) .empty) d :=
    .rel _ _ (.law (.not_and [x, .or [y, y, y] .empty] .empty .empty .empty))
  have h : Equivalent c d := .trans _ _ _ hdouble (.trans _ _ _ hflat hmorgan)
  exact ⟨h, holds_of_equivalent h e, rfl⟩

end Evaluation

end Stencil
