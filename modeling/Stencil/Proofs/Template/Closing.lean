import Mathlib.Tactic.Common
import Stencil.Proofs.Template.Mirrored

/-!
A node that is read without a fault is read without a look behind its last token.

Each construct ends with a bracket or a closing directive of its own, and whatever stands behind
that is left for the next one.
-/

namespace Stencil.Template

variable {S : Setting} {p : Progress}

/-! ### Slots and context references -/

lemma slotBody_closes (hp : p.Live) (opening : Token) : (slotBody opening).ClosesAt S
    (slotBody (opening.shift S.place)) (·.shift S.place) p := by
  unfold slotBody
  refine .bind (expect_mirrors _ _) hp (Rule.Yields.expect hp (by decide)) fun name q hq => ?_
  refine .bind hint_mirrors hq (hint_yields hq) fun h q hq => ?_
  refine .bind slotDefault_mirrors hq (slotDefault_yields hq) fun d q hq => ?_
  refine (Rule.ClosesAt.expect hq (by decide)).then_pure fun close => ?_
  rw [Span.shift_mk]
  rfl

lemma slot_closes (hp : p.Live) (hk : p.current.kind = .slotOpen) :
    slot.ClosesAt S slot (Option.map (·.shift S.place)) p := by
  unfold slot
  refine .bind advance_mirrors hp fun t q hon hq => ?_
  obtain ⟨rfl, rfl⟩ := Prod.mk.inj hon
  exact .orSkipTo (by decide) (slotBody_closes hq _) (slotBody_mirrors _) hq
    (slotBody_yields hq hk)

lemma operatorArguments_closes (hp : p.Live) :
    operatorArguments.ClosesAt S operatorArguments (shiftArguments S.place) p := by
  unfold operatorArguments
  refine .lift_bind advance_mirrors hp fun _ q hq => ?_
  refine .bind enclosed_mirrors hq (enclosed_yields hq) fun a q hq => ?_
  exact (Rule.ClosesAt.expect hq (by decide)).then_pure fun _ => rfl

lemma contextBody_closes (hp : p.Live) (operator : Token) : (contextBody operator).ClosesAt S
    (contextBody (operator.shift S.place)) (shiftArguments S.place) p := by
  unfold contextBody
  refine .lift_bind (hasArguments_mirrors operator) hp fun _ q hq => .ite Iff.rfl ?_ ?_
  · exact operatorArguments_closes hq
  · exact .giveUp hq _ operator

lemma contextNode_closes (hp : p.Live) :
    contextNode.ClosesAt S contextNode (Option.map (·.shift S.place)) p := by
  unfold contextNode
  refine .bind advance_mirrors hp fun operator q _ hq => ?_
  refine (Reading.ClosesAt.orSkipTo (by decide) (contextBody_closes hq operator)
    (contextBody_mirrors operator) hq (contextBody_yields hq operator)).then_still fun o => ?_
  have faulty : Reading.Still S
      (do record .noPath operator.start; return none : Reading (Option Node))
      (do record .noPath (S.place.shift operator.start); return none)
      (Option.map (·.shift S.place)) := by
    refine .recorded ?_ _ _
    exact .pure rfl
  rcases o with _ | ⟨_ | path | _, close⟩
  · exact .pure rfl
  · exact faulty
  · refine .ite Iff.rfl faulty (.pure ?_)
    rw [Span.shift_mk]
    rfl
  · exact faulty

/-! ### Names and paths -/

lemma markedName_yields (hp : p.Live) (directive : Token) :
    (markedName directive).Yields p fun _ _ => True := by
  unfold markedName nameToken
  refine (Rule.Yields.lift (nameMark_gives hp directive)).bind fun _ ts ds q hm _ => ?_
  refine .look (on_current _) ?_
  split
  · rename_i hk
    have hname : Grammar.Name q.current := by simpa [Grammar.Name] using hk
    have hne : q.current.kind ≠ .endOfInput := by rcases hname with h | h <;> simp [h]
    exact .lift ⟨_, _, moves_advance (hm.live hp) hne, fun _ _ => trivial⟩
  · exact .giveUp _ _

lemma directiveArgument_closes (hp : p.Live) (directive : Token) :
    (directiveArgument directive).ClosesAt S (directiveArgument (directive.shift S.place))
      (shiftNamed S.place) p := by
  rw [directiveArgument_eq, directiveArgument_eq]
  refine .bind (markedName_mirrors directive) hp (markedName_yields hp directive) fun t q hq => ?_
  exact (Rule.ClosesAt.expect hq (by decide)).then_pure fun _ => rfl

lemma reference_closes (hp : p.Live) :
    reference.ClosesAt S reference (Option.map (·.shift S.place)) p := by
  unfold reference
  refine .bind advance_mirrors hp fun directive q _ hq => ?_
  refine (Reading.ClosesAt.orSkipTo (by decide) (directiveArgument_closes hq directive)
    (directiveArgument_mirrors directive) hq (directiveArgument_yields hq directive)).then_still
    fun o => ?_
  rcases o with _ | ⟨path, close⟩
  · exact .pure rfl
  · exact .pure (congrArg some (reference_shift S.place path directive close))

/-! ### Blocks -/

lemma blockEnd_closes (hp : p.Live) {names : List String} {problem : Problem} {start : Position}
    {f e : Token → Option Node} (hf : ∀ t, e (t.shift S.place) = (f t).map (·.shift S.place)) :
    (do
      if ← isAtDirective names then
        let close ← advance
        return f close
      else
        record problem start
        return none : Reading (Option Node)).ClosesAt S (do
      if ← isAtDirective names then
        let close ← advance
        return e close
      else
        record problem (S.place.shift start)
        return none) (Option.map (·.shift S.place)) p := by
  refine .bind (isAtDirective_mirrors names) hp fun b q hon hq => ?_
  obtain ⟨rfl, rfl⟩ := Prod.mk.inj hon
  split
  · rename_i h
    obtain ⟨hk, -⟩ := directive_of_isAtDirective h
    exact (Reading.ClosesAt.advance hp (by simp [hk])).then_still fun t => .pure (hf t)
  · exact .of_fault (.bind (record_mirrors _ _) fun _ => .pure rfl) hp (.recorded (.pure trivial))

lemma partBlock_closes (n : Nat) (open_ : List Block) (hp : p.Live) :
    (partBlock (n + 1) open_).ClosesAt S (partBlock (n + 1) open_)
      (Option.map (·.shift S.place)) p := by
  unfold partBlock
  refine .bind advance_mirrors hp fun directive q _ hq => ?_
  refine .bind (orSkipTo_mirrors (by decide) (directiveArgument_mirrors directive)) hq
    fun name q _ hq => ?_
  refine .bind ((bodiesMirror S n).nodes _) hq fun children q _ hq => ?_
  refine blockEnd_closes hq fun close => ?_
  rw [Span.shift_mk]
  cases name <;> rfl

lemma ifBlock_closes (n : Nat) (open_ : List Block) (hp : p.Live) :
    (ifBlock (n + 1) open_).ClosesAt S (ifBlock (n + 1) open_)
      (Option.map (·.shift S.place)) p := by
  unfold ifBlock
  refine .bind current_mirrors hp fun directive q _ hq => ?_
  refine .bind ((bodiesMirror S n).branch _) hq fun node q _ hq => ?_
  refine .bind ((bodiesMirror S n).strayBranches _) hq fun stray q _ hq => ?_
  refine blockEnd_closes hq fun close => ?_
  rw [Span.shift_mk]
  cases stray <;> cases node <;> simp [Node.withSpan_shift]

/-- **Items close**: what is read of a body without a fault ends with the tokens passed over. -/
lemma item_closes (n : Nat) (open_ : List Block) (hp : p.Live)
    (hk : p.current.kind ≠ .endOfInput) : (item (n + 1) open_ p.current).ClosesAt S
      (item (n + 1) open_ (p.current.shift S.place)) (Option.map (·.shift S.place)) p := by
  have skipped (problem : Problem) : Reading.ClosesAt S
      (do record problem p.current.start; skipDirective; return none : Reading (Option Node))
      (do record problem (S.place.shift p.current.start); skipDirective; return none)
      (Option.map (·.shift S.place)) p := by
    refine .of_fault (skipped_mirrors _ _) hp (.recorded ?_)
    exact (Reading.Takes.skipDirective (p := p.record _ _) hp hk).gives.bind
      fun _ _ _ _ _ _ => .pure fun _ => trivial
  unfold item
  rw [Token.shift_kind]
  cases hkind : p.current.kind
  case text =>
    refine (Reading.ClosesAt.advance hp hk).then_still fun _ => .pure ?_
    rw [Token.shift_span]
    rfl
  case slotOpen => exact slot_closes hp hkind
  case operator => exact contextNode_closes hp
  case error =>
    have hrecord : Reading.Gives (do modify (·.recordToken p.current); return (none : Option Node))
        p.advance fun _ _ => False := .recorded (f := fun _ => pure none) (.pure trivial)
    refine .of_fault (.bind advance_mirrors fun u => .bind (recordToken_mirrors u) fun _ => ?_) hp
      (Reading.Takes.advance_bind hp hk hrecord).gives
    exact .pure rfl
  case directive =>
    refine .ite Iff.rfl (skipped _) (.ite Iff.rfl (ifBlock_closes n open_ hp) ?_)
    refine .ite Iff.rfl (partBlock_closes n open_ hp) (.ite Iff.rfl ?_ (skipped _))
    exact reference_closes hp
  all_goals
    refine .of_fault (.bind (record_mirrors (.strayToken p.current.lexeme) p.current.start)
      fun _ => .bind advance_mirrors fun _ => .pure rfl) hp (.recorded ?_)
    exact (Reading.Takes.advance (p := p.record _ _) hp hk).gives.bind
      fun _ _ _ _ _ _ => .pure fun _ => trivial

end Stencil.Template
