import Mathlib.Tactic.Common
import Stencil.Proofs.Template.Fuel
import Stencil.Proofs.Template.Sight

/-!
Every part of the parser does the same in two parses that are alike.

Where a part takes its fuel from the number of tokens ahead, which differs between the two, the
fuel of either is one that suffices for both.
-/

namespace Stencil.Template

variable {α β : Type} {S : Setting} {p : Progress}

/-- Moving a name or path, whose closing bracket has a place. -/
abbrev shiftNamed (q : Position) (a : String × Token) : String × Token := (a.1, a.2.shift q)

lemma Span.shift_mk (q : Position) (first last : Token) :
    (⟨(first.shift q).start, (last.shift q).stop⟩ : Span) =
      Span.shift q ⟨first.start, last.stop⟩ := by
  rw [Token.shift_stop]
  rfl

/-- A rule whose fuel is the number of tokens ahead. -/
lemma Rule.Mirrors.of_bounded {r : Rule α} {s : Nat → Rule α} {g : α → α}
    (hs : ∀ n, (s n).Mirrors S (s n) g)
    (hr : ∀ (p : Progress) (n : Nat), p.Live → p.rest.length ≤ n → r.on p = (s n).on p) :
    r.Mirrors S r g := by
  intro p hp
  obtain ⟨ts, ds, k, hsight, hk⟩ := hs (p.rest.length + S.tail'.length) p hp
  refine ⟨ts, ds, k, hsight.of_eq (hr p _ hp (Nat.le_add_right _ _)) fun us p' ha hu => ?_, hk⟩
  refine hr p' _ ha.live ?_
  have hrest := congrArg List.length ha.rest
  have hrest' := congrArg List.length ha.rest'
  rw [List.length_append] at hrest
  rw [List.length_append, List.length_map] at hrest'
  omega

/-! ### Slots and context references -/

lemma hint_mirrors : hint.Mirrors S hint fun h => h := by
  unfold hint
  refine .lift_bind (isAt_mirrors _) fun _ => .ite Iff.rfl ?_ (.pure rfl)
  refine .lift_bind advance_mirrors fun _ => .bind (expect_mirrors _ _) fun t => ?_
  rw [Token.shift_text, Token.shift_start]
  cases Hint.ofWord? t.text.toLower with
  | some h => exact .pure rfl
  | none => exact .lift_bind (record_mirrors _ _) fun _ => .pure rfl

lemma slotDefault_mirrors : slotDefault.Mirrors S slotDefault fun d => d := by
  unfold slotDefault
  refine .lift_bind (isAt_mirrors _) fun _ => .ite Iff.rfl ?_ (.pure rfl)
  refine .lift_bind advance_mirrors fun _ => .lift_bind current_mirrors fun t => ?_
  refine .ite Iff.rfl ?_ (giveUp_mirrors _ t _)
  exact .lift_bind advance_mirrors fun _ => .pure rfl

lemma slotBody_mirrors (opening : Token) :
    (slotBody opening).Mirrors S (slotBody (opening.shift S.place)) (·.shift S.place) := by
  unfold slotBody
  refine .bind (expect_mirrors _ _) fun name => .bind hint_mirrors fun h => ?_
  refine .bind slotDefault_mirrors fun d => .bind (expect_mirrors _ _) fun close => .pure ?_
  rw [Span.shift_mk]
  rfl

lemma slot_mirrors : slot.Mirrors S slot (Option.map (·.shift S.place)) := by
  unfold slot
  exact .bind advance_mirrors fun t => orSkipTo_mirrors (by decide) (slotBody_mirrors t)

lemma moreArguments_mirrors (n : Nat) :
    (moreArguments n).Mirrors S (moreArguments n) fun ss => ss := by
  induction n with
  | zero => exact .pure rfl
  | succ n ih =>
    unfold moreArguments
    refine .lift_bind (isAt_mirrors _) fun _ => .ite Iff.rfl ?_ (.pure rfl)
    refine .lift_bind advance_mirrors fun _ => .bind (expect_mirrors _ _) fun t => ?_
    exact .bind ih fun _ => .pure rfl

/-- What stands between parentheses, with at most so many further arguments. -/
def enclosedWithin (n : Nat) : Rule Argument := do
  if ← isAt .argument then return .text (← advance).text
  else if ← isAt .string then
    let first ← advance
    match ← moreArguments n with
    | [] => return .text first.text
    | more => return .texts (first.text :: more)
  else return .none

lemma enclosed_eq_within {n : Nat} (hp : p.Live) (hn : p.rest.length ≤ n) :
    enclosed.on p = (enclosedWithin n).on p := by
  unfold enclosed enclosedWithin
  refine Rule.first_congr (on_isAt _ _) ?_
  split
  · rfl
  refine Rule.first_congr (on_isAt _ _) ?_
  split
  · rename_i hk
    have hk : p.current.kind = .string := by simpa using hk
    obtain ⟨hq, hl⟩ := hp.length_advance (by simp [hk])
    refine Rule.first_congr (on_advance _) ?_
    exact Rule.bind_congr (moreArguments_congr hq le_rfl (by omega)) fun _ _ _ => rfl
  · rfl

lemma enclosed_mirrors : enclosed.Mirrors S enclosed fun a => a := by
  refine .of_bounded (s := enclosedWithin) (fun n => ?_) fun _ _ => enclosed_eq_within
  unfold enclosedWithin
  refine .lift_bind (isAt_mirrors _) fun _ => .ite Iff.rfl ?_ ?_
  · exact .lift_bind advance_mirrors fun _ => .pure rfl
  refine .lift_bind (isAt_mirrors _) fun _ => .ite Iff.rfl ?_ (.pure rfl)
  refine .lift_bind advance_mirrors fun t => .bind (moreArguments_mirrors n) fun ss => ?_
  cases ss <;> exact .pure rfl

/-- Moving what an operator is applied to, whose last token has a place. -/
abbrev shiftArguments (q : Position) (a : Argument × Token) : Argument × Token :=
  (a.1, a.2.shift q)

lemma operatorArguments_mirrors :
    operatorArguments.Mirrors S operatorArguments (shiftArguments S.place) := by
  unfold operatorArguments
  refine .lift_bind advance_mirrors fun _ => .bind enclosed_mirrors fun a => ?_
  exact .bind (expect_mirrors _ _) fun _ => .pure rfl

lemma contextBody_mirrors (operator : Token) : (contextBody operator).Mirrors S
    (contextBody (operator.shift S.place)) (shiftArguments S.place) := by
  unfold contextBody
  refine .lift_bind (hasArguments_mirrors operator) fun _ => .ite Iff.rfl ?_ ?_
  · exact operatorArguments_mirrors
  · exact giveUp_mirrors _ operator _

lemma contextNode_mirrors :
    contextNode.Mirrors S contextNode (Option.map (·.shift S.place)) := by
  unfold contextNode
  refine .bind advance_mirrors fun operator => ?_
  refine .bind (orSkipTo_mirrors (by decide) (contextBody_mirrors operator)) fun o => ?_
  have faulty : Reading.Mirrors S
      (do record .noPath operator.start; return none : Reading (Option Node))
      (do record .noPath (S.place.shift operator.start); return none)
      (Option.map (·.shift S.place)) :=
    .bind (record_mirrors _ _) fun _ => .pure rfl
  rcases o with _ | ⟨_ | path | _, close⟩
  · exact .pure rfl
  · exact faulty
  · refine .ite Iff.rfl faulty (.pure ?_)
    rw [Span.shift_mk]
    rfl
  · exact faulty

/-! ### Conditions -/

lemma operand_mirrors :
    operand.Mirrors S operand fun v => (v.1, v.2.shift S.place) := by
  unfold operand
  refine .lift_bind current_mirrors fun t => .ite Iff.rfl ?_ (.ite Iff.rfl ?_ ?_)
  · refine .lift_bind advance_mirrors fun _ => .bind (expect_mirrors _ _) fun name => ?_
    refine .lift_bind (isAt_mirrors _) fun _ => .ite Iff.rfl ?_ ?_
    · exact .lift_bind current_mirrors fun u => giveUp_mirrors _ u _
    · refine .bind (expect_mirrors _ _) fun close => .pure ?_
      rw [Span.shift_mk]
      rfl
  · refine .lift_bind advance_mirrors fun _ => .pure ?_
    rw [Token.shift_span]
    rfl
  · exact giveUp_mirrors _ t _

lemma contextPresence_mirrors :
    contextPresence.Mirrors S contextPresence (·.shift S.place) := by
  unfold contextPresence
  refine .lift_bind advance_mirrors fun operator => ?_
  refine .lift_bind (hasArguments_mirrors operator) fun _ => .ite Iff.rfl ?_ ?_
  · refine .bind operatorArguments_mirrors fun a => ?_
    rcases a with ⟨_ | path | _, close⟩
    · exact giveUp_mirrors _ operator _
    · refine .ite Iff.rfl (giveUp_mirrors _ operator _) (.pure ?_)
      rw [Span.shift_mk]
      rfl
    · exact giveUp_mirrors _ operator _
  · exact giveUp_mirrors _ operator _

lemma appliedTo_mirrors (operator : Token) : (appliedTo operator).Mirrors S
    (appliedTo (operator.shift S.place)) (shiftArguments S.place) := by
  unfold appliedTo
  refine .lift_bind (hasArguments_mirrors operator) fun _ => .ite Iff.rfl ?_ (.pure rfl)
  exact operatorArguments_mirrors

lemma applied_mirrors (name : String) (operator : Token) (arg : Argument) (span : Span) :
    (applied name operator arg span).Mirrors S
      (applied name (operator.shift S.place) arg (span.shift S.place)) (·.shift S.place) := by
  unfold applied
  refine .ite Iff.rfl ?_ (.ite Iff.rfl (giveUp_mirrors _ operator _) (.pure rfl))
  cases arg with
  | text question => exact .ite Iff.rfl (giveUp_mirrors _ operator _) (.pure rfl)
  | _ => exact giveUp_mirrors _ operator _

lemma predicate_mirrors (name : String) (span : Span) :
    (predicate name span).Mirrors S (predicate name (span.shift S.place)) (·.shift S.place) := by
  unfold predicate
  refine .lift_bind advance_mirrors fun operator => .bind (appliedTo_mirrors operator) fun a => ?_
  have hspan : (⟨(span.shift S.place).start, (a.2.shift S.place).stop⟩ : Span) =
      Span.shift S.place ⟨span.start, a.2.stop⟩ := by
    rw [Token.shift_stop]
    rfl
  change (applied name operator a.1 ⟨span.start, a.2.stop⟩).Mirrors S
    (applied name (operator.shift S.place) a.1 ⟨_, (a.2.shift S.place).stop⟩) _
  rw [hspan]
  exact applied_mirrors name operator a.1 _

/-- Both `OR` and `AND`: the condition of a first operand and those behind it. -/
private lemma joined_mirrors {x : Rule Condition} {tail : Rule (List Condition)}
    {join : List Condition → Span → Condition} (hx : x.Mirrors S x (·.shift S.place))
    (ht : tail.Mirrors S tail (Condition.shiftAll S.place))
    (hj : ∀ cs s, join (Condition.shiftAll S.place cs) (s.shift S.place) =
      (join cs s).shift S.place) :
    (do
      let start ← current
      let first ← x
      let more ← tail
      match more with
      | [] => return first
      | _ => return join (first :: more) ⟨start.start, (← previous).stop⟩ :
      Rule Condition).Mirrors S (do
      let start ← current
      let first ← x
      let more ← tail
      match more with
      | [] => return first
      | _ => return join (first :: more) ⟨start.start, (← previous).stop⟩)
      (·.shift S.place) := by
  refine .lift_bind current_mirrors fun start => .bind hx fun c => .bind ht fun cs => ?_
  cases cs with
  | nil => exact .pure rfl
  | cons d cs =>
    refine .lift_bind previous_mirrors fun last => .pure ?_
    rw [Span.shift_mk]
    exact hj (c :: d :: cs) _

/-- Both `OR` and `AND`: the operands behind the first. -/
private lemma tail_mirrors {word : String} {x : Rule Condition} {tail : Rule (List Condition)}
    (hx : x.Mirrors S x (·.shift S.place))
    (ht : tail.Mirrors S tail (Condition.shiftAll S.place)) :
    (do
      if ← isAtKeyword word then
        let _ ← advance
        let c ← x
        return c :: (← tail)
      else return [] : Rule (List Condition)).Mirrors S (do
      if ← isAtKeyword word then
        let _ ← advance
        let c ← x
        return c :: (← tail)
      else return []) (Condition.shiftAll S.place) := by
  refine .lift_bind (isAtKeyword_mirrors word) fun _ => .ite Iff.rfl ?_ (.pure rfl)
  exact .lift_bind advance_mirrors fun _ => .bind hx fun _ => .bind ht fun _ => .pure rfl

/-- The layers of conditions do the same in parses that are alike. -/
structure ConditionsMirror (S : Setting) (n : Nat) : Prop where
  orCondition : (orCondition n).Mirrors S (orCondition n) (·.shift S.place)
  orRest : (orRest n).Mirrors S (orRest n) (Condition.shiftAll S.place)
  andCondition : (andCondition n).Mirrors S (andCondition n) (·.shift S.place)
  andRest : (andRest n).Mirrors S (andRest n) (Condition.shiftAll S.place)
  notCondition : (notCondition n).Mirrors S (notCondition n) (·.shift S.place)
  primary : (primary n).Mirrors S (primary n) (·.shift S.place)

lemma notCondition_mirrors_succ {n : Nat} (ih : ConditionsMirror S n) :
    (notCondition (n + 1)).Mirrors S (notCondition (n + 1)) (·.shift S.place) := by
  unfold notCondition
  refine .lift_bind (isAtKeyword_mirrors _) fun _ => .ite Iff.rfl ?_ ih.primary
  refine .lift_bind advance_mirrors fun start => .bind ih.notCondition fun c => ?_
  refine .lift_bind previous_mirrors fun last => .pure ?_
  rw [Span.shift_mk]
  rfl

lemma primary_mirrors_succ {n : Nat} (ih : ConditionsMirror S n) :
    (primary (n + 1)).Mirrors S (primary (n + 1)) (·.shift S.place) := by
  unfold primary
  refine .lift_bind current_mirrors fun t => .ite Iff.rfl ?_ (.ite Iff.rfl ?_ ?_)
  · refine .lift_bind advance_mirrors fun _ => .bind ih.orCondition fun c => ?_
    exact .bind (expect_mirrors _ _) fun _ => .pure rfl
  · refine .lift_bind advance_mirrors fun _ => .pure ?_
    rw [Token.shift_span]
    rfl
  · refine .ite Iff.rfl contextPresence_mirrors (.bind operand_mirrors fun v => ?_)
    refine .lift_bind (isAt_mirrors _) fun _ => .ite Iff.rfl ?_ (.pure rfl)
    exact predicate_mirrors v.1 v.2

lemma conditionsMirror (S : Setting) (n : Nat) : ConditionsMirror S n := by
  have failed {α : Type} (g : α → α) : (failure : Rule α).Mirrors S failure g :=
    fun p _ => ⟨[], [], 0, ⟨Moves.refl p, fun us _ hu _ => ⟨rfl, us, rfl, hu⟩⟩, by simp⟩
  induction n with
  | zero => exact ⟨failed _, failed _, failed _, failed _, failed _, failed _⟩
  | succ n ih =>
    refine ⟨?_, ?_, ?_, ?_, notCondition_mirrors_succ ih, primary_mirrors_succ ih⟩
    · unfold orCondition
      exact joined_mirrors ih.andCondition ih.orRest fun _ _ => rfl
    · unfold orRest
      exact tail_mirrors ih.andCondition ih.orRest
    · unfold andCondition
      exact joined_mirrors ih.notCondition ih.andRest fun _ _ => rfl
    · unfold andRest
      exact tail_mirrors ih.notCondition ih.andRest

/-- A condition within so much nesting and the bracket behind it. -/
def closedConditionWithin (n : Nat) : Rule Condition := do
  let c ← orCondition (5 * n + 5)
  let _ ← expect .directiveClose "']' after condition"
  return c

lemma closedCondition_eq_within {n : Nat} (hp : p.Live) (hn : p.rest.length ≤ n) :
    closedCondition.on p = (closedConditionWithin n).on p := by
  have hget : closedCondition =
      liftM (get : Reading Progress) >>= fun q => closedConditionWithin q.rest.length := rfl
  rw [hget, Rule.on_lift_bind, on_get]
  unfold closedConditionWithin
  exact Rule.bind_congr ((conditionsAgree _ _ p hp).1 le_rfl (by omega)) fun _ _ _ => rfl

lemma closedCondition_mirrors :
    closedCondition.Mirrors S closedCondition (·.shift S.place) := by
  refine .of_bounded (s := closedConditionWithin) (fun n => ?_)
    fun _ _ => closedCondition_eq_within
  unfold closedConditionWithin
  refine .bind (conditionsMirror S _).orCondition fun c => ?_
  exact .bind (expect_mirrors _ _) fun _ => .pure rfl

lemma directiveCondition_mirrors (directive : Token) : (directiveCondition directive).Mirrors S
    (directiveCondition (directive.shift S.place)) (Option.map (·.shift S.place)) := by
  unfold directiveCondition
  refine .bind (isAt_mirrors _) fun _ => .ite Iff.rfl ?_ ?_
  · refine .bind (record_mirrors (.noCondition directive.lexeme) directive.start) fun _ => ?_
    exact .bind advance_mirrors fun _ => .pure rfl
  · exact orSkipTo_mirrors (by decide) closedCondition_mirrors

/-! ### Names and paths -/

lemma on_giveUp (problem : Problem) (t : Token) (p : Progress) :
    (giveUp problem t : Rule α).on p = (none, if t.kind == .error
      then p.advance.recordToken p.current else p.record problem t.start) := by
  unfold giveUp
  split <;> rfl

lemma Alike.isNameMark {us : List Token} {p' : Progress} (ha : Alike S us p p')
    (hu : 2 ≤ us.length) (directive : Token) :
    isNameMark (directive.shift S.place) p'.current p'.second =
      isNameMark directive p.current p.second := by
  have hsecond : p'.second = p.second.shift S.place := by
    obtain ⟨t, us, rfl⟩ := List.exists_cons_of_ne_nil (l := us) (by rintro rfl; simp at hu)
    obtain ⟨u, us, rfl⟩ := List.exists_cons_of_ne_nil (l := us) (by rintro rfl; simp at hu)
    rw [Progress.second, Progress.second, ha.rest, ha.rest']
    rfl
  rw [ha.current (Nat.le_of_succ_le hu), hsecond]
  rfl

/-- The mark of a name is passed over and told by its two tokens. -/
lemma nameMark_sight (hp : p.Live) {directive : Token}
    (hmark : isNameMark directive p.current p.second = true) :
    Sight S (nameMark directive).on (nameMark (directive.shift S.place)).on (fun u => u) p
      [p.current, p.second] [] 2 := by
  obtain ⟨⟨⟨-, hk⟩, -⟩, he⟩ : ((directive.text = "SECTION" ∧ p.current.kind = .identifier) ∧
      p.current.text = "name") ∧ p.second.kind = .equals := by
    simpa [isNameMark] using hmark
  have hne : p.current.kind ≠ .endOfInput := by simp [hk]
  have hsecond := Progress.second_eq hp hne
  have hfirst := advance_sight (S := S) hp hne
  have hnext := advance_sight (S := S) (hfirst.moves.live hp)
    (show p.advance.current.kind ≠ .endOfInput by simp [← hsecond, he])
  rw [hsecond]
  refine ⟨?_, fun us p' ha hu => ?_⟩
  · rw [on_nameMark, if_pos hmark]
    exact hfirst.moves.trans hnext.moves
  · have hmark' := (ha.isNameMark hu directive).trans hmark
    obtain ⟨-, vs, rfl, hq⟩ := hfirst.alike us p' ha (by omega)
    obtain ⟨-, ws, rfl, hq'⟩ := hnext.alike vs _ hq (by simpa using hu)
    rw [on_nameMark, on_nameMark, if_pos hmark, if_pos hmark']
    exact ⟨rfl, ws, rfl, hq'⟩

/-- The name itself. -/
def nameToken (directive : Token) : Rule Token := do
  let t ← current
  if t.kind == .string || t.kind == .identifier then advance
  else giveUp (.noName directive.lexeme) t

lemma nameToken_mirrors (directive : Token) : (nameToken directive).Mirrors S
    (nameToken (directive.shift S.place)) (·.shift S.place) := by
  unfold nameToken
  refine .lift_bind current_mirrors fun t => .ite Iff.rfl (.lift advance_mirrors) ?_
  exact giveUp_mirrors _ t _

/-- The name behind its mark. -/
def markedName (directive : Token) : Rule Token := do
  nameMark directive
  nameToken directive

lemma on_markedName (directive : Token) (p : Progress) : (markedName directive).on p =
    (nameToken directive).on
      (if isNameMark directive p.current p.second then p.advance.advance else p) := by
  unfold markedName
  rw [Rule.on_lift_bind, on_nameMark]

/-- A mark is looked for two tokens ahead only where the first of them is a name as well. -/
lemma markedName_mirrors (directive : Token) : (markedName directive).Mirrors S
    (markedName (directive.shift S.place)) (·.shift S.place) := by
  intro p hp
  by_cases hmark : isNameMark directive p.current p.second = true
  · have hsight := nameMark_sight (S := S) hp hmark
    obtain ⟨ts, ds, k, hs, hk⟩ := nameToken_mirrors directive _ (hsight.moves.live hp)
    refine ⟨_, _, _, hsight.lift.bind_some rfl hs, ?_⟩
    simp only [List.length_append, List.length_cons, List.length_nil]
    omega
  have unmarked {d : Token} {q : Progress} (h : isNameMark d q.current q.second ≠ true) :
      (markedName d).on q = (nameToken d).on q := by
    rw [on_markedName, if_neg h]
  by_cases hk : p.current.kind = .identifier
  · have taken {d : Token} {q : Progress} (hq : q.current.kind = .identifier) :
        (nameToken d).on q = Rule.on (liftM advance) q := by
      unfold nameToken
      rw [Rule.on_lift_bind, on_current]
      simp [hq]
    have hsight := (advance_sight (S := S) hp (by simp [hk])).lift.mono (Nat.le_succ 1)
    refine ⟨_, _, _, hsight.of_eq ?_ fun us p' ha hu => ?_, le_rfl⟩
    · rw [unmarked hmark, taken hk]
    · have hmark' := (ha.isNameMark hu directive).trans_ne hmark
      have hk' : p'.current.kind = .identifier := by
        rw [ha.current (by omega)]
        exact hk
      rw [unmarked hmark', taken hk']
  · have other {d : Token} {q : Progress} (hq : q.current.kind ≠ .identifier) :
        isNameMark d q.current q.second ≠ true := by
      simp [isNameMark, hq]
    obtain ⟨ts, ds, k, hs, hk'⟩ := nameToken_mirrors directive p hp
    refine ⟨ts, ds, max k 1, (hs.mono (le_max_left k 1)).of_eq (unmarked hmark)
      fun us p' ha hu => unmarked (other ?_), by omega⟩
    rw [ha.current (le_trans (le_max_right k 1) hu)]
    exact hk

/-- A directive's argument is the name and the bracket that closes the directive. -/
lemma directiveArgument_eq (directive : Token) : directiveArgument directive = (do
    let t ← markedName directive
    let close ← expect .directiveClose "']'"
    return (t.text, close)) := by
  funext p
  change Rule.on _ p = Rule.on _ p
  rw [Rule.on_lift_bind, Rule.on_lift_bind, on_current, Rule.on_bind, on_markedName, on_nameMark]
  unfold nameToken
  rw [Rule.on_lift_bind, on_current]
  dsimp only
  generalize (if isNameMark directive p.current p.second then p.advance.advance else p) = q
  by_cases hk : (q.current.kind == .string || q.current.kind == .identifier) = true
  · rw [if_pos hk, if_pos hk]
    rfl
  · rw [if_neg hk, if_neg hk, on_giveUp, on_giveUp]

lemma directiveArgument_mirrors (directive : Token) : (directiveArgument directive).Mirrors S
    (directiveArgument (directive.shift S.place)) (shiftNamed S.place) := by
  rw [directiveArgument_eq, directiveArgument_eq]
  refine .bind (markedName_mirrors directive) fun t => .bind (expect_mirrors _ _) fun _ => ?_
  exact .pure rfl

/-- The node of a reference, moved. -/
lemma reference_shift (q : Position) (path : String) (directive close : Token) :
    (if (directive.shift q).text == "IMPORT" then
        Node.imported path ⟨(directive.shift q).start, (close.shift q).stop⟩
      else .included path ⟨(directive.shift q).start, (close.shift q).stop⟩) =
      (if directive.text == "IMPORT" then Node.imported path ⟨directive.start, close.stop⟩
        else .included path ⟨directive.start, close.stop⟩).shift q := by
  rw [Span.shift_mk, Token.shift_text]
  split <;> rfl

lemma reference_mirrors : reference.Mirrors S reference (Option.map (·.shift S.place)) := by
  unfold reference
  refine .bind advance_mirrors fun directive => ?_
  refine .bind (orSkipTo_mirrors (by decide) (directiveArgument_mirrors directive)) fun o => ?_
  rcases o with _ | ⟨path, close⟩
  · exact .pure rfl
  · exact .pure (congrArg some (reference_shift S.place path directive close))

/-! ### Bodies and blocks -/

/-- A directive that is not read. -/
lemma skipped_mirrors (problem : Problem) (start : Position) : Reading.Mirrors S
    (do record problem start; skipDirective; return none : Reading (Option Node))
    (do record problem (S.place.shift start); skipDirective; return none)
    (Option.map (·.shift S.place)) :=
  .bind (record_mirrors _ _) fun _ => .bind skipDirective_mirrors fun _ => .pure rfl

/-- Bodies and blocks do the same in parses that are alike. -/
structure BodiesMirror (S : Setting) (n : Nat) : Prop where
  nodes (open_ : List Block) :
    (nodes n open_).Mirrors S (nodes n open_) (Node.shiftAll S.place)
  partBlock (open_ : List Block) :
    (partBlock n open_).Mirrors S (partBlock n open_) (Option.map (·.shift S.place))
  ifBlock (open_ : List Block) :
    (ifBlock n open_).Mirrors S (ifBlock n open_) (Option.map (·.shift S.place))
  branch (open_ : List Block) :
    (branch n open_).Mirrors S (branch n open_) (Option.map (·.shift S.place))
  otherwise (open_ : List Block) :
    (otherwise n open_).Mirrors S (otherwise n open_) (Option.map (Node.shiftAll S.place))
  strayBranches (open_ : List Block) :
    (strayBranches n open_).Mirrors S (strayBranches n open_) fun b => b

/-- The end of a block, which makes a node of what was read in it. -/
lemma blockEnd_mirrors {names : List String} {problem : Problem} {start : Position}
    {f e : Token → Option Node} (hf : ∀ t, e (t.shift S.place) = (f t).map (·.shift S.place)) :
    (do
      if ← isAtDirective names then
        let close ← advance
        return f close
      else
        record problem start
        return none : Reading (Option Node)).Mirrors S (do
      if ← isAtDirective names then
        let close ← advance
        return e close
      else
        record problem (S.place.shift start)
        return none) (Option.map (·.shift S.place)) := by
  refine .bind (isAtDirective_mirrors names) fun _ => .ite Iff.rfl ?_ ?_
  · exact .bind advance_mirrors fun t => .pure (hf t)
  · exact .bind (record_mirrors _ _) fun _ => .pure rfl

section

variable {n : Nat} (ih : BodiesMirror S n) (open_ : List Block)

include ih

lemma item_mirrors (t : Token) : (item n open_ t).Mirrors S (item n open_ (t.shift S.place))
    (Option.map (·.shift S.place)) := by
  unfold item
  rw [Token.shift_kind]
  cases t.kind
  case text =>
    refine .bind advance_mirrors fun _ => .pure ?_
    rw [Token.shift_span]
    rfl
  case slotOpen => exact slot_mirrors
  case operator => exact contextNode_mirrors
  case error =>
    refine .bind advance_mirrors fun u => ?_
    exact .bind (recordToken_mirrors u) fun _ => .pure rfl
  case directive =>
    refine .ite Iff.rfl (skipped_mirrors _ _) (.ite Iff.rfl (ih.ifBlock _) ?_)
    refine .ite Iff.rfl (ih.partBlock _) (.ite Iff.rfl reference_mirrors ?_)
    exact skipped_mirrors _ _
  all_goals
    exact .bind (record_mirrors (.strayToken t.lexeme) t.start) fun _ =>
      .bind advance_mirrors fun _ => .pure rfl

lemma nodes_mirrors_succ :
    (nodes (n + 1) open_).Mirrors S (nodes (n + 1) open_) (Node.shiftAll S.place) := by
  rw [nodes_succ]
  refine .bind current_mirrors fun t => .ite Iff.rfl (.pure rfl) ?_
  refine .bind (item_mirrors ih open_ t) fun node => .bind (ih.nodes open_) fun ns => .pure ?_
  cases node <;> rfl

lemma partBlock_mirrors_succ : (partBlock (n + 1) open_).Mirrors S (partBlock (n + 1) open_)
    (Option.map (·.shift S.place)) := by
  unfold partBlock
  refine .bind advance_mirrors fun directive => ?_
  refine .bind (orSkipTo_mirrors (by decide) (directiveArgument_mirrors directive)) fun name => ?_
  refine .bind (ih.nodes _) fun children => blockEnd_mirrors fun close => ?_
  rw [Span.shift_mk]
  cases name <;> rfl

lemma ifBlock_mirrors_succ : (ifBlock (n + 1) open_).Mirrors S (ifBlock (n + 1) open_)
    (Option.map (·.shift S.place)) := by
  unfold ifBlock
  refine .bind current_mirrors fun directive => .bind (ih.branch _) fun node => ?_
  refine .bind (ih.strayBranches _) fun stray => blockEnd_mirrors fun close => ?_
  rw [Span.shift_mk]
  cases stray <;> cases node <;> simp [Node.withSpan_shift]

lemma branch_mirrors_succ : (branch (n + 1) open_).Mirrors S (branch (n + 1) open_)
    (Option.map (·.shift S.place)) := by
  unfold branch
  refine .bind advance_mirrors fun directive => ?_
  refine .bind (directiveCondition_mirrors directive) fun condition => ?_
  refine .bind (ih.nodes _) fun thenBranch => ?_
  have hempty : (Node.shiftAll S.place thenBranch).isEmpty = thenBranch.isEmpty := by
    cases thenBranch <;> rfl
  have hconditional (e : Option (List Node)) (s : Span) :
      conditional? (condition.map (·.shift S.place)) (Node.shiftAll S.place thenBranch)
        (e.map (Node.shiftAll S.place)) (s.shift S.place) =
        (conditional? condition thenBranch e s).map (·.shift S.place) := by
    cases condition <;> cases e <;> cases thenBranch <;> rfl
  have rest : Reading.Mirrors S (do
      let elseBranch ← otherwise n open_
      return conditional? condition thenBranch elseBranch
        ⟨directive.start, (← previous).stop⟩ : Reading (Option Node)) (do
      let elseBranch ← otherwise n open_
      return conditional? (condition.map (·.shift S.place)) (Node.shiftAll S.place thenBranch)
        elseBranch ⟨(directive.shift S.place).start, (← previous).stop⟩)
      (Option.map (·.shift S.place)) := by
    refine .bind (ih.otherwise _) fun elseBranch => .bind previous_mirrors fun last => .pure ?_
    rw [Span.shift_mk, hconditional]
  refine .ite (by rw [hempty]) ?_ rest
  exact .bind (record_mirrors (.emptyBody (describe directive)) directive.start) fun _ => rest

lemma otherwise_mirrors_succ : (otherwise (n + 1) open_).Mirrors S (otherwise (n + 1) open_)
    (Option.map (Node.shiftAll S.place)) := by
  unfold otherwise
  refine .bind (isAtDirective_mirrors _) fun _ => .ite Iff.rfl ?_ ?_
  · exact .bind (ih.branch _) fun node => .pure (by cases node <;> rfl)
  refine .bind (isAtDirective_mirrors _) fun _ => .ite Iff.rfl ?_ (.pure rfl)
  exact .bind advance_mirrors fun _ => .bind (ih.nodes _) fun _ => .pure rfl

lemma strayBranches_mirrors_succ :
    (strayBranches (n + 1) open_).Mirrors S (strayBranches (n + 1) open_) fun b => b := by
  unfold strayBranches
  refine .bind (isAtDirective_mirrors _) fun _ => .ite Iff.rfl ?_ (.pure rfl)
  refine .bind current_mirrors fun t => .bind (record_mirrors (.afterElse (describe t)) t.start)
    fun _ => .bind skipDirective_mirrors fun _ => ?_
  exact .bind (ih.nodes _) fun _ => .bind (ih.strayBranches _) fun _ => .pure rfl

end

lemma bodiesMirror (S : Setting) (n : Nat) : BodiesMirror S n := by
  induction n with
  | zero => exact ⟨fun _ => .pure rfl, fun _ => .pure rfl, fun _ => .pure rfl, fun _ => .pure rfl,
      fun _ => .pure rfl, fun _ => .pure rfl⟩
  | succ n ih => exact ⟨nodes_mirrors_succ ih, partBlock_mirrors_succ ih, ifBlock_mirrors_succ ih,
      branch_mirrors_succ ih, otherwise_mirrors_succ ih, strayBranches_mirrors_succ ih⟩

end Stencil.Template
