import Mathlib.Tactic.Common
import Stencil.Proofs.Source.Tokens

/-!
A source behind another text: where its places come to be, and that its tokens are the same but
for these places.

The scanning machine looks at the characters ahead and never at where they stand, so each of its
steps commutes with moving the cursor. The errors that a mode keeps for later move with it.
-/

namespace Stencil

namespace Position

/-- The place `p` of a source when a text that ends at `q` is put in front of it. On the first
line, where the column counts all characters before it, a place also moves sideways. -/
def shift (q p : Position) : Position :=
  ⟨q.offset + p.offset, q.line - 1 + p.line,
    if p.column = p.offset + 1 then q.column - 1 + p.column else p.column⟩

variable {q p : Position}

lemma shift_next (q p : Position) (c : Char) : q.shift (p.next c) = (q.shift p).next c := by
  unfold next
  split
  · simp [shift]
    omega
  · unfold shift
    split <;> simp_all <;> omega

lemma shift_advance (q p : Position) (cs : List Char) :
    q.shift (p.advance cs) = (q.shift p).advance cs := by
  induction cs generalizing p with
  | nil => rfl
  | cons c cs ih => exact (ih (p.next c)).trans (by rw [shift_next]; rfl)

lemma origin_shift (p : Position) : origin.shift p = p := by
  simp [shift, origin]

/-- Lines and columns are counted from one. -/
def Counted (p : Position) : Prop := 0 < p.line ∧ 0 < p.column

lemma Counted.advance (h : p.Counted) (cs : List Char) : (p.advance cs).Counted := by
  induction cs generalizing p with
  | nil => exact h
  | cons c cs ih =>
    refine ih ?_
    unfold next
    split
    · exact ⟨Nat.succ_pos _, Nat.one_pos⟩
    · exact ⟨h.1, Nat.succ_pos _⟩

lemma Counted.shift_origin (h : q.Counted) : q.shift origin = q := by
  obtain ⟨hl, hc⟩ := h
  simp only [shift, origin, Nat.add_zero, Nat.zero_add, if_true]
  rw [Nat.sub_add_cancel hl, Nat.sub_add_cancel hc]

/-- The place behind some characters of a source is moved to the place behind the text in front
and these characters. -/
lemma shift_advance_origin (w u : List Char) :
    (origin.advance w).shift (origin.advance u) = origin.advance (w ++ u) := by
  have h : origin.Counted := ⟨Nat.one_pos, Nat.one_pos⟩
  rw [shift_advance, (h.advance w).shift_origin, ← advance_append]

/-- A place of a source has all characters before it in its column exactly on the first line. -/
lemma column_advance_origin (u : List Char) :
    (origin.advance u).column = (origin.advance u).offset + 1 ↔ (origin.advance u).line = 1 := by
  have key (p : Position) (h : p.column ≤ p.offset + 1 ∧ 0 < p.line ∧
      (p.column = p.offset + 1 ↔ p.line = 1)) :
      (p.advance u).column ≤ (p.advance u).offset + 1 ∧ 0 < (p.advance u).line ∧
        ((p.advance u).column = (p.advance u).offset + 1 ↔ (p.advance u).line = 1) := by
    induction u generalizing p with
    | nil => exact h
    | cons c u ih =>
      refine ih (p.next c) ?_
      unfold next
      split <;> simp only <;> omega
  exact (key origin (by simp [origin])).2.2

end Position

/-- The token behind a text that ends at `q`. -/
def Token.shift (q : Position) (t : Token) : Token := { t with start := q.shift t.start }

namespace Token

variable (q : Position) (t : Token)

@[simp] lemma shift_kind : (t.shift q).kind = t.kind := rfl
@[simp] lemma shift_lexeme : (t.shift q).lexeme = t.lexeme := rfl
@[simp] lemma shift_text : (t.shift q).text = t.text := rfl
@[simp] lemma shift_value : (t.shift q).value = t.value := rfl
@[simp] lemma shift_start : (t.shift q).start = q.shift t.start := rfl

@[simp] lemma shift_stop : (t.shift q).stop = q.shift t.stop :=
  (Position.shift_advance q t.start t.lexeme.toList).symm

lemma origin_shift : t.shift .origin = t := by rw [shift, Position.origin_shift]

end Token

namespace Source

variable {q : Position}

/-! ### Moving the machine -/

def Cursor.shift (q : Position) (c : Cursor) : Cursor := ⟨q.shift c.pos, c.rest⟩

def Mode.shift (q : Position) : Mode → Mode
  | .text => .text
  | .directive t => .directive (t.shift q)
  | .slot t inside => .slot (t.shift q) (inside.map (·.shift q))
  | .quoted t inside => .quoted (t.shift q) (inside.map (·.shift q))

def Step.shift (q : Position) (s : Step) : Step :=
  ⟨s.tokens.map (·.shift q), s.mode.shift q, s.cursor.shift q⟩

lemma Cursor.shift_after (c : Cursor) (w : List Char) :
    (c.shift q).after w = (c.after w).shift q := by
  simp only [after, shift, Position.shift_advance]

lemma Cursor.shift_skipBlanks (c : Cursor) : (c.shift q).skipBlanks = c.skipBlanks.shift q :=
  c.shift_after _

lemma Cursor.shift_token (c : Cursor) (kind : TokenKind) (w : List Char)
    (value : Option (List Char)) :
    (c.shift q).token kind w value = (c.token kind w value).shift q := rfl

lemma Mode.shift_around (i : Option Token) :
    Mode.around (i.map (·.shift q)) = (Mode.around i).shift q := by
  cases i <;> rfl

lemma Step.shift_one (c : Cursor) (m : Mode) (kind : TokenKind) (w : List Char)
    (value : Option (List Char)) :
    Step.one (c.shift q) (m.shift q) kind w value = (Step.one c m kind w value).shift q := by
  simp only [Step.one, Step.shift, Cursor.shift_after, List.map_cons, List.map_nil]
  rfl

lemma Step.shift_reject (c : Cursor) (m : Mode) (ch : Char) (message : String) :
    Step.reject (c.shift q) (m.shift q) ch message = (Step.reject c m ch message).shift q := by
  simp only [Step.reject, Step.shift, Cursor.shift_after, List.map_cons, List.map_nil]
  rfl

lemma shift_literalStep (c : Cursor) (m e : Mode) (quote : Char) (cs : List Char) :
    literalStep (c.shift q) (m.shift q) (e.shift q) quote cs =
      (literalStep c m e quote cs).shift q := by
  unfold literalStep
  dsimp only
  split
  · exact Step.shift_one c m _ _ _
  · simp only [Step.shift, Cursor.shift_after, List.map_cons, List.map_nil]
    rfl

lemma shift_argumentStep (before : List Token) (paren : Cursor) (i : Option Token) :
    argumentStep (before.map (·.shift q)) (paren.shift q) (i.map (·.shift q)) =
      (argumentStep before paren i).shift q := by
  unfold argumentStep
  simp only [Cursor.shift_after, Cursor.shift_skipBlanks, Mode.shift_around]
  generalize (paren.after ['(']).skipBlanks = c
  have hrest (d : Cursor) : (d.shift q).rest = d.rest := rfl
  simp only [hrest]
  split
  · rfl
  · rfl
  · split
    · split <;> simp [Step.shift, Cursor.shift_token]
    · simp [Step.shift]
      rfl

lemma shift_operatorStep (c : Cursor) (i : Option Token) (w : List Char) :
    operatorStep (c.shift q) (i.map (·.shift q)) w = (operatorStep c i w).shift q := by
  unfold operatorStep
  simp only [Cursor.shift_after, Mode.shift_around]
  generalize c.after w = next
  have hrest : (next.shift q).rest = next.rest := rfl
  simp only [hrest]
  split
  · exact shift_argumentStep [c.token .operator w (some (w.drop 1)),
      next.token .leftParen ['(']] next i
  · rfl

lemma shift_textStep (c : Cursor) : textStep (c.shift q) = (textStep c).shift q := by
  unfold textStep
  have hrest : (c.shift q).rest = c.rest := rfl
  simp only [hrest]
  split
  · exact Step.shift_one c .text _ _ _
  · exact Step.shift_one c (.slot (unclosedSlot c) none) _ _ _
  · exact Step.shift_one c (.directive (unclosedDirective c)) _ _ _
  · exact Step.shift_one c (.directive (unclosedDirective c)) _ _ _
  · exact Step.shift_one c .text _ _ _
  · exact shift_operatorStep c none _

lemma shift_slotStep (t : Token) (i : Option Token) (c : Cursor) :
    slotStep (t.shift q) (i.map (·.shift q)) (c.shift q) = (slotStep t i c).shift q := by
  have one := @Step.shift_one q c (.slot t i)
  unfold slotStep
  simp only [Mode.shift_around]
  have hrest : (c.shift q).rest = c.rest := rfl
  simp only [hrest]
  split
  · rfl
  split
  · exact Step.shift_one c (.around i) _ _ _
  split
  · rfl
  split
  · exact one _ _ _
  split
  · exact one _ _ _
  split
  · exact shift_literalStep c (.slot t i) (.slot t i) _ _
  split
  · exact one _ _ _
  split
  · exact one _ _ _
  · exact Step.shift_reject c (.slot t i) _ _

lemma shift_directiveStep (t : Token) (c : Cursor) :
    directiveStep (t.shift q) (c.shift q) = (directiveStep t c).shift q := by
  have one := @Step.shift_one q c (.directive t)
  unfold directiveStep
  have hrest : (c.shift q).rest = c.rest := rfl
  simp only [hrest]
  split
  · rfl
  split
  · rfl
  split
  · exact Step.shift_one c .text _ _ _
  split
  · exact Step.shift_one c (.slot (unclosedSlot c) (some t)) _ _ _
  split
  · split
    · exact shift_operatorStep c (some t) _
    · exact Step.shift_reject c (.directive t) _ _
  split
  · exact one _ _ _
  split
  · exact shift_literalStep c (.directive t) (.directive t) _ _
  split
  · exact one _ _ _
  split
  · exact one _ _ _
  split
  · exact one _ _ _
  · exact Step.shift_reject c (.directive t) _ _

lemma shift_quotedStep (t : Token) (i : Option Token) (c : Cursor) :
    quotedStep (t.shift q) (i.map (·.shift q)) (c.shift q) = (quotedStep t i c).shift q := by
  unfold quotedStep
  simp only [Mode.shift_around]
  have hrest : (c.shift q).rest = c.rest := rfl
  simp only [hrest]
  split
  · rfl
  split
  · exact Step.shift_one c (.around i) _ _ _
  split
  · exact Step.shift_one c (.quoted t i) _ _ _
  split
  · exact shift_literalStep c (.quoted t i) (.around i) _ _
  · rfl

/-- A step from a place moved finds what the step finds, moved. -/
lemma shift_step (m : Mode) (c : Cursor) : step (m.shift q) (c.shift q) = (step m c).shift q := by
  cases m with
  | text => exact shift_textStep c
  | directive t =>
    simp only [Mode.shift, step, Cursor.shift_skipBlanks]
    exact shift_directiveStep t _
  | slot t i =>
    simp only [Mode.shift, step, Cursor.shift_skipBlanks]
    exact shift_slotStep t i _
  | quoted t i =>
    simp only [Mode.shift, step, Cursor.shift_skipBlanks]
    exact shift_quotedStep t i _

lemma shift_finished (m : Mode) (c : Cursor) :
    finished (m.shift q) (c.shift q) = finished m c := by
  cases m <;> rfl

/-- The tokens from a place moved are the tokens, moved. -/
lemma shift_scan (m : Mode) (c : Cursor) :
    scan (m.shift q) (c.shift q) = (scan m c).map (·.shift q) := by
  induction m, c using scan.induct with
  | case1 m c h =>
    rw [scan_finished h, scan_finished (by rw [shift_finished, h])]
    rfl
  | case2 m c h s ih =>
    have h : finished m c = false := by simpa using h
    rw [scan_unfinished h, scan_unfinished (by rw [shift_finished, h]), shift_step,
      List.map_append]
    exact congrArg _ ih

end Source

/-- **Tokens of a source behind a text** that ends at `q`: those of the source, moved. -/
theorem scan_behind {q : Position} (h : q.Counted) (source : String) :
    Source.scan .text ⟨q, source.toList⟩ = (tokenize source).map (·.shift q) := by
  have hs := Source.shift_scan (q := q) .text ⟨.origin, source.toList⟩
  unfold Source.Cursor.shift at hs
  rwa [h.shift_origin] at hs

end Stencil
