import Stencil.Source.Scan

/-!
All tokens of a source. The scanning machine stops because every step either takes a character
or leads to a shallower mode (`load_step_lt`).
-/

namespace Stencil.Source

/-- What a machine still has before it: a character counts more than any depth of mode. -/
def load (mode : Mode) (c : Cursor) : Nat := 3 * c.rest.length + mode.depth

theorem Mode.depth_le (m : Mode) : m.depth ≤ 2 := by cases m <;> simp [depth]

theorem Mode.depth_around_le (i : Option Token) : (Mode.around i).depth ≤ 1 := by
  cases i <;> simp [around, depth]

theorem Cursor.length_after (c : Cursor) (w : List Char) :
    (c.after w).rest.length = c.rest.length - w.length := by simp [after]

theorem Cursor.length_skipBlanks_le (c : Cursor) :
    c.skipBlanks.rest.length ≤ c.rest.length := by simp [skipBlanks, length_after]

theorem digitRun?_length {ds rest w : List Char} (h : digitRun? ds rest = some w) :
    0 < w.length := by
  unfold digitRun? at h
  cases ds with
  | nil => simp at h
  | cons d ds => grind

theorem unsignedNumber?_length {cs w : List Char} (h : unsignedNumber? cs = some w) :
    0 < w.length := by
  unfold unsignedNumber? at h
  have := @digitRun?_length
  grind

theorem number?_length {cs w : List Char} (h : number? cs = some w) : 0 < w.length := by
  unfold number? at h
  split at h
  · obtain ⟨v, _, rfl⟩ := Option.map_eq_some_iff.1 h
    simp
  · exact unsignedNumber?_length h

theorem identifier?_length {cs w : List Char} (h : identifier? cs = some w) : 0 < w.length := by
  unfold identifier? at h
  grind

theorem pathWord?_length {cs w : List Char} (h : pathWord? cs = some w) : 0 < w.length := by
  unfold pathWord? at h
  grind

theorem operator?_length {cs w : List Char} (h : operator? cs = some w) : 0 < w.length := by
  unfold operator? at h
  grind

theorem plainRun_length {cs : List Char} (hc : cs ≠ []) (h : opening? cs = none) :
    0 < (plainRun cs).length := by
  cases cs with
  | nil => exact absurd rfl hc
  | cons c cs => simp [plainRun, h]

theorem directiveHead_length {cs : List Char} (h : beginsDirective cs = true) :
    0 < (directiveHead cs).length := by
  unfold beginsDirective at h
  split at h
  · simp [directiveHead]
  · simp at h

theorem beginsDirective_of_opening? {cs : List Char} (h : opening? cs = some .directive) :
    beginsDirective cs = true := by
  unfold opening? at h
  grind

theorem closer_length_of_opening? {cs : List Char} {lexeme value : String}
    (h : opening? cs = some (.closer lexeme value)) : 0 < lexeme.toList.length := by
  have : lexeme = "[ELSE]" ∨ lexeme = "[END IF]" ∨ lexeme = "[END SECTION]" := by
    unfold opening? at h
    grind
  rcases this with rfl | rfl | rfl <;> decide

/-- Taking a character where there is one makes the load smaller in any mode. -/
theorem load_after_lt {c : Cursor} {w : List Char} (hc : 0 < c.rest.length) (hw : 0 < w.length)
    (m : Mode) : load m (c.after w) < 3 * c.rest.length := by
  have := m.depth_le
  have := c.length_after w
  unfold load
  omega

theorem load_around_lt (i : Option Token) (c : Cursor) :
    load (.around i) c < 3 * c.rest.length + 2 := by
  have := Mode.depth_around_le i
  unfold load
  omega

theorem load_argumentStep_lt (before : List Token) {paren : Cursor} (i : Option Token)
    (h : 0 < paren.rest.length) :
    load (argumentStep before paren i).mode (argumentStep before paren i).cursor <
      3 * paren.rest.length := by
  have h1 := paren.length_after ['(']
  have h2 := (paren.after ['(']).length_skipBlanks_le
  simp only [List.length_cons, List.length_nil] at h1
  have key : ∀ (m : Mode) (c : Cursor), c.rest.length ≤ paren.rest.length - 1 →
      load m c < 3 * paren.rest.length := by
    intro m c hc
    have := m.depth_le
    unfold load
    omega
  unfold argumentStep
  dsimp only
  split
  · exact key _ _ (by dsimp only; omega)
  · exact key _ _ (by dsimp only; omega)
  · split <;> refine key _ _ ?_ <;> simp only [Cursor.length_after] at * <;> omega

theorem load_operatorStep_lt {c : Cursor} (i : Option Token) {w : List Char}
    (hc : 0 < c.rest.length) (hw : 0 < w.length) :
    load (operatorStep c i w).mode (operatorStep c i w).cursor < 3 * c.rest.length := by
  unfold operatorStep
  dsimp only
  split
  · rename_i rest hp
    have h := c.length_after w
    have := load_argumentStep_lt [c.token .operator w (some (w.drop 1)),
      (c.after w).token .leftParen ['(']] i (show 0 < (c.after w).rest.length by rw [hp]; simp)
    omega
  · exact load_after_lt hc hw _

theorem load_literalStep_lt {c : Cursor} (m e : Mode) (q : Char) (cs : List Char)
    (hc : 0 < c.rest.length) :
    load (literalStep c m e q cs).mode (literalStep c m e q cs).cursor < 3 * c.rest.length := by
  unfold literalStep
  dsimp only
  split
  · exact load_after_lt hc (by simp) _
  · exact load_after_lt hc (by simp) _

theorem load_textStep_lt {c : Cursor} (hc : c.rest ≠ []) :
    load (textStep c).mode (textStep c).cursor < 3 * c.rest.length := by
  have h0 : 0 < c.rest.length := List.length_pos_iff.2 hc
  unfold textStep
  split
  · exact load_after_lt h0 (plainRun_length hc (by assumption)) _
  · exact load_after_lt h0 (by simp) _
  · exact load_after_lt h0 (directiveHead_length (beginsDirective_of_opening? (by assumption))) _
  · exact load_after_lt h0 (by decide) _
  · exact load_after_lt h0 (closer_length_of_opening? (by assumption)) _
  · exact load_operatorStep_lt none h0 (by decide)

theorem load_slotStep_lt (t : Token) (i : Option Token) (c : Cursor) :
    load (slotStep t i c).mode (slotStep t i c).cursor < 3 * c.rest.length + 2 := by
  unfold slotStep
  dsimp only
  split
  · exact load_around_lt _ _
  · rename_i ch cs h
    have h0 : 0 < c.rest.length := by simp [h]
    have take : ∀ (m : Mode) (w : List Char), 0 < w.length →
        load m (c.after w) < 3 * c.rest.length + 2 := fun m w hw =>
      Nat.lt_of_lt_of_le (load_after_lt h0 hw m) (Nat.le_add_right _ _)
    split
    · exact take _ _ (by simp)
    split
    · exact load_around_lt _ _
    split
    · exact take _ _ (by simp)
    split
    · exact take _ _ (by simp)
    split
    · have := load_literalStep_lt (.slot t i) (.slot t i) ch cs h0
      omega
    split
    · exact take _ _ (number?_length (by assumption))
    split
    · exact take _ _ (identifier?_length (by assumption))
    · exact take _ _ (by simp)

theorem load_directiveStep_lt (t : Token) (c : Cursor) :
    load (directiveStep t c).mode (directiveStep t c).cursor < 3 * c.rest.length + 1 := by
  have plain : load .text c < 3 * c.rest.length + 1 := by simp [load, Mode.depth]
  unfold directiveStep
  dsimp only
  split
  · exact plain
  · rename_i ch cs h
    have h0 : 0 < c.rest.length := by simp [h]
    have take : ∀ (m : Mode) (w : List Char), 0 < w.length →
        load m (c.after w) < 3 * c.rest.length + 1 := fun m w hw =>
      Nat.lt_of_lt_of_le (load_after_lt h0 hw m) (Nat.le_add_right _ _)
    split
    · exact plain
    split
    · exact take _ _ (by simp)
    split
    · exact take _ _ (by simp)
    split
    · split
      · have := load_operatorStep_lt (some t) h0 (operator?_length (by assumption))
        omega
      · exact take _ _ (by simp)
    split
    · exact take _ _ (by simp)
    split
    · have := load_literalStep_lt (.directive t) (.directive t) ch cs h0
      omega
    split
    · exact take _ _ (number?_length (by assumption))
    split
    · exact take _ _ (identifier?_length (by assumption))
    split
    · exact take _ _ (pathWord?_length (by assumption))
    · exact take _ _ (by simp)

theorem load_quotedStep_lt (t : Token) (i : Option Token) (c : Cursor) :
    load (quotedStep t i c).mode (quotedStep t i c).cursor < 3 * c.rest.length + 2 := by
  unfold quotedStep
  dsimp only
  split
  · exact load_around_lt _ _
  · rename_i ch cs h
    have h0 : 0 < c.rest.length := by simp [h]
    have take : ∀ (m : Mode) (w : List Char), 0 < w.length →
        load m (c.after w) < 3 * c.rest.length + 2 := fun m w hw =>
      Nat.lt_of_lt_of_le (load_after_lt h0 hw m) (Nat.le_add_right _ _)
    split
    · exact take _ _ (by simp)
    split
    · exact take _ _ (by simp)
    split
    · have := load_literalStep_lt (.quoted t i) (.around i) ch cs h0
      omega
    · exact load_around_lt _ _

/-- The machine has stopped. -/
def finished (mode : Mode) (c : Cursor) : Bool :=
  match mode with
  | .text => c.rest.isEmpty
  | _ => false

theorem load_step_lt {mode : Mode} {c : Cursor} (h : finished mode c = false) :
    load (step mode c).mode (step mode c).cursor < load mode c := by
  have hb := c.length_skipBlanks_le
  cases mode with
  | text =>
    have := load_textStep_lt (c := c) (by simpa [finished] using h)
    simpa only [load, Mode.depth, step, Nat.add_zero] using this
  | directive t =>
    have := load_directiveStep_lt t c.skipBlanks
    simp only [load, Mode.depth, step] at *
    omega
  | slot t i =>
    have := load_slotStep_lt t i c.skipBlanks
    simp only [load, Mode.depth, step] at *
    omega
  | quoted t i =>
    have := load_quotedStep_lt t i c.skipBlanks
    simp only [load, Mode.depth, step] at *
    omega

/-- The tokens from a mode and a place on, closed by the one that marks the end. -/
def scan (mode : Mode) (c : Cursor) : List Token :=
  if _h : finished mode c = true then [⟨.endOfInput, "", c.pos, none⟩]
  else
    let s := step mode c
    s.tokens ++ scan s.mode s.cursor
termination_by load mode c
decreasing_by exact load_step_lt (by simpa using _h)

end Source

/-- The tokens of a source. -/
def tokenize (source : String) : List Token :=
  Source.scan .text ⟨.origin, source.toList⟩

end Stencil
