import Mathlib.Data.List.TakeWhile
import Stencil.Proofs.Source.Boundary

/-!
What the tokens of a source say about the scanning machine that found them.

Each token tells by its kind where the machine goes on, so that the stages of a scan can be
followed from its tokens alone (`Stage.after`). In plain text the next token starts right where the
last one ended; blanks are left out inside constructs only. A token's value is in keeping with its
kind: an identifier is not empty, an operator has a name, an error has a description.
-/

namespace Stencil

/-- The value of a token is in keeping with its kind. -/
structure Token.Worded (t : Token) : Prop where
  identifier : t.kind = .identifier → t.text ≠ ""
  operator : t.kind = .operator → Source.IsWord t.text
  error : t.kind = .error → t.value.isSome = true

namespace Source

variable {m mode : Mode} {c : Cursor} {t : Token} {i : Option Token} {w : List Char}

/-! ### Stages -/

/-- Where a scan is while it has found no error: in plain text at a place, inside a slot or the
arguments of a context reference in plain text, anywhere inside a directive, or at the end. -/
inductive Stage where
  | text (place : Position)
  | construct
  | directive
  | ended
deriving DecidableEq

namespace Stage

/-- The stage behind a token, if the token may come at this stage. -/
def after : Stage → Token → Option Stage
  | text place, t =>
    if t.start = place then
      match t.kind with
      | .text => some (text t.stop)
      | .slotOpen | .operator => some construct
      | .directive => some (if Text.endsWith "]" t.lexeme then text t.stop else directive)
      | .endOfInput => some ended
      | _ => none
    else none
  | construct, t =>
    match t.kind with
    | .slotClose | .rightParen => some (text t.stop)
    | .identifier | .string | .number | .argument | .leftParen | .comma | .colon
    | .defaultMark => some construct
    | _ => none
  | directive, t =>
    match t.kind with
    | .directiveClose => some (text t.stop)
    | .text | .directive | .error | .endOfInput => none
    | _ => some directive
  | ended, _ => none

/-- The stage behind some tokens, if they may come one behind the other. -/
def run (s : Stage) (ts : List Token) : Option Stage := ts.foldlM after s

@[simp] lemma run_nil (s : Stage) : s.run [] = some s := rfl

@[simp] lemma run_cons (s : Stage) (t : Token) (ts : List Token) :
    s.run (t :: ts) = (s.after t).bind (·.run ts) := rfl

lemma run_append (s : Stage) (ts us : List Token) :
    s.run (ts ++ us) = (s.run ts).bind (·.run us) := List.foldlM_append

/-- Inside a construct that is in a directive or in plain text. -/
def inside : Option Token → Stage
  | none => construct
  | some _ => directive

/-- The kinds of token that may come inside a construct wherever it is, and leave it open. -/
def staysInside : TokenKind → Bool
  | .identifier | .string | .number | .argument | .leftParen | .comma | .colon
  | .defaultMark => true
  | _ => false

lemma after_of_staysInside (h : staysInside t.kind = true) (i : Option Token) :
    (inside i).after t = some (inside i) := by
  cases i <;> cases hk : t.kind <;> simp_all [inside, after, staysInside]

lemma after_bracket (h : t.kind = .directiveClose) :
    directive.after t = some (text t.stop) := by
  simp [after, h]

section

variable {p : Position} (hp : t.start = p)

include hp

lemma after_text (h : t.kind = .text) : (text p).after t = some (text t.stop) := by
  simp [after, hp, h]

lemma after_opening (h : t.kind = .slotOpen ∨ t.kind = .operator) :
    (text p).after t = some construct := by
  rcases h with h | h <;> simp [after, hp, h]

lemma after_head (h : t.kind = .directive) (hl : Text.endsWith "]" t.lexeme = false) :
    (text p).after t = some directive := by
  simp [after, hp, h, hl]

lemma after_whole (h : t.kind = .directive) (hl : Text.endsWith "]" t.lexeme = true) :
    (text p).after t = some (text t.stop) := by
  simp [after, hp, h, hl]

end

/-! ### What a run tells of its tokens -/

section

variable {s s' : Stage} {ts us : List Token} {a b : Position}

lemma run_cons_eq_some :
    s.run (t :: ts) = some s' ↔ ∃ s₁, s.after t = some s₁ ∧ s₁.run ts = some s' := by
  rw [run_cons, Option.bind_eq_some_iff]

lemma run_append_eq_some :
    s.run (ts ++ us) = some s' ↔ ∃ s₁, s.run ts = some s₁ ∧ s₁.run us = some s' := by
  rw [run_append, Option.bind_eq_some_iff]

/-- Only a bracket leads out of a directive. -/
lemma run_directive (hts : ∀ t ∈ ts, t.kind ≠ .directiveClose)
    (h : directive.run ts = some s) : s = directive := by
  induction ts with
  | nil => exact (Option.some.inj h).symm
  | cons t ts ih =>
    obtain ⟨ht, hts⟩ := List.forall_mem_cons.mp hts
    obtain ⟨s₁, hafter, hrun⟩ := run_cons_eq_some.mp h
    obtain rfl : s₁ = directive := by cases hk : t.kind <;> simp_all [after]
    exact ih hts hrun

lemma after_directive_of_kind (hk : t.kind = .directive ∨ t.kind = .text ∨ t.kind = .endOfInput) :
    directive.after t = none := by
  rcases hk with hk | hk | hk <;> simp [after, hk]

/-- Inside a construct in plain text. -/
lemma run_construct (hts : ∀ t ∈ ts, staysInside t.kind = true) :
    construct.run ts = some construct := by
  induction ts with
  | nil => rfl
  | cons t ts ih =>
    obtain ⟨ht, hts⟩ := List.forall_mem_cons.mp hts
    rw [run_cons, show construct.after t = some construct from after_of_staysInside ht none]
    exact ih hts

/-- In plain text a token starts where the last one ended. -/
lemma start_of_after (h : (text a).after t = some s) : t.start = a := by
  by_contra hne
  simp [after, hne] at h

/-- Plain text begins where the last token ended. -/
lemma stop_of_after (h : s.after t = some (text b)) : b = t.stop := by
  cases s with
  | text a =>
    have ha := start_of_after h
    cases hk : t.kind <;> simp_all [after]
    split at h <;> simp_all
  | construct => cases hk : t.kind <;> simp_all [after]
  | directive => cases hk : t.kind <;> simp_all [after]
  | ended => cases h

lemma stop_of_run (hts : ts ≠ []) (u : Token) (h : s.run ts = some (text b)) :
    b = (ts.getLastD u).stop := by
  induction ts generalizing s u with
  | nil => exact absurd rfl hts
  | cons t ts ih =>
    obtain ⟨s₁, hafter, hrun⟩ := run_cons_eq_some.mp h
    rw [List.getLastD_cons]
    rcases ts with _ | ⟨t', ts⟩
    · obtain rfl := Option.some.inj hrun
      exact stop_of_after hafter
    · exact ih (List.cons_ne_nil _ _) t hrun

/-- A directive in plain text is closed by its own bracket or still open. -/
lemma of_after_directive (hk : t.kind = .directive) (h : (text a).after t = some s) :
    t.start = a ∧ (s = directive ∨ s = text t.stop) := by
  have ha := start_of_after h
  refine ⟨ha, ?_⟩
  simp only [after, ha, hk, if_true] at h
  split at h
  · exact .inr (Option.some.inj h).symm
  · exact .inl (Option.some.inj h).symm

/-- What stands between a directive and a bracket, both included, leads back to plain text. -/
lemma of_run_head {d bracket : Token} {hs : List Token} (hb : bracket.kind = .directiveClose)
    (h : (text a).run (d :: (hs ++ [bracket])) = some s) :
    d.start = a ∧ s = text bracket.stop := by
  obtain ⟨s₁, hafter, hrun⟩ := run_cons_eq_some.mp h
  obtain ⟨s₂, hinner, hclose⟩ := run_append_eq_some.mp hrun
  obtain ⟨s₃, hbracket, hnil⟩ := run_cons_eq_some.mp hclose
  obtain rfl := Option.some.inj hnil
  refine ⟨start_of_after hafter, ?_⟩
  cases s₂ <;> simp_all [after]

end

end Stage

/-- The stage that a mode stands for, at a cursor. -/
def Mode.stage (m : Mode) (c : Cursor) : Stage :=
  match m with
  | .text => .text c.pos
  | .directive _ => .directive
  | .slot _ i | .quoted _ i => .inside i

/-! ### Steps -/

/-- An error with a description. -/
def Described (t : Token) : Prop := t.kind = .error ∧ t.value.isSome = true

lemma Described.worded (h : Described t) : t.Worded :=
  ⟨fun hk => by simp [h.1] at hk, fun hk => by simp [h.1] at hk, fun _ => h.2⟩

lemma Cursor.described (c : Cursor) (w : List Char) (message : String) :
    Described (c.fault w message) := ⟨rfl, rfl⟩

/-- What a mode reports if it is never closed are errors with a description. -/
def Mode.Describes : Mode → Prop
  | .text => True
  | .directive t => Described t
  | .slot t i | .quoted t i => Described t ∧ ∀ u ∈ i, Described u

lemma Mode.stage_around (i : Option Token) (c : Cursor) :
    (Mode.around i).stage c = if i.isSome then .directive else .text c.pos := by
  cases i <;> rfl

lemma Mode.describes_around (h : ∀ u ∈ i, Described u) : (Mode.around i).Describes := by
  cases i with
  | none => trivial
  | some t => exact h t rfl

/-- The tokens of a step from `m` at `c` are worded, and unless one of them is an error they lead
from the stage of the step's beginning to that of its end. -/
structure Step.Tells (m : Mode) (c : Cursor) (s : Step) : Prop where
  worded : ∀ t ∈ s.tokens, t.Worded
  describes : s.mode.Describes
  stage : Clean s.tokens → (m.stage c).run s.tokens = some (s.mode.stage s.cursor)

lemma Cursor.stop_token (c : Cursor) (kind : TokenKind) (w : List Char)
    (value : Option (List Char)) : (c.token kind w value).stop = (c.after w).pos := by
  simp [Token.stop, Cursor.token, Cursor.after]

/-- Most kinds of token have values of any form. -/
lemma worded_of_kind (h₁ : t.kind ≠ .identifier) (h₂ : t.kind ≠ .operator)
    (h₃ : t.kind ≠ .error) : t.Worded :=
  ⟨fun h => absurd h h₁, fun h => absurd h h₂, fun h => absurd h h₃⟩

lemma worded_identifier (c : Cursor) (hw : 0 < w.length) :
    (c.token .identifier w (some w)).Worded where
  identifier _ := by
    have hne : w ≠ [] := List.length_pos_iff.mp hw
    simpa [Token.text, Cursor.token] using hne
  operator h := by cases h
  error h := by cases h

namespace Step.Tells

lemma one {kind : TokenKind} {value : Option (List Char)} (hm : mode.Describes)
    (hw : (c.token kind w value).Worded)
    (hs : (m.stage c).after (c.token kind w value) = some (mode.stage (c.after w))) :
    (Step.one c mode kind w value).Tells m c where
  worded := by simpa [Step.one] using hw
  describes := hm
  stage _ := by simp [Step.one, hs]

/-- One token behind which plain text goes on. -/
lemma to_text {kind : TokenKind} {value : Option (List Char)}
    (hw : (c.token kind w value).Worded)
    (hs : (m.stage c).after (c.token kind w value) = some (.text (c.token kind w value).stop)) :
    (Step.one c .text kind w value).Tells m c := by
  refine one trivial hw ?_
  rw [hs, c.stop_token]
  rfl

/-- A step that finds an error says nothing about stages. -/
lemma of_error {s : Step} (hw : ∀ u ∈ s.tokens, u.Worded) (hm : s.mode.Describes)
    (ht : t ∈ s.tokens) (he : t.kind = .error) : s.Tells m c :=
  ⟨hw, hm, fun hclean => absurd he (hclean t ht)⟩

lemma stay (ht : Described t) (hm : mode.Describes) : (Step.stay c mode t).Tells m c :=
  of_error (by simpa [Step.stay] using ht.worded) hm (List.mem_singleton_self t) ht.1

lemma reject {ch : Char} {message : String} (hm : mode.Describes) :
    (Step.reject c mode ch message).Tells m c :=
  of_error (by simpa [Step.reject] using (c.described [ch] message).worded) hm
    (List.mem_singleton_self _) rfl

lemma literal {onError : Mode} {q : Char} {cs : List Char} (hm : mode.Describes)
    (he : onError.Describes)
    (hs : ∀ w v, (m.stage c).after (c.token .string w v) = some (mode.stage (c.after w))) :
    (literalStep c mode onError q cs).Tells m c := by
  unfold literalStep
  dsimp only
  split
  · exact one hm (worded_of_kind nofun nofun nofun) (hs _ _)
  · exact of_error (by simpa using (c.described [q] _).worded) he (List.mem_singleton_self _) rfl

end Step.Tells

/-- What closes a construct leads back to the mode around it. -/
lemma after_closing {kind : TokenKind} (hk : kind = .slotClose ∨ kind = .rightParen)
    (i : Option Token) (c : Cursor) (w : List Char) :
    (Stage.inside i).after (c.token kind w) = some ((Mode.around i).stage (c.after w)) := by
  rw [Mode.stage_around, ← c.stop_token kind w none]
  rcases hk with rfl | rfl <;> cases i <;> rfl

/-- The tokens found before lead inside the parentheses. -/
lemma tells_argumentStep {before : List Token} {paren : Cursor} (hi : ∀ u ∈ i, Described u)
    (hb : ∀ u ∈ before, u.Worded) (hs : (m.stage c).run before = some (.inside i)) :
    (argumentStep before paren i).Tells m c := by
  have hunclosed : Described (unclosedArguments paren) := paren.described _ _
  have haround := Mode.describes_around hi
  unfold argumentStep
  dsimp only
  split
  · exact ⟨hb, ⟨hunclosed, hi⟩, fun _ => hs⟩
  · exact ⟨hb, ⟨hunclosed, hi⟩, fun _ => hs⟩
  split
  · refine ⟨?_, haround, fun _ => ?_⟩
    · simp only [List.forall_mem_append, List.forall_mem_singleton]
      refine ⟨⟨hb, ?_⟩, worded_of_kind nofun nofun nofun⟩
      split
      · exact nofun
      · exact List.forall_mem_singleton.mpr (worded_of_kind nofun nofun nofun)
    · rw [Stage.run_append, Stage.run_append, hs]
      split
      · simp [after_closing (.inr rfl)]
      · rw [Option.bind_some, Stage.run_cons, Stage.after_of_staysInside rfl]
        simp [after_closing (.inr rfl)]
  · refine .of_error ?_ haround (List.mem_append_right _ (List.mem_singleton_self _)) rfl
    exact List.forall_mem_append.mpr ⟨hb, List.forall_mem_singleton.mpr hunclosed.worded⟩

/-- In plain text an operator is a context reference, whose arguments follow. -/
lemma tells_operatorStep (hi : ∀ u ∈ i, Described u) (hname : IsWord (String.ofList (w.drop 1)))
    (hs : (m.stage c).after (c.token .operator w (some (w.drop 1))) = some (.inside i))
    (hp : i = none → ['('] <+: (c.after w).rest) : (operatorStep c i w).Tells m c := by
  have hworded : (c.token .operator w (some (w.drop 1))).Worded :=
    ⟨nofun, fun _ => hname, nofun⟩
  unfold operatorStep
  dsimp only
  split
  · refine tells_argumentStep hi ?_ ?_
    · exact List.forall_mem_cons.mpr ⟨hworded,
        List.forall_mem_singleton.mpr (worded_of_kind nofun nofun nofun)⟩
    · rw [Stage.run_cons, hs, Option.bind_some, Stage.run_cons, Stage.after_of_staysInside rfl]
      rfl
  · rename_i hno
    refine ⟨List.forall_mem_singleton.mpr hworded, Mode.describes_around hi, fun _ => ?_⟩
    cases i with
    | none =>
      obtain ⟨cs, hcs⟩ := hp rfl
      exact absurd hcs.symm (hno cs)
    | some t =>
      rw [Stage.run_cons, hs]
      rfl

lemma endsWith_directiveHead {cs : List Char} (h : beginsDirective cs = true) :
    Text.endsWith "]" (String.ofList (directiveHead cs)) = false := by
  have hmem : ']' ∉ directiveHead cs := by
    unfold beginsDirective at h
    split at h
    · rename_i ch cs
      intro hmem
      have hrest : ']' ∈ (ch :: cs).takeWhile isNameStart := by
        simpa [directiveHead] using hmem
      exact absurd (List.mem_takeWhile_imp hrest) (by decide)
    · cases h
  rw [Text.endsWith, Option.isSome_eq_false_iff, Option.isNone_iff_eq_none]
  rw [Option.eq_none_iff_forall_not_mem]
  intro r hr
  have hlast : (directiveHead cs).reverse = [']'] ++ r := by
    simpa using Text.dropLead?_eq_some_iff.mp hr
  exact hmem (List.mem_reverse.mp (hlast ▸ List.mem_cons_self))

lemma endsWith_closer {lexeme value : String} (h : (lexeme, value) ∈ closerNames) :
    Text.endsWith "]" lexeme = true := by
  have hall : ∀ e ∈ closerNames, Text.endsWith "]" e.1 = true := by decide
  exact hall _ h

lemma tells_textStep (c : Cursor) : (textStep c).Tells .text c := by
  have hdirective : (Mode.directive (unclosedDirective c)).Describes := c.described _ _
  unfold textStep
  split
  · exact .to_text (worded_of_kind nofun nofun nofun) (Stage.after_text rfl rfl)
  · exact .one ⟨c.described _ _, nofun⟩ (worded_of_kind nofun nofun nofun)
      (Stage.after_opening rfl (.inl rfl))
  · rename_i h
    exact .one hdirective (worded_of_kind nofun nofun nofun)
      (Stage.after_head rfl rfl (endsWith_directiveHead (beginsDirective_of_opening? h)))
  · have hends : Text.endsWith "]" (String.ofList "[ELSE IF".toList) = false := by decide
    exact .one hdirective (worded_of_kind nofun nofun nofun) (Stage.after_head rfl rfl hends)
  · rename_i lexeme value h
    cases opens_of_opening? h with
    | closer hn _ =>
      have hends : Text.endsWith "]" (String.ofList lexeme.toList) = true := by
        rw [String.ofList_toList]
        exact endsWith_closer hn
      exact .to_text (worded_of_kind nofun nofun nofun) (Stage.after_whole rfl rfl hends)
  · rename_i h
    cases opens_of_opening? h with
    | context h =>
      refine tells_operatorStep nofun ?_ (Stage.after_opening rfl (.inr rfl)) fun _ => ?_
      · exact ⟨'c', "ontext".toList, rfl, rfl, List.all_eq_true.mp rfl⟩
      · obtain ⟨cs, hcs⟩ := h
        refine ⟨cs, ?_⟩
        rw [Cursor.after, ← hcs]
        rfl

lemma tells_slotStep (hm : (Mode.slot t i).Describes) :
    (slotStep t i c).Tells (.slot t i) c := by
  have haround := Mode.describes_around hm.2
  unfold slotStep
  dsimp only
  split
  · exact .stay hm.1 haround
  split
  · exact .one haround (worded_of_kind nofun nofun nofun) (after_closing (.inl rfl) _ _ _)
  split
  · exact .stay hm.1 haround
  split
  · exact .one hm (worded_of_kind nofun nofun nofun) (Stage.after_of_staysInside rfl _)
  split
  · exact .one hm (worded_of_kind nofun nofun nofun) (Stage.after_of_staysInside rfl _)
  split
  · exact .literal hm hm fun _ _ => Stage.after_of_staysInside rfl _
  split
  · exact .one hm (worded_of_kind nofun nofun nofun) (Stage.after_of_staysInside rfl _)
  split
  · rename_i h
    exact .one hm (worded_identifier c (identifier?_length h)) (Stage.after_of_staysInside rfl _)
  · exact .reject hm

/-- A mark leaves the directive open. -/
lemma tells_mark {ch : Char} {kind : TokenKind} (ht : Described t) (h : mark? ch = some kind) :
    (Step.one c (.directive t) kind [ch]).Tells (.directive t) c := by
  have hm : (Mode.directive t).Describes := ht
  unfold mark? at h
  split at h <;> cases h <;> exact .one hm (worded_of_kind nofun nofun nofun) rfl

lemma tells_directiveStep (ht : Described t) : (directiveStep t c).Tells (.directive t) c := by
  have hm : (Mode.directive t).Describes := ht
  have hi : ∀ u ∈ some t, Described u := fun u hu => Option.some.inj hu ▸ ht
  unfold directiveStep
  dsimp only
  split
  · exact .stay ht trivial
  split
  · exact .stay ht trivial
  split
  · exact .to_text (worded_of_kind nofun nofun nofun) (Stage.after_bracket rfl)
  split
  · exact .one ⟨c.described _ _, hi⟩ (worded_of_kind nofun nofun nofun) rfl
  split
  · split
    · rename_i h
      exact tells_operatorStep hi (isWord_of_operator? h) rfl nofun
    · exact .reject hm
  split
  · rename_i h
    exact tells_mark ht h
  split
  · exact .literal hm hm fun _ _ => rfl
  split
  · exact .one hm (worded_of_kind nofun nofun nofun) rfl
  split
  · rename_i h
    exact .one hm (worded_identifier c (identifier?_length h)) rfl
  split
  · rename_i h
    exact .one hm (worded_identifier c (pathWord?_length h)) rfl
  · exact .reject hm

lemma tells_quotedStep (hm : (Mode.quoted t i).Describes) :
    (quotedStep t i c).Tells (.quoted t i) c := by
  have haround := Mode.describes_around hm.2
  unfold quotedStep
  dsimp only
  split
  · exact .stay hm.1 haround
  split
  · exact .one haround (worded_of_kind nofun nofun nofun) (after_closing (.inr rfl) _ _ _)
  split
  · exact .one hm (worded_of_kind nofun nofun nofun) (Stage.after_of_staysInside rfl _)
  split
  · exact .literal hm haround fun _ _ => Stage.after_of_staysInside rfl _
  · exact .stay hm.1 haround

/-- Blanks inside a construct leave its stage alone. -/
lemma Step.Tells.blanks {s : Step} (h : s.Tells m c.skipBlanks)
    (hm : m.stage c = m.stage c.skipBlanks) : s.Tells m c :=
  ⟨h.worded, h.describes, hm ▸ h.stage⟩

/-- Every step finds worded tokens, and tells by them where it goes on. -/
lemma tells_step (hm : m.Describes) (c : Cursor) : (step m c).Tells m c := by
  cases m with
  | text => exact tells_textStep c
  | directive t => exact .blanks (tells_directiveStep hm) rfl
  | slot t i => exact .blanks (tells_slotStep hm) rfl
  | quoted t i => exact .blanks (tells_quotedStep hm) rfl

/-! ### Scans -/

lemma mode_of_finished (h : finished m c = true) : m = .text := by
  cases m with
  | text => rfl
  | _ => cases h

lemma worded_of_finished (h : finished m c = true) : ∀ t ∈ scan m c, t.Worded := by
  rw [scan_finished h]
  exact List.forall_mem_singleton.mpr (worded_of_kind nofun nofun nofun)

lemma scan_worded (hm : m.Describes) : ∀ t ∈ scan m c, t.Worded := by
  induction m, c using scan.induct with
  | case1 m c h => exact worded_of_finished h
  | case2 m c h s ih =>
    have hs : s.Tells m c := tells_step hm c
    rw [scan_unfinished (by simpa using h)]
    exact List.forall_mem_append.mpr ⟨hs.worded, ih hs.describes⟩

/-- A scan without errors goes from stage to stage up to the end. -/
lemma run_scan (hm : m.Describes) (h : Clean (scan m c)) :
    (m.stage c).run (scan m c) = some .ended := by
  induction m, c using scan.induct with
  | case1 m c hf =>
    obtain rfl := mode_of_finished hf
    rw [scan_finished hf]
    simp [Mode.stage, Stage.after]
  | case2 m c hf s ih =>
    have hs : s.Tells m c := tells_step hm c
    rw [scan_unfinished (by simpa using hf)] at h ⊢
    obtain ⟨hfirst, hrest⟩ := clean_append.mp h
    rw [Stage.run_append, hs.stage hfirst]
    exact ih hs.describes hrest

lemma tokenize_worded (source : String) : ∀ t ∈ tokenize source, t.Worded := scan_worded trivial

/-- The tokens of a source without errors lead from its beginning to its end. -/
lemma run_tokenize {source : String} (h : Clean (tokenize source)) :
    (Stage.text .origin).run (tokenize source) = some .ended := run_scan (m := .text) trivial h

end Source

end Stencil
