import Mathlib.Data.List.TakeWhile
import Stencil.Proofs.Source.Stages

/-!
What may come inside a construct, with errors or without.

A construct is left by what closes it or by way of an error, and by nothing else: behind what opens
one there is no plain text, no directive and no end of the input before (`Guarded`). So whoever
reads a construct and stops at the first error always stands at a token of this construct, and
such a token is seen: all tokens but those of plain text and the end of the input start with a
character that is not blank.
-/

namespace Stencil

open Text (isBlank)

/-- The kinds of token that stand inside constructs. -/
def TokenKind.isInner : TokenKind → Bool
  | text | directive | endOfInput => false
  | _ => true

/-- The kinds that close some construct. -/
def TokenKind.closesConstruct : TokenKind → Bool
  | slotClose | rightParen | directiveClose => true
  | _ => false

/-- The kind that closes a directive. -/
def TokenKind.closesDirective : TokenKind → Bool
  | directiveClose => true
  | _ => false

lemma TokenKind.closesConstruct_of_closesDirective {k : TokenKind}
    (h : k.closesDirective = true) : k.closesConstruct = true := by
  cases k <;> simp_all [closesDirective, closesConstruct]

/-- The token starts with a character that is not blank. -/
def Token.Visible (t : Token) : Prop :=
  ∃ ch cs, t.lexeme.toList = ch :: cs ∧ isBlank ch = false

namespace Source

/-- The tokens stay inside a construct up to an error or a token that stops it. -/
def Inside (stop : TokenKind → Bool) : List Token → Prop
  | [] => False
  | t :: ts => t.kind.isInner = true ∧ (t.kind = .error ∨ stop t.kind = true ∨ Inside stop ts)

/-- Behind everything that opens a construct the tokens stay inside it. -/
def Guarded : List Token → Prop
  | [] => True
  | t :: ts =>
    (t.kind = .slotOpen ∨ t.kind = .operator → Inside TokenKind.closesConstruct ts) ∧
      (t.kind = .directive → (t.lexeme, t.text) ∈ closerNames ∨
        Inside TokenKind.closesDirective ts) ∧
      Guarded ts

variable {stop stop' : TokenKind → Bool} {t : Token} {ts us : List Token}

namespace Inside

lemma mono (h : Inside stop ts) (hstop : ∀ k, stop k = true → stop' k = true) :
    Inside stop' ts := by
  induction ts with
  | nil => exact h
  | cons t ts ih => exact ⟨h.1, h.2.imp id (Or.imp (hstop _) ih)⟩

/-- Tokens of the construct in front. -/
lemma append (hts : ∀ t ∈ ts, t.kind.isInner = true) (h : Inside stop us) :
    Inside stop (ts ++ us) := by
  induction ts with
  | nil => exact h
  | cons t ts ih =>
    obtain ⟨ht, hts⟩ := List.forall_mem_cons.mp hts
    exact ⟨ht, .inr (.inr (ih hts))⟩

/-- Tokens of the construct up to an error or what stops it. -/
lemma of_mem (hts : ∀ t ∈ ts, t.kind.isInner = true)
    (h : ∃ t ∈ ts, t.kind = .error ∨ stop t.kind = true) : Inside stop (ts ++ us) := by
  induction ts with
  | nil =>
    obtain ⟨t, ht, -⟩ := h
    cases ht
  | cons t ts ih =>
    obtain ⟨ht, hts⟩ := List.forall_mem_cons.mp hts
    refine ⟨ht, ?_⟩
    obtain ⟨u, hu, hkind⟩ := h
    rcases List.mem_cons.mp hu with rfl | hu
    · exact hkind.imp id .inl
    · exact .inr (.inr (ih hts ⟨u, hu, hkind⟩))

/-- Behind tokens that do not stop it a construct goes on. -/
lemma of_append (h : Inside stop (ts ++ us))
    (hts : ∀ t ∈ ts, t.kind ≠ .error ∧ stop t.kind = false) : Inside stop us := by
  induction ts with
  | nil => exact h
  | cons t ts ih =>
    obtain ⟨ht, hts⟩ := List.forall_mem_cons.mp hts
    refine ih ?_ hts
    rcases h.2 with he | hs | h
    · exact absurd he ht.1
    · simp [ht.2] at hs
    · exact h

end Inside

namespace Guarded

lemma of_append (h : Guarded (ts ++ us)) : Guarded us := by
  induction ts with
  | nil => exact h
  | cons t ts ih => exact ih h.2.2

/-- A token that opens nothing. -/
lemma cons_closed (hs : t.kind ≠ .slotOpen) (ho : t.kind ≠ .operator)
    (hd : t.kind = .directive → (t.lexeme, t.text) ∈ closerNames) (h : Guarded ts) :
    Guarded (t :: ts) :=
  ⟨fun hk => by simp [hs, ho] at hk, fun hk => .inl (hd hk), h⟩

/-- Behind a directive that is not a whole one by itself its construct goes on. -/
lemma directive (h : Guarded (t :: ts)) (hk : t.kind = .directive)
    (hopen : (t.lexeme, t.text) ∉ closerNames) : Inside TokenKind.closesDirective ts :=
  (h.2.1 hk).resolve_left hopen

/-- Tokens of a construct that open nothing. -/
lemma append (hts : ∀ t ∈ ts, t.kind.isInner = true ∧ t.kind ≠ .slotOpen ∧ t.kind ≠ .operator)
    (h : Guarded us) : Guarded (ts ++ us) := by
  induction ts with
  | nil => exact h
  | cons t ts ih =>
    obtain ⟨⟨ht, hslot, hop⟩, hts⟩ := List.forall_mem_cons.mp hts
    exact .cons_closed hslot hop (fun hd => by simp [hd, TokenKind.isInner] at ht) (ih hts)

end Guarded

/-! ### Modes and steps -/

variable {m mode : Mode} {c : Cursor} {i : Option Token} {w : List Char}

/-- What stops the construct that a mode is inside. -/
def Mode.stops : Mode → TokenKind → Bool
  | .text | .slot _ none | .quoted _ none => TokenKind.closesConstruct
  | .directive _ | .slot _ (some _) | .quoted _ (some _) => TokenKind.closesDirective

/-- The tokens stay inside the construct that the mode is inside, if it is inside one. -/
def Mode.Holds (m : Mode) (ts : List Token) : Prop := m ≠ .text → Inside m.stops ts

lemma Mode.closesConstruct_of_stops {k : TokenKind} (h : m.stops k = true) :
    k.closesConstruct = true := by
  match m, h with
  | .text, h | .slot _ none, h | .quoted _ none, h => exact h
  | .directive _, h | .slot _ (some _), h | .quoted _ (some _), h =>
    exact TokenKind.closesConstruct_of_closesDirective h

/-- An error that is seen. -/
def Glaring (t : Token) : Prop := t.kind = .error ∧ t.Visible

/-- What the mode keeps for later are errors that are seen. -/
def Mode.Glares : Mode → Prop
  | .text => True
  | .directive t => Glaring t
  | .slot t i | .quoted t i => Glaring t ∧ ∀ u ∈ i, Glaring u

lemma Mode.glares_around (h : ∀ u ∈ i, Glaring u) : (Mode.around i).Glares := by
  cases i with
  | none => trivial
  | some t => exact h t rfl

/-- A step from the mode `m` finds tokens that are seen, and stays inside constructs as long as
the scan behind it does. -/
structure Step.Encloses (m : Mode) (s : Step) : Prop where
  visible : ∀ t ∈ s.tokens, t.kind ≠ .text → t.Visible
  glares : s.mode.Glares
  guards : ∀ rest, Guarded rest → s.mode.Holds rest →
    Guarded (s.tokens ++ rest) ∧ m.Holds (s.tokens ++ rest)

namespace Step.Encloses

/-- A step that finds one token of a construct. -/
lemma single {c' : Cursor} (ht : t.Visible) (hm : mode.Glares) (hinner : t.kind.isInner = true)
    (hop : t.kind ≠ .operator) (hopen : t.kind = .slotOpen → mode ≠ .text)
    (h : m ≠ .text → t.kind = .error ∨ m.stops t.kind = true ∨
      mode ≠ .text ∧ mode.stops = m.stops) :
    (⟨[t], mode, c'⟩ : Step).Encloses m where
  visible := List.forall_mem_singleton.mpr fun _ => ht
  glares := hm
  guards rest hrest hholds := by
    refine ⟨⟨fun hk => ?_, fun hk => by simp [hk, TokenKind.isInner] at hinner, hrest⟩,
      fun hne => ⟨hinner, ?_⟩⟩
    · have hslot : t.kind = .slotOpen := hk.resolve_right hop
      exact (hholds (hopen hslot)).mono fun _ => Mode.closesConstruct_of_stops
    · refine (h hne).imp id (Or.imp id fun hmode => ?_)
      rw [← hmode.2]
      exact hholds hmode.1

/-- A step that finds one error. -/
lemma error {c' : Cursor} (ht : Glaring t) (hm : mode.Glares) :
    (⟨[t], mode, c'⟩ : Step).Encloses m :=
  single ht.2 hm (by rw [ht.1]; rfl) (by simp [ht.1]) (by simp [ht.1]) fun _ => .inl ht.1

end Step.Encloses

/-! ### Tokens that are seen -/

lemma visible_of_cons {ch : Char} {cs : List Char} (h : t.lexeme = String.ofList (ch :: cs))
    (hch : isBlank ch = false) : t.Visible :=
  ⟨ch, cs, by rw [h, String.toList_ofList], hch⟩

/-- At a character that is not blank everything is seen. -/
lemma visible_of_isPrefix (hc : Ends isBlank c.rest) (hw : w <+: c.rest) (hne : w ≠ [])
    (h : t.lexeme = String.ofList w) : t.Visible := by
  obtain ⟨ch, cs, rfl⟩ := List.exists_cons_of_ne_nil hne
  obtain ⟨r, hr⟩ := hw
  rw [← hr] at hc
  exact visible_of_cons h (ends_cons.mp hc)

lemma Cursor.ends_skipBlanks (c : Cursor) : Ends isBlank c.skipBlanks.rest := by
  have hrest : c.skipBlanks.rest = c.rest.dropWhile isBlank := by
    have hsplit := List.takeWhile_append_dropWhile (p := isBlank) (l := c.rest)
    unfold Cursor.skipBlanks Cursor.after
    dsimp only
    conv_lhs => rw [← hsplit]
    rw [List.drop_left' (by rw [hsplit])]
  rw [hrest]
  exact ends_dropWhile _ _

lemma glaring_fault {ch : Char} {cs : List Char} (hch : isBlank ch = false) (c : Cursor)
    (message : String) : Glaring (c.fault (ch :: cs) message) :=
  ⟨rfl, visible_of_cons rfl hch⟩

/-! ### Steps -/

namespace Step.Encloses

/-- A token of a construct that is not one that opens anything. -/
lemma one {kind : TokenKind} {value : Option (List Char)} (hc : Ends isBlank c.rest)
    (hw : w <+: c.rest) (hne : w ≠ []) (hm : mode.Glares) (hinner : kind.isInner = true)
    (hop : kind ≠ .operator) (hopen : kind = .slotOpen → mode ≠ .text)
    (h : m ≠ .text → kind = .error ∨ m.stops kind = true ∨ mode ≠ .text ∧ mode.stops = m.stops) :
    (Step.one c mode kind w value).Encloses m :=
  single (visible_of_isPrefix hc hw hne rfl) hm hinner hop hopen h

/-- The same in a construct that is not left. -/
lemma inner {kind : TokenKind} {value : Option (List Char)} (hc : Ends isBlank c.rest)
    (hw : w <+: c.rest) (hne : w ≠ []) (hm : m.Glares) (hinner : kind.isInner = true)
    (hop : kind ≠ .operator) (hopen : kind ≠ .slotOpen) :
    (Step.one c m kind w value).Encloses m :=
  one hc hw hne hm hinner hop (fun h => absurd h hopen) fun hne => .inr (.inr ⟨hne, rfl⟩)

lemma reject {ch : Char} {cs : List Char} {message : String} (hc : Ends isBlank c.rest)
    (h : c.rest = ch :: cs) (hm : mode.Glares) :
    (Step.reject c mode ch message).Encloses m := by
  rw [h] at hc
  exact error (glaring_fault (ends_cons.mp hc) c message) hm

lemma literal {onError : Mode} {q : Char} {cs : List Char} (hc : Ends isBlank c.rest)
    (h : c.rest = q :: cs) (hm : m.Glares) (hne : m ≠ .text) (he : onError.Glares) :
    (literalStep c m onError q cs).Encloses m := by
  have hw : q :: (literalTail q cs).taken <+: c.rest := by
    rw [h]
    exact List.cons_prefix_cons.mpr ⟨rfl, literalTail_isPrefix q cs⟩
  unfold literalStep
  dsimp only
  split
  · exact one hc hw (List.cons_ne_nil _ _) hm rfl nofun nofun fun _ => .inr (.inr ⟨hne, rfl⟩)
  · rw [h] at hc
    exact error (glaring_fault (ends_cons.mp hc) c _) he

/-- What closes a slot or parentheses leads back to the mode around it. -/
lemma closing {kind : TokenKind} (hk : kind = .slotClose ∨ kind = .rightParen)
    (hc : Ends isBlank c.rest) (hw : w <+: c.rest) (hne : w ≠ [])
    (hi : ∀ u ∈ i, Glaring u) (hm : m.stops = (Mode.slot t i).stops) :
    (Step.one c (.around i) kind w).Encloses m := by
  refine one hc hw hne (Mode.glares_around hi) ?_ ?_ ?_ fun _ => .inr ?_
  · rcases hk with rfl | rfl <;> rfl
  · rcases hk with rfl | rfl <;> nofun
  · rcases hk with rfl | rfl <;> nofun
  · rw [hm]
    cases i with
    | none => rcases hk with rfl | rfl <;> exact .inl rfl
    | some u => exact .inr ⟨nofun, rfl⟩

end Step.Encloses

/-- An operator and the tokens behind it, which are all of the construct: they stay inside it or
come to its end. -/
lemma encloses_operator {op : Token} (ts : List Token) {c' : Cursor} (hm : mode.Glares)
    (hop : op.kind = .operator) (hseen : ∀ t ∈ op :: ts, t.Visible)
    (hts : ∀ t ∈ ts, t.kind.isInner = true ∧ t.kind ≠ .slotOpen ∧ t.kind ≠ .operator)
    (hclose : mode = .text → ∃ t ∈ ts, t.kind = .error ∨ t.kind.closesConstruct = true)
    (hstops : m ≠ .text → (∃ t ∈ ts, t.kind = .error) ∨ mode ≠ .text ∧ mode.stops = m.stops) :
    (⟨op :: ts, mode, c'⟩ : Step).Encloses m where
  visible t ht _ := hseen t ht
  glares := hm
  guards rest hrest hholds := by
    have hinner : ∀ t ∈ ts, t.kind.isInner = true := fun t ht => (hts t ht).1
    refine ⟨⟨fun _ => ?_, fun hd => by simp [hop] at hd, .append hts hrest⟩, fun hne => ?_⟩
    · by_cases htext : mode = .text
      · exact .of_mem hinner (hclose htext)
      · exact .append hinner ((hholds htext).mono fun _ => Mode.closesConstruct_of_stops)
    · refine ⟨by rw [hop]; rfl, .inr (.inr ?_)⟩
      rcases hstops hne with herror | ⟨htext, hstops⟩
      · exact .of_mem hinner (herror.imp fun t ht => ht.imp_right .inl)
      · rw [← hstops]
        exact .append hinner (hholds htext)

lemma stops_around (h : Mode.around i ≠ .text) (t : Token) :
    (Mode.quoted t i).stops = (Mode.around i).stops := by
  cases i with
  | none => exact absurd rfl h
  | some u => rfl

lemma encloses_argumentStep {op l : Token} {paren : Cursor} (hop : op.kind = .operator)
    (hl : l.kind = .leftParen) (hseen : ∀ t ∈ [op, l], t.Visible) (hi : ∀ u ∈ i, Glaring u) :
    (argumentStep [op, l] paren i).Encloses (.around i) := by
  have hunclosed : Glaring (unclosedArguments paren) := glaring_fault (by decide) _ _
  have haround := Mode.glares_around hi
  have hparen : ∀ t ∈ [l], t.kind.isInner = true ∧ t.kind ≠ .slotOpen ∧ t.kind ≠ .operator := by
    simp [hl, TokenKind.isInner]
  obtain ⟨hopseen, hlseen⟩ := List.forall_mem_cons.mp hseen
  obtain ⟨d, hd⟩ : ∃ d, (paren.after ['(']).skipBlanks = d := ⟨_, rfl⟩
  have hclear : Ends isBlank d.rest := hd ▸ Cursor.ends_skipBlanks _
  have hquoted : (⟨[op, l], .quoted (unclosedArguments paren) i, d⟩ : Step).Encloses
      (.around i) :=
    encloses_operator [l] ⟨hunclosed, hi⟩ hop hseen hparen nofun fun hne =>
      .inr ⟨nofun, stops_around hne _⟩
  unfold argumentStep
  simp only [hd]
  split
  · exact hquoted
  · exact hquoted
  split
  · rename_i cs hclose
    obtain ⟨w, hw⟩ : ∃ w, rawArgument 0 d.rest = w := ⟨_, rfl⟩
    obtain ⟨arg, harg⟩ : ∃ arg, (if (Text.trimBlanks w).isEmpty then []
        else [d.token .argument w (some (Text.trimBlanks w))]) = arg := ⟨_, rfl⟩
    have hargument : ∀ t ∈ arg, t.kind = .argument ∧ t.Visible := by
      rw [← harg]
      split
      · exact nofun
      · rename_i hblank
        refine List.forall_mem_singleton.mpr ⟨rfl, ?_⟩
        refine visible_of_isPrefix hclear (hw ▸ rawArgument_isPrefix 0 d.rest) ?_ rfl
        rintro rfl
        exact hblank rfl
    have hright : ((d.after w).token .rightParen [')']).Visible := visible_of_cons rfl (by decide)
    rw [hw, harg, List.append_assoc]
    refine encloses_operator (l :: (arg ++ [(d.after w).token .rightParen [')']])) haround hop
      ?_ ?_ (fun _ => ?_) fun hne => .inr ⟨hne, rfl⟩
    · simp only [List.forall_mem_cons, List.forall_mem_append, List.not_mem_nil]
      exact ⟨hopseen, hlseen _ List.mem_cons_self, fun t ht => (hargument t ht).2, hright, nofun⟩
    · simp only [List.forall_mem_cons, List.forall_mem_append, List.not_mem_nil]
      refine ⟨hparen _ List.mem_cons_self, fun t ht => ?_, ⟨rfl, nofun, nofun⟩, nofun⟩
      simp [(hargument t ht).1, TokenKind.isInner]
    · exact ⟨(d.after w).token .rightParen [')'], by simp, .inr rfl⟩
  · refine encloses_operator [l, unclosedArguments paren] haround hop ?_ ?_
      (fun _ => ⟨_, by simp, .inl hunclosed.1⟩) fun _ => .inl ⟨_, by simp, hunclosed.1⟩
    · simp only [List.forall_mem_cons, List.not_mem_nil]
      exact ⟨hopseen, hlseen _ List.mem_cons_self, hunclosed.2, nofun⟩
    · simp only [List.forall_mem_cons, List.not_mem_nil]
      refine ⟨hparen _ List.mem_cons_self, ?_, nofun⟩
      simp [hunclosed.1, TokenKind.isInner]

/-- In plain text an operator is a context reference, whose arguments follow. -/
lemma encloses_operatorStep (hop : (c.token .operator w (some (w.drop 1))).Visible)
    (hi : ∀ u ∈ i, Glaring u) (hp : i = none → ['('] <+: (c.after w).rest) :
    (operatorStep c i w).Encloses (.around i) := by
  unfold operatorStep
  dsimp only
  split
  · refine encloses_argumentStep rfl rfl ?_ hi
    exact List.forall_mem_cons.mpr ⟨hop, List.forall_mem_singleton.mpr
      (visible_of_cons rfl (by decide))⟩
  · rename_i hno
    refine encloses_operator [] (Mode.glares_around hi) rfl (List.forall_mem_singleton.mpr hop)
      nofun (fun htext => ?_) fun hne => .inr ⟨hne, rfl⟩
    cases i with
    | none =>
      obtain ⟨cs, hcs⟩ := hp rfl
      exact absurd hcs.symm (hno cs)
    | some u => cases htext

/-- A directive behind whose head a mode of its own goes on. -/
lemma encloses_head {value : Option (List Char)} (hw : (c.token .directive w value).Visible)
    (hu : Glaring (unclosedDirective c)) :
    (Step.one c (.directive (unclosedDirective c)) .directive w value).Encloses .text where
  visible := List.forall_mem_singleton.mpr fun _ => hw
  glares := hu
  guards rest hrest hholds := by
    refine ⟨⟨fun hk => ?_, fun _ => .inr (hholds nofun), hrest⟩, fun hne => absurd rfl hne⟩
    rcases hk with hk | hk <;> cases hk

/-- What is written to close a block starts with a visible character. -/
lemma forall_closerNames :
    ∀ e ∈ closerNames, ∃ ch cs, e.1.toList = ch :: cs ∧ isBlank ch = false := by
  simp only [closerNames, List.forall_mem_cons]
  exact ⟨⟨_, _, rfl, by decide⟩, ⟨_, _, rfl, by decide⟩, ⟨_, _, rfl, by decide⟩,
    List.forall_mem_nil _⟩

lemma encloses_textStep (c : Cursor) : (textStep c).Encloses .text := by
  unfold textStep
  split
  · refine ⟨List.forall_mem_singleton.mpr fun hk => absurd rfl hk, trivial, fun rest hrest _ => ?_⟩
    exact ⟨.cons_closed nofun nofun nofun hrest, fun hne => absurd rfl hne⟩
  · exact .single (visible_of_cons rfl (by decide)) ⟨glaring_fault (by decide) _ _, nofun⟩ rfl nofun
      (fun _ => nofun) fun hne => absurd rfl hne
  · rename_i h
    cases opens_of_opening? h with
    | directive hc h =>
      obtain ⟨r, hr⟩ := h
      refine encloses_head ?_ ?_
      · have hhead : directiveHead c.rest = '[' :: (directiveHead c.rest).tail := by
          rw [← hr]
          rfl
        exact visible_of_cons (congrArg String.ofList hhead) (by decide)
      · unfold unclosedDirective
        rw [← hr]
        exact glaring_fault (by decide) _ _
  · rename_i h
    cases opens_of_opening? h with
    | elseIf h =>
      refine encloses_head (visible_of_cons rfl (by decide)) ?_
      unfold unclosedDirective
      rw [h]
      exact glaring_fault (by decide) _ _
  · rename_i lexeme value h
    cases opens_of_opening? h with
    | closer hn _ =>
      have hname : (String.ofList lexeme.toList, String.ofList value.toList) ∈ closerNames := by
        rwa [String.ofList_toList, String.ofList_toList]
      obtain ⟨ch, cs, hlexeme, hblank⟩ := forall_closerNames _ hn
      refine ⟨List.forall_mem_singleton.mpr fun _ => ?_, trivial, fun rest hrest _ => ?_⟩
      · exact visible_of_cons (congrArg String.ofList hlexeme) hblank
      · exact ⟨.cons_closed nofun nofun (fun _ => hname) hrest, fun hne => absurd rfl hne⟩
  · rename_i h
    cases opens_of_opening? h with
    | context h =>
      obtain ⟨cs, hcs⟩ := h
      refine encloses_operatorStep (i := none) (visible_of_cons rfl (by decide)) nofun fun _ => ?_
      refine ⟨cs, ?_⟩
      rw [Cursor.after, ← hcs]
      rfl

lemma encloses_slotStep (hm : (Mode.slot t i).Glares) (hc : Ends isBlank c.rest) :
    (slotStep t i c).Encloses (.slot t i) := by
  have haround := Mode.glares_around hm.2
  unfold slotStep
  dsimp only
  split
  · exact .error hm.1 haround
  rename_i ch cs hrest
  have hone : [ch] <+: c.rest := hrest ▸ ⟨cs, rfl⟩
  split
  · rename_i h
    exact .closing (.inl rfl) hc (begins_iff.mp h) (List.cons_ne_nil _ _) hm.2 rfl
  split
  · exact .error hm.1 haround
  split
  · rename_i h
    exact .inner hc (begins_iff.mp h) (List.cons_ne_nil _ _) hm rfl nofun nofun
  split
  · exact .inner hc hone (List.cons_ne_nil _ _) hm rfl nofun nofun
  split
  · exact .literal hc hrest hm nofun hm
  split
  · rename_i h
    exact .inner hc (number?_isPrefix h) (List.length_pos_iff.mp (number?_length h)) hm rfl nofun
      nofun
  split
  · rename_i h
    exact .inner hc (identifier?_isPrefix h) (List.length_pos_iff.mp (identifier?_length h)) hm rfl
      nofun nofun
  · exact .reject hc hrest hm

lemma encloses_directiveStep (ht : Glaring t) (hc : Ends isBlank c.rest) :
    (directiveStep t c).Encloses (.directive t) := by
  have hm : (Mode.directive t).Glares := ht
  have hi : ∀ u ∈ some t, Glaring u := fun u hu => Option.some.inj hu ▸ ht
  unfold directiveStep
  dsimp only
  split
  · exact .error ht trivial
  rename_i ch cs hrest
  have hone : [ch] <+: c.rest := hrest ▸ ⟨cs, rfl⟩
  split
  · exact .error ht trivial
  split
  · exact .one hc hone (List.cons_ne_nil _ _) trivial rfl nofun nofun fun _ => .inr (.inl rfl)
  split
  · rename_i h
    exact .one hc (begins_iff.mp h) (List.cons_ne_nil _ _) ⟨glaring_fault (by decide) _ _, hi⟩ rfl
      nofun (fun _ => nofun) fun _ => .inr (.inr ⟨nofun, rfl⟩)
  split
  · split
    · rename_i h
      refine encloses_operatorStep (i := some t) ?_ hi nofun
      exact visible_of_isPrefix hc (operator?_isPrefix h)
        (List.length_pos_iff.mp (operator?_length h)) rfl
    · exact .reject hc hrest hm
  split
  · rename_i kind hmark
    have hkind : kind.isInner = true ∧ kind ≠ .operator ∧ kind ≠ .slotOpen := by
      unfold mark? at hmark
      split at hmark <;> cases hmark <;> exact ⟨rfl, nofun, nofun⟩
    exact .inner hc hone (List.cons_ne_nil _ _) hm hkind.1 hkind.2.1 hkind.2.2
  split
  · exact .literal hc hrest hm nofun hm
  split
  · rename_i h
    exact .inner hc (number?_isPrefix h) (List.length_pos_iff.mp (number?_length h)) hm rfl nofun
      nofun
  split
  · rename_i h
    exact .inner hc (identifier?_isPrefix h) (List.length_pos_iff.mp (identifier?_length h)) hm rfl
      nofun nofun
  split
  · rename_i h
    exact .inner hc (pathWord?_isPrefix h) (List.length_pos_iff.mp (pathWord?_length h)) hm rfl
      nofun nofun
  · exact .reject hc hrest hm

lemma encloses_quotedStep (hm : (Mode.quoted t i).Glares) (hc : Ends isBlank c.rest) :
    (quotedStep t i c).Encloses (.quoted t i) := by
  have haround := Mode.glares_around hm.2
  unfold quotedStep
  dsimp only
  split
  · exact .error hm.1 haround
  rename_i ch cs hrest
  have hone : [ch] <+: c.rest := hrest ▸ ⟨cs, rfl⟩
  split
  · exact .closing (t := t) (.inr rfl) hc hone (List.cons_ne_nil _ _) hm.2 (by cases i <;> rfl)
  split
  · exact .inner hc hone (List.cons_ne_nil _ _) hm rfl nofun nofun
  split
  · exact .literal hc hrest hm nofun haround
  · exact .error hm.1 haround

/-- Every step stays inside the constructs that it opens or is inside of. -/
lemma encloses_step (hm : m.Glares) (c : Cursor) : (step m c).Encloses m := by
  cases m with
  | text => exact encloses_textStep c
  | directive t => exact encloses_directiveStep hm c.ends_skipBlanks
  | slot t i => exact encloses_slotStep hm c.ends_skipBlanks
  | quoted t i => exact encloses_quotedStep hm c.ends_skipBlanks

/-! ### Scans -/

lemma scan_visible (hm : m.Glares) :
    ∀ t ∈ scan m c, t.kind ≠ .text → t.kind ≠ .endOfInput → t.Visible := by
  induction m, c using scan.induct with
  | case1 m c h =>
    rw [scan_finished h]
    exact List.forall_mem_singleton.mpr fun _ hend => absurd rfl hend
  | case2 m c h s ih =>
    have hs : s.Encloses m := encloses_step hm c
    rw [scan_unfinished (by simpa using h)]
    exact List.forall_mem_append.mpr ⟨fun t ht hk _ => hs.visible t ht hk, ih hs.glares⟩

lemma guarded_of_finished (h : finished m c = true) :
    Guarded (scan m c) ∧ m.Holds (scan m c) := by
  obtain rfl := mode_of_finished h
  rw [scan_finished h]
  exact ⟨.cons_closed nofun nofun nofun trivial, fun hne => absurd rfl hne⟩

lemma scan_guarded (hm : m.Glares) : Guarded (scan m c) ∧ m.Holds (scan m c) := by
  induction m, c using scan.induct with
  | case1 m c h => exact guarded_of_finished h
  | case2 m c h s ih =>
    have hs : s.Encloses m := encloses_step hm c
    obtain ⟨hguarded, hholds⟩ := ih hs.glares
    rw [scan_unfinished (by simpa using h)]
    exact hs.guards _ hguarded hholds

lemma tokenize_visible (source : String) :
    ∀ t ∈ tokenize source, t.kind ≠ .text → t.kind ≠ .endOfInput → t.Visible :=
  scan_visible (m := .text) trivial

lemma tokenize_guarded (source : String) : Guarded (tokenize source) :=
  (scan_guarded (m := .text) trivial).1

end Source

end Stencil
