import Stencil.Proofs.Source.Inside
import Stencil.Proofs.Template.Bodies

/-!
Where the faults of slots, references and conditions stand.

A rule that reads a construct stands inside it until it has read what closes it or is given up, so
each of its faults starts where a token of the construct does: one that was passed over before, or
the one at which the rule is given up, which recovery passes over next (`Rule.Lands`). With the
recovery behind it nothing is left open: every fault that is found while a construct is read starts
at one of its tokens.
-/

namespace Stencil

/-- The fault starts where one of the tokens does, which is no plain text and not the end. -/
def Diagnostic.StandsAmong (ts : List Token) (d : Diagnostic) : Prop :=
  ∃ t ∈ ts, t.kind ≠ .text ∧ t.kind ≠ .endOfInput ∧ d.start = t.start

/-- The fault is about one of the tokens and not about a body. -/
def Diagnostic.TellsOf (ts : List Token) (d : Diagnostic) : Prop :=
  d.problem.code ≠ .emptyBody ∧ d.StandsAmong ts

namespace Template

open Source

variable {α β : Type} {p q : Progress} {ts us before before' : List Token} {t : Token}
  {ds : List Diagnostic} {d : Diagnostic} {stop : TokenKind → Bool} {goal : TokenKind}

lemma standsAmong_mono (h : d.StandsAmong ts) (hts : ∀ t ∈ ts, t ∈ us) : d.StandsAmong us := by
  obtain ⟨t, ht, hkind⟩ := h
  exact ⟨t, hts t ht, hkind⟩

lemma tellsOf_mono (h : d.TellsOf ts) (hts : ∀ t ∈ ts, t ∈ us) : d.TellsOf us :=
  ⟨h.1, standsAmong_mono h.2 hts⟩

/-- A fault that is recorded where a token starts. -/
lemma tellsOf_of_mem {problem : Problem} (hcode : problem.code ≠ .emptyBody) (ht : t ∈ ts)
    (htext : t.kind ≠ .text) (hend : t.kind ≠ .endOfInput) :
    Diagnostic.TellsOf ts ⟨problem, t.start⟩ :=
  ⟨hcode, t, ht, htext, hend, rfl⟩

lemma code_lexical_ne (s : String) : (Problem.lexical s).code ≠ .emptyBody := by
  rcases Account.code_lexical s with h | h <;> simp [h]

lemma ne_of_isInner (h : t.kind.isInner = true) :
    t.kind ≠ .text ∧ t.kind ≠ .directive ∧ t.kind ≠ .endOfInput := by
  refine ⟨?_, ?_, ?_⟩ <;> intro hk <;> simp [hk, TokenKind.isInner] at h

/-! ### Rules inside a construct -/

/-- The next token, if it may stand inside a construct. -/
def Progress.ahead (p : Progress) : List Token :=
  if p.current.kind.isInner then [p.current] else []

/-- Tokens of a construct that is still open behind them, or that is closed by the last of them,
if this is of the kind given. -/
def Crosses (stop : TokenKind → Bool) : Option TokenKind → List Token → Prop
  | none, ts => ∀ t ∈ ts, t.kind ≠ .error ∧ stop t.kind = false
  | some goal, ts => ∃ us t, ts = us ++ [t] ∧ t.kind = goal ∧
      ∀ u ∈ us, u.kind ≠ .error ∧ stop u.kind = false

lemma Crosses.prepend {goal : Option TokenKind} (h : Crosses stop none ts)
    (k : Crosses stop goal us) : Crosses stop goal (ts ++ us) := by
  cases goal with
  | none => exact List.forall_mem_append.mpr ⟨h, k⟩
  | some goal =>
    obtain ⟨us, t, rfl, ht, hus⟩ := k
    exact ⟨ts ++ us, t, (List.append_assoc ..).symm, ht, List.forall_mem_append.mpr ⟨h, hus⟩⟩

/-- Inside a construct the rule passes over tokens of it, does not leave it but by the goal, and
finds faults about tokens that it passed over, about those before, and, if it is given up, about
the next one. -/
def Rule.Lands (x : Rule α) (stop : TokenKind → Bool) (goal : Option TokenKind)
    (before : List Token) (p : Progress) : Prop :=
  p.Live → Inside stop p.rest → ∃ ts ds, Passes p ts ds (x.on p).2 ∧
    (∀ t ∈ ts, t.kind.isInner = true) ∧
    match (x.on p).1 with
    | some _ => Crosses stop goal ts ∧ ∀ d ∈ ds, d.TellsOf (before ++ ts)
    | none => (∀ t ∈ ts, t.kind = .error ∨ stop t.kind = false) ∧
        ∀ d ∈ ds, d.TellsOf (before ++ ts ++ (x.on p).2.ahead)

lemma isInner_current (hp : p.Live) (h : Inside stop p.rest) : p.current.kind.isInner = true := by
  rw [hp.rest_eq] at h
  exact h.1

lemma inside_advance (hp : p.Live) (h : Inside stop p.rest) (he : p.current.kind ≠ .error)
    (hs : stop p.current.kind = false) : Inside stop p.advance.rest := by
  have hadvance := Passes.advance hp (ne_of_isInner (isInner_current hp h)).2.2
  rw [hadvance.rest] at h
  exact h.of_append (List.forall_mem_singleton.mpr ⟨he, hs⟩)

namespace Rule.Lands

variable {goal : Option TokenKind}

lemma pure {a : α} : (Pure.pure a : Rule α).Lands stop none before p :=
  fun _ _ => ⟨[], [], .refl p, nofun, nofun, nofun⟩

lemma bind {x : Rule α} {f : α → Rule β} (hx : x.Lands stop none before p)
    (hf : ∀ a before' q, (∀ t ∈ before, t ∈ before') → (f a).Lands stop goal before' q) :
    (x >>= f).Lands stop goal before p := by
  intro hp hin
  obtain ⟨ts, ds, hpass, hinner, h⟩ := hx hp hin
  rw [Rule.on_bind]
  rcases hr : x.on p with ⟨_ | a, q⟩ <;> rw [hr] at hpass h
  · exact ⟨ts, ds, hpass, hinner, h⟩
  · obtain ⟨hcross, hds⟩ := h
    have hin' : Inside stop q.rest := by
      rw [hpass.rest] at hin
      exact hin.of_append hcross
    obtain ⟨us, es, hpass', hinner', k⟩ := hf a (before ++ ts) q
      (fun t ht => List.mem_append_left _ ht) (hpass.live hp) hin'
    refine ⟨ts ++ us, es ++ ds, hpass.trans hpass',
      List.forall_mem_append.mpr ⟨hinner, hinner'⟩, ?_⟩
    dsimp only
    rcases hr' : (f a).on q with ⟨_ | b, r⟩ <;> rw [hr'] at k
    · obtain ⟨hus, hes⟩ := k
      refine ⟨List.forall_mem_append.mpr ⟨fun t ht => .inr (hcross t ht).2, hus⟩, ?_⟩
      rw [← List.append_assoc before]
      refine List.forall_mem_append.mpr ⟨hes, fun d hd => tellsOf_mono (hds d hd) fun t ht => ?_⟩
      exact List.mem_append_left _ (List.mem_append_left _ ht)
    · obtain ⟨hcross', hes⟩ := k
      refine ⟨hcross.prepend hcross', ?_⟩
      rw [← List.append_assoc before]
      refine List.forall_mem_append.mpr ⟨hes, fun d hd => tellsOf_mono (hds d hd) fun t ht => ?_⟩
      exact List.mem_append_left _ ht

/-- Looking at the progress without changing it. -/
lemma look {x : Reading α} {f : α → Rule β} {a : α} (hx : x.on p = (a, p))
    (h : (f a).Lands stop goal before p) : (liftM x >>= f : Rule β).Lands stop goal before p := by
  unfold Rule.Lands
  rw [Rule.on_lift_bind, hx]
  exact h

/-- Passing over a token that neither is an error nor leaves the construct. -/
lemma advance_bind {kind : TokenKind} {f : Token → Rule β}
    (hk : (p.current.kind == kind) = true) (he : kind ≠ .error) (hs : stop kind = false)
    (h : (f p.current).Lands stop goal (before ++ [p.current]) p.advance) :
    (liftM advance >>= f : Rule β).Lands stop goal before p := by
  intro hp hin
  obtain rfl : p.current.kind = kind := by simpa using hk
  have hinner := isInner_current hp hin
  have hadvance := Passes.advance hp (ne_of_isInner hinner).2.2
  obtain ⟨us, es, hpass, hus, k⟩ := h (hadvance.live hp) (inside_advance hp hin he hs)
  refine ⟨[p.current] ++ us, es ++ [], hadvance.trans hpass,
    List.forall_mem_cons.mpr ⟨hinner, hus⟩, ?_⟩
  have hcurrent : Crosses stop none [p.current] := List.forall_mem_singleton.mpr ⟨he, hs⟩
  rw [Rule.on_lift_bind, on_advance]
  dsimp only
  rw [List.append_nil, ← List.append_assoc]
  rcases hr : (f p.current).on p.advance with ⟨_ | b, r⟩ <;> rw [hr] at k
  · exact ⟨List.forall_mem_cons.mpr ⟨.inr hs, k.1⟩, k.2⟩
  · exact ⟨hcurrent.prepend k.1, k.2⟩

/-- Recording a fault about a token that was passed over before. -/
lemma recorded {problem : Problem} {f : Unit → Rule α} (hcode : problem.code ≠ .emptyBody)
    (ht : t ∈ before) (htext : t.kind ≠ .text) (hend : t.kind ≠ .endOfInput)
    (h : (f ()).Lands stop goal before (p.record problem t.start)) :
    (liftM (record problem t.start) >>= f : Rule α).Lands stop goal before p := by
  intro hp hin
  obtain ⟨ts, ds, hpass, hinner, k⟩ := h hp hin
  have hrecord : Reading.on (record problem t.start) p = ((), p.record problem t.start) := rfl
  refine ⟨[] ++ ts, ds ++ [⟨problem, t.start⟩], ?_, hinner, ?_⟩
  · rw [Rule.on_lift_bind, hrecord]
    exact (Passes.record problem t.start p).trans hpass
  rw [Rule.on_lift_bind, hrecord, List.nil_append]
  dsimp only
  rcases hr : (f ()).on (p.record problem t.start) with ⟨_ | b, r⟩ <;> rw [hr] at k
  · refine ⟨k.1, List.forall_mem_append.mpr ⟨k.2, List.forall_mem_singleton.mpr ?_⟩⟩
    exact tellsOf_of_mem hcode (List.mem_append_left _ (List.mem_append_left _ ht)) htext hend
  · refine ⟨k.1, List.forall_mem_append.mpr ⟨k.2, List.forall_mem_singleton.mpr ?_⟩⟩
    exact tellsOf_of_mem hcode (List.mem_append_left _ ht) htext hend

/-- Giving up at the next token, or at one that was passed over before. -/
lemma giveUp {problem : Problem} (hcode : problem.code ≠ .emptyBody)
    (ht : t = p.current ∨ t ∈ before ∧ t.kind ≠ .error ∧ t.kind ≠ .text ∧ t.kind ≠ .endOfInput) :
    (Template.giveUp problem t : Rule α).Lands stop goal before p := by
  intro hp hin
  have hinner := isInner_current hp hin
  obtain ⟨htext, -, hend⟩ := ne_of_isInner hinner
  unfold Template.giveUp
  split
  · rename_i hk
    have hk : p.current.kind = .error := by
      have hk : t.kind = .error := by simpa using hk
      rcases ht with rfl | ht
      · exact hk
      · exact absurd hk ht.2.1
    refine ⟨[p.current], [⟨.lexical p.current.text, p.current.start⟩],
      (Passes.advance hp hend).trans (Passes.record _ _ _),
      List.forall_mem_singleton.mpr hinner, ?_, ?_⟩
    · exact List.forall_mem_singleton.mpr (.inl hk)
    · exact List.forall_mem_singleton.mpr
        (tellsOf_of_mem (code_lexical_ne _) (by simp) htext hend)
  · refine ⟨[], [⟨problem, t.start⟩], .record problem t.start p, nofun, nofun, ?_⟩
    have hahead : (p.record problem t.start).ahead = [p.current] := by
      rw [Progress.ahead, Progress.current_record, if_pos hinner]
    refine List.forall_mem_singleton.mpr ?_
    change Diagnostic.TellsOf (before ++ [] ++ (p.record problem t.start).ahead) _
    rw [hahead]
    rcases ht with rfl | ⟨ht, -, htext, hend⟩
    · exact tellsOf_of_mem hcode (by simp) htext hend
    · exact tellsOf_of_mem hcode (by simp [ht]) htext hend

lemma failure : (Alternative.failure : Rule α).Lands stop goal before p :=
  fun _ _ => ⟨[], [], .refl p, nofun, nofun, nofun⟩

/-- A token that neither is an error nor leaves the construct, and what is done with it. -/
lemma expect_bind {kind : TokenKind} {what : String} {f : Token → Rule β} (he : kind ≠ .error)
    (hs : stop kind = false)
    (hf : ∀ t before' q, (∀ u ∈ before, u ∈ before') → t ∈ before' → t.kind = kind →
      (f t).Lands stop goal before' q) :
    (Template.expect kind what >>= f).Lands stop goal before p := by
  intro hp hin
  by_cases hk : p.current.kind = kind
  · have hadvance : (liftM advance >>= f : Rule β).Lands stop goal before p :=
      advance_bind (by simpa using hk) he hs
        (hf _ _ _ (fun u hu => List.mem_append_left _ hu) (by simp) hk)
    have hon : (Template.expect kind what >>= f).on p = (liftM advance >>= f : Rule β).on p := by
      rw [Rule.on_bind, on_expect, if_pos (by simpa using hk)]
      rfl
    rw [hon]
    exact hadvance hp hin
  · have hgive : (Template.giveUp (.expected what) p.current : Rule Token).Lands stop goal before
        p := giveUp nofun (.inl rfl)
    have hnone : ((Template.giveUp (.expected what) p.current : Rule Token).on p).1 = none := by
      unfold Template.giveUp
      split <;> rfl
    obtain ⟨ts, ds, h⟩ := hgive hp hin
    refine ⟨ts, ds, ?_⟩
    rw [Rule.on_bind, on_expect, if_neg (by simpa using hk)]
    rcases hr : (Template.giveUp (.expected what) p.current : Rule Token).on p with ⟨_ | t, q⟩
    · rw [hr] at h
      exact h
    · rw [hr] at hnone
      cases hnone

/-- What closes the construct, and a result. -/
lemma close {kind : TokenKind} {what : String} {f : Token → α} :
    (Template.expect kind what >>= fun t => Pure.pure (f t) : Rule α).Lands stop (some kind) before
      p := by
  intro hp hin
  by_cases hk : p.current.kind = kind
  · have hinner := isInner_current hp hin
    rw [Rule.on_bind, on_expect, if_pos (by simpa using hk)]
    exact ⟨[p.current], [], Passes.advance hp (ne_of_isInner hinner).2.2,
      List.forall_mem_singleton.mpr hinner, ⟨[], _, rfl, hk, nofun⟩, nofun⟩
  · have hgive : (Template.giveUp (.expected what) p.current : Rule Token).Lands stop (some kind)
        before p := giveUp nofun (.inl rfl)
    obtain ⟨ts, ds, hpass, h⟩ := hgive hp hin
    refine ⟨ts, ds, ?_⟩
    rw [Rule.on_bind, on_expect, if_neg (by simpa using hk)]
    rcases hr : (Template.giveUp (.expected what) p.current : Rule Token).on p with ⟨_ | t, q⟩ <;>
      rw [hr] at hpass h <;> exact ⟨hpass, h⟩

/-- A rule that leaves no construct leaves no directive. -/
lemma mono {x : Rule α} (h : x.Lands TokenKind.closesConstruct none before p) :
    x.Lands TokenKind.closesDirective none before p := by
  have hstop {k : TokenKind} (hk : k.closesConstruct = false) : k.closesDirective = false := by
    by_contra hc
    rw [TokenKind.closesConstruct_of_closesDirective (by simpa using hc)] at hk
    cases hk
  intro hp hin
  obtain ⟨ts, ds, hpass, hinner, k⟩ := h hp
    (hin.mono fun _ => TokenKind.closesConstruct_of_closesDirective)
  refine ⟨ts, ds, hpass, hinner, ?_⟩
  rcases hr : x.on p with ⟨_ | a, q⟩ <;> rw [hr] at k
  · exact ⟨fun t ht => (k.1 t ht).imp id hstop, k.2⟩
  · exact ⟨fun t ht => (k.1 t ht).imp id hstop, k.2⟩

end Rule.Lands

/-! ### Slots -/

lemma hint_lands : hint.Lands TokenKind.closesConstruct none before p := by
  unfold hint
  refine .look (on_isAt _ _) ?_
  split
  · rename_i hk
    refine .advance_bind hk (by decide) rfl ?_
    refine .expect_bind (by decide) rfl fun t before' q _ ht hkind => ?_
    split
    · exact .pure
    · exact .recorded nofun ht (by simp [hkind]) (by simp [hkind]) .pure
  · exact .pure

lemma slotDefault_lands : slotDefault.Lands TokenKind.closesConstruct none before p := by
  unfold slotDefault
  refine .look (on_isAt _ _) ?_
  split
  · rename_i hk
    refine .advance_bind hk (by decide) rfl ?_
    refine .look (on_current _) ?_
    split
    · rename_i hv
      rw [Bool.or_eq_true, Bool.or_eq_true] at hv
      rcases hv with (hv | hv) | hv <;> exact .advance_bind hv (by decide) rfl .pure
    · exact .giveUp nofun (.inl rfl)
  · exact .pure

lemma slotBody_lands (opening : Token) :
    (slotBody opening).Lands TokenKind.closesConstruct (some .slotClose) before p := by
  unfold slotBody
  refine .expect_bind (by decide) rfl fun name before' q _ _ _ => ?_
  refine .bind hint_lands fun h before' q _ => ?_
  exact .bind slotDefault_lands fun d before' q _ => .close

/-! ### Arguments -/

lemma moreArguments_lands (n : Nat) :
    (moreArguments n).Lands TokenKind.closesConstruct none before p := by
  induction n generalizing before p with
  | zero => exact .pure
  | succ n ih =>
    unfold moreArguments
    refine .look (on_isAt _ _) ?_
    split
    · rename_i hk
      refine .advance_bind hk (by decide) rfl ?_
      refine .expect_bind (by decide) rfl fun t before' q _ _ _ => ?_
      exact .bind ih fun ts before' q _ => .pure
    · exact .pure

lemma enclosed_lands : enclosed.Lands TokenKind.closesConstruct none before p := by
  unfold enclosed
  refine .look (on_isAt _ _) ?_
  split
  · rename_i hk
    exact .advance_bind hk (by decide) rfl .pure
  refine .look (on_isAt _ _) ?_
  split
  · rename_i hk
    refine .advance_bind hk (by decide) rfl ?_
    refine .look (on_get _) (.bind (moreArguments_lands _) fun more before' q _ => ?_)
    split <;> exact .pure
  · exact .pure

/-- In a directive the parenthesis behind the arguments leaves nothing. -/
lemma operatorArguments_lands (hl : (p.current.kind == .leftParen) = true) :
    operatorArguments.Lands TokenKind.closesDirective none before p := by
  unfold operatorArguments
  refine .advance_bind hl (by decide) rfl ?_
  refine .bind (.mono enclosed_lands) fun a before' q _ => ?_
  exact .expect_bind (by decide) rfl fun close before' q _ _ _ => .pure

lemma contextBody_lands {operator : Token} (ht : operator ∈ before)
    (hk : operator.kind = .operator) :
    (contextBody operator).Lands TokenKind.closesConstruct (some .rightParen) before p := by
  unfold contextBody
  refine .look (on_hasArguments _ _) ?_
  split
  · rename_i h
    simp only [Bool.and_eq_true] at h
    unfold operatorArguments
    refine .advance_bind h.2.1 (by decide) rfl ?_
    exact .bind enclosed_lands fun a before' q _ => .close
  · exact .giveUp nofun (.inr ⟨ht, by simp [hk]⟩)

/-! ### Conditions -/

lemma operand_lands : operand.Lands TokenKind.closesDirective none before p := by
  unfold operand
  refine .look (on_current _) ?_
  split
  · rename_i hk
    refine .advance_bind hk (by decide) rfl ?_
    refine .expect_bind (by decide) rfl fun name before' q _ _ _ => ?_
    refine .look (on_isAt _ _) ?_
    split
    · exact .look (on_current _) (.giveUp nofun (.inl rfl))
    · exact .expect_bind (by decide) rfl fun close before' q _ _ _ => .pure
  split
  · rename_i hk
    rw [Bool.and_eq_true] at hk
    exact .advance_bind hk.1 (by decide) rfl .pure
  · exact .giveUp nofun (.inl rfl)

lemma contextPresence_lands (hk : p.current.kind = .operator) :
    contextPresence.Lands TokenKind.closesDirective none before p := by
  have hat {before' : List Token} (h : ∀ u ∈ before ++ [p.current], u ∈ before') :
      p.current ∈ before' ∧ p.current.kind ≠ .error ∧ p.current.kind ≠ .text ∧
        p.current.kind ≠ .endOfInput := ⟨h _ (by simp), by simp [hk]⟩
  unfold contextPresence
  have hoperator : (p.current.kind == .operator) = true := by simpa using hk
  refine .advance_bind hoperator (by decide) rfl (.look (on_hasArguments _ _) ?_)
  split
  · rename_i h
    rw [Bool.and_eq_true] at h
    refine .bind (operatorArguments_lands h.1) fun a before' q hbefore => ?_
    split
    · split
      · exact .giveUp nofun (.inr (hat hbefore))
      · exact .pure
    · exact .giveUp nofun (.inr (hat hbefore))
  · exact .giveUp nofun (.inr (hat fun _ hu => hu))

lemma appliedTo_lands (operator : Token) :
    (appliedTo operator).Lands TokenKind.closesDirective none before p := by
  unfold appliedTo
  refine .look (on_hasArguments _ _) ?_
  split
  · rename_i h
    rw [Bool.and_eq_true] at h
    exact operatorArguments_lands h.1
  · exact .pure

lemma applied_lands (name : String) {operator : Token} (ht : operator ∈ before)
    (hk : operator.kind = .operator) (a : Argument) (span : Span) :
    (applied name operator a span).Lands TokenKind.closesDirective none before p := by
  have hat : operator ∈ before ∧ operator.kind ≠ .error ∧ operator.kind ≠ .text ∧
      operator.kind ≠ .endOfInput := ⟨ht, by simp [hk]⟩
  unfold applied
  dsimp only
  split
  · split
    · split
      · exact .giveUp nofun (.inr hat)
      · exact .pure
    · exact .giveUp nofun (.inr hat)
  · split
    · exact .giveUp nofun (.inr hat)
    · exact .pure

lemma predicate_lands (hk : p.current.kind = .operator) (name : String) (span : Span) :
    (predicate name span).Lands TokenKind.closesDirective none before p := by
  unfold predicate
  have hoperator : (p.current.kind == .operator) = true := by simpa using hk
  refine .advance_bind hoperator (by decide) rfl ?_
  refine .bind (appliedTo_lands _) fun a before' q hbefore => ?_
  exact applied_lands name (hbefore _ (by simp)) hk _ _

/-- Both `OR` and `AND`: the condition of a first operand and those behind it. -/
private lemma joined_lands {x : Rule Condition} {tail : Rule (List Condition)}
    {join : List Condition → Span → Condition} {start : Token}
    (hx : x.Lands TokenKind.closesDirective none before p)
    (htail : ∀ before q, tail.Lands TokenKind.closesDirective none before q) :
    (do
      let first ← x
      let more ← tail
      match more with
      | [] => return first
      | _ => return join (first :: more) ⟨start.start, (← previous).stop⟩ : Rule Condition).Lands
      TokenKind.closesDirective none before p := by
  refine .bind hx fun c before' q _ => .bind (htail _ _) fun cs before' q _ => ?_
  split
  · exact .pure
  · exact .look (on_previous _) .pure

/-- Both `OR` and `AND`: the operands behind the first. -/
private lemma tail_lands {word : String} {x : Rule Condition} {tail : Rule (List Condition)}
    (hx : ∀ before q, x.Lands TokenKind.closesDirective none before q)
    (htail : ∀ before q, tail.Lands TokenKind.closesDirective none before q) :
    (do
      if ← isAtKeyword word then
        let _ ← advance
        let c ← x
        return c :: (← tail)
      else return [] : Rule (List Condition)).Lands TokenKind.closesDirective none before p := by
  refine .look (on_isAtKeyword _ _) ?_
  split
  · rename_i hk
    rw [isKeyword, Bool.and_eq_true] at hk
    refine .advance_bind hk.1 (by decide) rfl ?_
    exact .bind (hx _ _) fun c before' q _ => .bind (htail _ _) fun cs before' q _ => .pure
  · exact .pure

/-- The layers of conditions, with any fuel. -/
structure ConditionsLand (n : Nat) : Prop where
  orCondition (before : List Token) (p : Progress) :
    (orCondition n).Lands TokenKind.closesDirective none before p
  orRest (before : List Token) (p : Progress) :
    (orRest n).Lands TokenKind.closesDirective none before p
  andCondition (before : List Token) (p : Progress) :
    (andCondition n).Lands TokenKind.closesDirective none before p
  andRest (before : List Token) (p : Progress) :
    (andRest n).Lands TokenKind.closesDirective none before p
  notCondition (before : List Token) (p : Progress) :
    (notCondition n).Lands TokenKind.closesDirective none before p
  primary (before : List Token) (p : Progress) :
    (primary n).Lands TokenKind.closesDirective none before p

section

variable {n : Nat} (ih : ConditionsLand n)

include ih

lemma notCondition_lands_succ :
    (notCondition (n + 1)).Lands TokenKind.closesDirective none before p := by
  unfold notCondition
  refine .look (on_isAtKeyword _ _) ?_
  split
  · rename_i hk
    rw [isKeyword, Bool.and_eq_true] at hk
    refine .advance_bind hk.1 (by decide) rfl ?_
    exact .bind (ih.notCondition _ _) fun c before' q _ => .look (on_previous _) .pure
  · exact ih.primary _ _

lemma primary_lands_succ : (primary (n + 1)).Lands TokenKind.closesDirective none before p := by
  unfold primary
  refine .look (on_current _) ?_
  split
  · rename_i hk
    refine .advance_bind hk (by decide) rfl ?_
    refine .bind (ih.orCondition _ _) fun c before' q _ => ?_
    exact .expect_bind (by decide) rfl fun close before' q _ _ _ => .pure
  split
  · rename_i hk
    simp only [isKeyword, ← Bool.and_or_distrib_left, Bool.and_eq_true] at hk
    exact .advance_bind hk.1 (by decide) rfl .pure
  split
  · rename_i hk
    rw [Bool.and_eq_true] at hk
    exact contextPresence_lands (by simpa using hk.1)
  · refine .bind operand_lands fun v before' q _ => .look (on_isAt _ _) ?_
    split
    · rename_i hk
      exact predicate_lands (by simpa using hk) _ _
    · exact .pure

end

lemma conditionsLand (n : Nat) : ConditionsLand n := by
  induction n with
  | zero => constructor <;> exact fun _ _ => .failure
  | succ n ih =>
    exact {
      orCondition := fun _ _ => .look (on_current _) (joined_lands (ih.andCondition _ _) ih.orRest)
      orRest := fun _ _ => tail_lands ih.andCondition ih.orRest
      andCondition := fun _ _ => .look (on_current _)
        (joined_lands (ih.notCondition _ _) ih.andRest)
      andRest := fun _ _ => tail_lands ih.notCondition ih.andRest
      notCondition := fun _ _ => notCondition_lands_succ ih
      primary := fun _ _ => primary_lands_succ ih }

lemma closedCondition_lands :
    closedCondition.Lands TokenKind.closesDirective (some .directiveClose) before p := by
  unfold closedCondition
  exact .look (on_get _) (.bind ((conditionsLand _).orCondition _ _) fun c before' q _ => .close)

/-- What may stand in front of the name of a part. -/
lemma nameMark_lands (directive : Token) :
    (liftM (nameMark directive) : Rule Unit).Lands TokenKind.closesDirective none before p := by
  intro hp hin
  have hon : (liftM (nameMark directive) : Rule Unit).on p =
      (some (), ((nameMark directive).on p).2) := rfl
  rw [hon, on_nameMark]
  dsimp only
  split
  · rename_i h
    simp only [isNameMark, Bool.and_eq_true] at h
    have hkind : p.current.kind = .identifier := by simpa using h.1.1.2
    have hinner := isInner_current hp hin
    have hadvance := Passes.advance hp (ne_of_isInner hinner).2.2
    have hlive := hadvance.live hp
    have hin' := inside_advance hp hin (by simp [hkind]) (by rw [hkind]; rfl)
    have hkind' : p.advance.current.kind = .equals := by
      rw [← Progress.second_eq hp (ne_of_isInner hinner).2.2]
      simpa using h.2
    have hinner' := isInner_current hlive hin'
    refine ⟨[p.current] ++ [p.advance.current], [] ++ [],
      hadvance.trans (Passes.advance hlive (ne_of_isInner hinner').2.2), ?_, ?_, by simp⟩
    · simp [hinner, hinner']
    · simp [Crosses, hkind, hkind', TokenKind.closesDirective]
  · exact Rule.Lands.pure (a := ()) hp hin

lemma directiveArgument_lands (directive : Token) :
    (directiveArgument directive).Lands TokenKind.closesDirective (some .directiveClose) before
      p := by
  unfold directiveArgument
  refine .bind (nameMark_lands directive) fun _ before' q _ => .look (on_current _) ?_
  split
  · rename_i hk
    rw [Bool.or_eq_true] at hk
    rcases hk with hk | hk <;> exact .advance_bind hk (by decide) rfl .close
  · exact .giveUp nofun (.inl rfl)

/-! ### Recovery -/

/-- The tokens of a construct up to the one that closes it, which is missing only where there is
an error. -/
inductive Extent (goal : TokenKind) : List Token → Prop
  | closed {us : List Token} {t : Token}
      (hus : ∀ u ∈ us, u.kind.isInner = true ∧ u.kind ≠ goal) (ht : t.kind = goal) :
      Extent goal (us ++ [t])
  | broken {us : List Token} (hus : ∀ u ∈ us, u.kind.isInner = true ∧ u.kind ≠ goal)
      (he : ∃ u ∈ us, u.kind = .error) : Extent goal us

lemma Extent.prepend (h : Extent goal us)
    (hts : ∀ t ∈ ts, t.kind.isInner = true ∧ t.kind ≠ goal) : Extent goal (ts ++ us) := by
  cases h with
  | closed hus ht =>
    rw [← List.append_assoc]
    exact .closed (List.forall_mem_append.mpr ⟨hts, hus⟩) ht
  | broken hus he =>
    exact .broken (List.forall_mem_append.mpr ⟨hts, hus⟩)
      (he.imp fun u hu => hu.imp_left (List.mem_append_right _))

/-- Behind an error the rest of a construct may be missing. -/
lemma Extent.behind_error (hts : ∀ t ∈ ts, t.kind.isInner = true ∧ t.kind ≠ goal)
    (he : ∃ t ∈ ts, t.kind = .error)
    (hus : Extent goal us ∨ ∀ u ∈ us, u.kind.isInner = true ∧ u.kind ≠ goal) :
    Extent goal (ts ++ us) := by
  rcases hus with hus | hus
  · exact hus.prepend hts
  · exact .broken (List.forall_mem_append.mpr ⟨hts, hus⟩)
      (he.imp fun t ht => ht.imp_left (List.mem_append_left _))

/-- The faults start where the tokens do. -/
def Told (ts : List Token) (ds : List Diagnostic) : Prop := ∀ d ∈ ds, d.TellsOf ts

/-- Recovery in front of the tokens `us`: it passes over `ts` and tells of the errors among them.
The next token is passed over if it is one of a construct, and inside a construct recovery goes on
to the end of it. -/
structure Recovers (goal : TokenKind) (us ts : List Token) (ds : List Diagnostic) : Prop where
  told : Told ts ds
  next : ∀ t ∈ us.head?, t.kind.isInner = true → t ∈ ts
  shape : Extent goal ts ∨ ∀ t ∈ ts, t.kind.isInner = true ∧ t.kind ≠ goal
  extent : Inside (· == goal) us → Extent goal ts

namespace Recovers

lemma nil : Recovers goal [] [] [] := ⟨nofun, nofun, .inr nofun, nofun⟩

/-- At the end of the construct. -/
lemma closed (hk : t.kind = goal) : Recovers goal (t :: us) [t] [] :=
  have hextent : Extent goal ([] ++ [t]) := .closed nofun hk
  { told := nofun
    next := by simp
    shape := .inl hextent
    extent := fun _ => hextent }

/-- At a token that stands in no construct. -/
lemma outer (hk : t.kind.isInner = false) : Recovers goal (t :: us) [] [] where
  told := nofun
  next := by simp [hk]
  shape := .inr nofun
  extent h := by simp [h.1] at hk

lemma told_error (hk : t.kind = .error) (ht : t ∈ ts) : Told ts [⟨.lexical t.text, t.start⟩] :=
  List.forall_mem_singleton.mpr
    (tellsOf_of_mem (code_lexical_ne _) ht (by simp [hk]) (by simp [hk]))

/-- At an error that ends the construct. -/
lemma broken (hk : t.kind = .error) (hne : t.kind ≠ goal) :
    Recovers goal (t :: us) [t] [⟨.lexical t.text, t.start⟩] :=
  have hextent : Extent goal [t] :=
    .broken (List.forall_mem_singleton.mpr ⟨by rw [hk]; rfl, hne⟩) ⟨t, List.mem_cons_self, hk⟩
  { told := told_error hk List.mem_cons_self
    next := by simp
    shape := .inl hextent
    extent := fun _ => hextent }

/-- At an error behind which the construct goes on. -/
lemma error (hk : t.kind = .error) (hne : t.kind ≠ goal) (h : Recovers goal us ts ds) :
    Recovers goal (t :: us) ([t] ++ ts) (ds ++ [⟨.lexical t.text, t.start⟩]) :=
  have hextent : Extent goal ([t] ++ ts) :=
    .behind_error (List.forall_mem_singleton.mpr ⟨by rw [hk]; rfl, hne⟩)
      ⟨t, List.mem_cons_self, hk⟩ h.shape
  { told := List.forall_mem_append.mpr
      ⟨fun d hd => tellsOf_mono (h.told d hd) fun _ => List.mem_append_right _,
        told_error hk List.mem_cons_self⟩
    next := by simp
    shape := .inl hextent
    extent := fun _ => hextent }

/-- At any other token of the construct. -/
lemma cons (hinner : t.kind.isInner = true) (hk : t.kind ≠ .error) (hne : t.kind ≠ goal)
    (h : Recovers goal us ts ds) : Recovers goal (t :: us) ([t] ++ ts) ds :=
  have hfirst : ∀ u ∈ [t], u.kind.isInner = true ∧ u.kind ≠ goal :=
    List.forall_mem_singleton.mpr ⟨hinner, hne⟩
  { told := fun d hd => tellsOf_mono (h.told d hd) fun _ => List.mem_append_right _
    next := by simp
    shape := h.shape.imp (·.prepend hfirst) fun hts => List.forall_mem_append.mpr ⟨hfirst, hts⟩
    extent := fun hin => by
      have hcons : Inside (· == goal) ([t] ++ us) := hin
      refine (h.extent (hcons.of_append ?_)).prepend hfirst
      exact List.forall_mem_singleton.mpr ⟨hk, by simpa using hne⟩ }

/-- The token at which a rule was given up is the first that recovery passes over. -/
lemma mem_of_ahead (h : Recovers goal q.rest ts ds) (hq : q.Live) (ht : t ∈ q.ahead) : t ∈ ts := by
  unfold Progress.ahead at ht
  split at ht
  · rename_i hcurrent
    obtain rfl := List.mem_singleton.mp ht
    refine h.next _ ?_ hcurrent
    rw [hq.rest_eq]
    exact rfl
  · cases ht

/-- Behind an error the end of a construct may be missing, otherwise it is still ahead. -/
lemma extent_append (h : Recovers goal q.rest us ds)
    (hts : ∀ t ∈ ts, t.kind.isInner = true ∧ t.kind ≠ goal)
    (hin : (∀ t ∈ ts, t.kind ≠ .error) → Inside (· == goal) q.rest) : Extent goal (ts ++ us) := by
  by_cases herror : ∃ t ∈ ts, t.kind = .error
  · exact .behind_error hts herror h.shape
  · exact (h.extent (hin fun t ht he => herror ⟨t, ht, he⟩)).prepend hts

end Recovers

/-- Recovery goes from token to token of the construct, up to one that ends it. -/
lemma skipTo_recovers (hgoal : goal.isInner = true) (prev : Token) (us : List Token)
    (ds : List Diagnostic) : ∃ ts es,
      Passes ⟨prev, us, ds⟩ ts es (skipTo goal prev us ds) ∧ Recovers goal us ts es := by
  induction us generalizing prev ds with
  | nil => exact ⟨[], [], by simpa [skipTo] using Passes.refl _, .nil⟩
  | cons t us ih =>
    have one (hk : t.kind ≠ .endOfInput) (es : List Diagnostic) :
        Passes ⟨prev, t :: us, ds⟩ [t] es ⟨t, us, es ++ ds⟩ :=
      ⟨⟨rfl, by simpa using hk, rfl⟩, rfl⟩
    unfold skipTo
    split
    · rename_i hk
      have hk : t.kind = goal := by simpa using hk
      exact ⟨[t], [], one (ne_of_isInner (hk ▸ hgoal)).2.2 [], .closed hk⟩
    rename_i hne
    have hne : t.kind ≠ goal := by simpa using hne
    split
    · rename_i hstop
      refine ⟨[], [], Passes.refl _, .outer ?_⟩
      rw [Bool.or_eq_true, Bool.or_eq_true] at hstop
      rcases hstop with (h | h) | h <;>
        simp [show t.kind = _ by simpa using h, TokenKind.isInner]
    rename_i hstop
    have hinner : t.kind.isInner = true := by
      cases hk : t.kind <;> simp_all [TokenKind.isInner]
    have hend : t.kind ≠ .endOfInput := (ne_of_isInner hinner).2.2
    split
    · rename_i hk
      have hk : t.kind = .error := by simpa using hk
      dsimp only
      split
      · exact ⟨[t], _, one hend [⟨.lexical t.text, t.start⟩], .broken hk hne⟩
      · obtain ⟨ts, es, hpass, h⟩ := ih t (⟨.lexical t.text, t.start⟩ :: ds)
        exact ⟨[t] ++ ts, _, (one hend [⟨.lexical t.text, t.start⟩]).trans hpass, h.error hk hne⟩
    · rename_i hk
      have hk : t.kind ≠ .error := by simpa using hk
      obtain ⟨ts, es, hpass, h⟩ := ih t ds
      exact ⟨[t] ++ ts, es, by simpa using (one hend []).trans hpass, h.cons hinner hk hne⟩

/-! ### Constructs -/

/-- A rule inside a construct with the recovery behind it: nothing is found but faults about its
tokens, and a construct with one end only is read up to that. -/
lemma Rule.Lands.orSkipTo {x : Rule α} (h : x.Lands stop (some goal) before p)
    (hgoal : goal.isInner = true) (hne : goal ≠ .error) (hstop : stop goal = true) (hp : p.Live)
    (hin : Inside stop p.rest) :
    (Template.orSkipTo goal x).Meets p fun ts ds _ => Told (before ++ ts) ds ∧
      ((∀ k, stop k = true → k = goal) → Extent goal ts) := by
  obtain ⟨ts, ds, hpass, hinner, k⟩ := h hp hin
  unfold Reading.Meets
  rw [on_orSkipTo]
  rcases hr : x.on p with ⟨_ | a, q⟩ <;> rw [hr] at hpass k
  · obtain ⟨hts, hds⟩ := k
    obtain ⟨us, es, hskip, hrecovers⟩ := skipTo_recovers hgoal q.previous q.rest q.found
    have hbefore : ∀ t ∈ before ++ ts ++ q.ahead, t ∈ before ++ (ts ++ us) := by
      intro t ht
      rw [← List.append_assoc]
      rcases List.mem_append.mp ht with ht | ht
      · exact List.mem_append_left _ ht
      · exact List.mem_append_right _ (hrecovers.mem_of_ahead (hpass.live hp) ht)
    refine ⟨ts ++ us, es ++ ds, hpass.trans hskip, ?_, fun honly => ?_⟩
    · refine List.forall_mem_append.mpr ⟨fun d hd => tellsOf_mono (hrecovers.told d hd)
        fun t ht => ?_, fun d hd => tellsOf_mono (hds d hd) hbefore⟩
      exact List.mem_append_right _ (List.mem_append_right _ ht)
    · refine hrecovers.extent_append (fun t ht => ⟨hinner t ht, fun hk => ?_⟩) fun hclean => ?_
      · rcases hts t ht with he | hs
        · exact hne (hk ▸ he)
        · rw [hk, hstop] at hs
          cases hs
      · rw [hpass.rest] at hin
        refine (hin.of_append fun t ht => ?_).mono fun k hk => by simpa using honly k hk
        exact ⟨hclean t ht, (hts t ht).resolve_left (hclean t ht)⟩
  · obtain ⟨⟨us, t, rfl, ht, hus⟩, hds⟩ := k
    refine ⟨_, ds, hpass, hds, fun _ => .closed (fun u hu => ⟨?_, fun hk => ?_⟩) ht⟩
    · exact hinner u (List.mem_append_left _ hu)
    · have hs := (hus u hu).2
      rw [hk, hstop] at hs
      cases hs

section

variable (hp : p.Live) (hg : Guarded p.rest)

include hp hg

/-- Behind what opens a slot or applies an operator. -/
lemma inside_construct (hk : p.current.kind = .slotOpen ∨ p.current.kind = .operator) :
    p.advance.Live ∧ Inside TokenKind.closesConstruct p.advance.rest := by
  have hadvance := Passes.advance hp (by rcases hk with hk | hk <;> simp [hk])
  rw [hadvance.rest] at hg
  exact ⟨hadvance.live hp, hg.1 hk⟩

/-- Behind a directive that is not a whole one by itself. -/
lemma inside_directive (hk : p.current.kind = .directive)
    (hopen : (p.current.lexeme, p.current.text) ∉ closerNames) :
    p.advance.Live ∧ Inside TokenKind.closesDirective p.advance.rest := by
  have hadvance := Passes.advance hp (by simp [hk])
  rw [hadvance.rest] at hg
  exact ⟨hadvance.live hp, Guarded.directive hg hk hopen⟩

lemma slot_told (hk : p.current.kind = .slotOpen) : slot.Meets p fun ts ds _ => Told ts ds := by
  obtain ⟨hlive, hin⟩ := inside_construct hp hg (.inl hk)
  unfold slot
  refine .advance_bind hp (by simp [hk]) ?_
  have hbody : (slotBody p.current).Lands TokenKind.closesConstruct (some .slotClose) [p.current]
      p.advance := slotBody_lands _
  exact (hbody.orSkipTo rfl (by decide) rfl hlive hin).mono fun _ _ _ h => h.1

lemma contextNode_told (hk : p.current.kind = .operator) :
    contextNode.Meets p fun ts ds _ => Told ts ds := by
  obtain ⟨hlive, hin⟩ := inside_construct hp hg (.inr hk)
  unfold contextNode
  refine .advance_bind hp (by simp [hk]) ?_
  have hbody := contextBody_lands (p := p.advance) (List.mem_singleton_self p.current) hk
  refine (hbody.orSkipTo rfl (by decide) rfl hlive hin).bind fun o ts ds q _ h => ?_
  have noPath : Reading.Meets (do record .noPath p.current.start; return none) q
      fun us es (_ : Option Node) => Told (p.current :: (ts ++ us)) (es ++ ds) := by
    refine .recorded (.pure (List.forall_mem_cons.mpr ⟨?_, by simpa [Told] using h.1⟩))
    exact tellsOf_of_mem nofun (by simp) (by simp [hk]) (by simp [hk])
  split
  · exact .pure (by simpa using h.1)
  · split
    · exact noPath
    · exact .pure (by simpa using h.1)
  · exact noPath

/-- The name of a directive that needs one. -/
lemma directiveArgument_told (hk : p.current.kind = .directive)
    (hopen : (p.current.lexeme, p.current.text) ∉ closerNames) (t : Token) :
    (orSkipTo .directiveClose (directiveArgument t)).Meets p.advance fun ts ds _ =>
      Told (p.current :: ts) ds := by
  obtain ⟨hlive, hin⟩ := inside_directive hp hg hk hopen
  have hargument : (directiveArgument t).Lands TokenKind.closesDirective (some .directiveClose)
      [p.current] p.advance := directiveArgument_lands t
  exact (hargument.orSkipTo rfl (by decide) rfl hlive hin).mono fun _ _ _ h => h.1

lemma reference_told (hk : p.current.kind = .directive)
    (hname : p.current.text = "IMPORT" ∨ p.current.text = "INCLUDE") :
    reference.Meets p fun ts ds _ => Told ts ds := by
  have hopen : (p.current.lexeme, p.current.text) ∉ closerNames := by
    rcases hname with h | h <;> simp [closerNames, h]
  unfold reference
  refine .advance_bind hp (by simp [hk]) ?_
  refine (directiveArgument_told hp hg hk hopen _).bind fun o ts ds q _ h => ?_
  split <;> exact .pure (by simpa using h)

/-- The condition of a directive is read up to the bracket behind it, unless it is broken. -/
lemma directiveCondition_told (hk : p.current.kind = .directive)
    (hopen : (p.current.lexeme, p.current.text) ∉ closerNames) :
    (directiveCondition p.current).Meets p.advance fun ts ds _ =>
      Told (p.current :: ts) ds ∧ Extent .directiveClose ts := by
  obtain ⟨hlive, hin⟩ := inside_directive hp hg hk hopen
  unfold directiveCondition
  refine .look (on_isAt _ _) ?_
  split
  · rename_i hclose
    have hclose : p.advance.current.kind = .directiveClose := by simpa using hclose
    refine .recorded ?_
    refine .advance_bind (p := p.advance.record _ _) hlive (by simp [hclose]) (.pure ⟨?_, ?_⟩)
    · refine List.forall_mem_singleton.mpr ?_
      exact tellsOf_of_mem nofun List.mem_cons_self (by simp [hk]) (by simp [hk])
    · have hextent : Extent .directiveClose ([] ++ [p.advance.current]) := .closed nofun hclose
      exact hextent
  · have hcondition : closedCondition.Lands TokenKind.closesDirective (some .directiveClose)
        [p.current] p.advance := closedCondition_lands
    refine (hcondition.orSkipTo rfl (by decide) rfl hlive hin).mono fun _ _ _ h => ⟨h.1, h.2 ?_⟩
    intro k hk
    cases k <;> first | rfl | cases hk

omit hg in
/-- Passing over a directive that is not read. -/
lemma skipDirective_told (hk : p.current.kind = .directive) :
    skipDirective.Meets p fun ts ds _ => (∃ us, ts = p.current :: us) ∧ Told ts ds := by
  unfold skipDirective
  refine .advance_bind hp (by simp [hk]) ?_
  split
  · obtain ⟨ts, es, hskip, h⟩ :=
      skipTo_recovers (rfl : TokenKind.directiveClose.isInner = true) p.advance.previous
        p.advance.rest p.advance.found
    exact ⟨ts, es, hskip, ⟨ts, rfl⟩, fun d hd => tellsOf_mono (h.told d hd) fun _ =>
      List.mem_cons_of_mem _⟩
  · exact .pure ⟨⟨[], rfl⟩, nofun⟩

end

end Template

end Stencil
