import Stencil.Proofs.Source.Stages
import Stencil.Proofs.Template.Account
import Stencil.Proofs.Template.Grammar
import Stencil.Proofs.Template.Proper

/-!
What reading accounts for, whether it finds a fault or not.

A piece of reading `Accounts` for itself when what it finds accounts for the tokens that it passes
over, and its result is as said if these tokens are worded. Giving up and passing over the rest of
a construct account for themselves like everything else, so that nothing is lost on the way from
one construct to the next.
-/

namespace Stencil.Template

variable {α β : Type} {p q r : Progress} {ts us : List Token} {ds es : List Diagnostic}

/-! ### Tokens passed over -/

/-- The second progress has the tokens `ts` and the faults `ds` more behind it, and the last of the
tokens is the one read last. -/
structure Passes (p : Progress) (ts : List Token) (ds : List Diagnostic) (q : Progress) : Prop
    extends Moves p ts ds q where
  previous : q.previous = ts.getLastD p.previous

namespace Passes

lemma refl (p : Progress) : Passes p [] [] p := ⟨.refl p, rfl⟩

lemma trans (h : Passes p ts ds q) (k : Passes q us es r) : Passes p (ts ++ us) (es ++ ds) r :=
  ⟨h.toMoves.trans k.toMoves, by rw [k.previous, h.previous, getLastD_append]⟩

lemma record (problem : Problem) (start : Position) (p : Progress) :
    Passes p [] [⟨problem, start⟩] (p.record problem start) := ⟨moves_record problem start p, rfl⟩

lemma advance (hp : p.Live) (hk : p.current.kind ≠ .endOfInput) :
    Passes p [p.current] [] p.advance := by
  refine ⟨moves_advance hp hk, ?_⟩
  have hr := hp.rest_eq
  rw [Progress.advance, hr]
  simp [hk]

/-- The tokens and the faults between two progresses are determined by them. -/
lemma unique (h : Moves p ts ds q) (k : Moves p us es q) : ts = us ∧ ds = es :=
  ⟨List.append_cancel_right (h.rest.symm.trans k.rest),
    List.append_cancel_right (h.found.symm.trans k.found)⟩

end Passes

/-! ### Accounts -/

/-- The tokens passed over and the faults found are related to the result as said. -/
def Reading.Meets (x : Reading α) (p : Progress)
    (E : List Token → List Diagnostic → α → Prop) : Prop :=
  ∃ ts ds, Passes p ts ds (x.on p).2 ∧ E ts ds (x.on p).1

/-- What is found accounts for the tokens passed over, and the result is as said if these are
worded. -/
def Reading.Accounts (x : Reading α) (p : Progress) (P : α → Prop) : Prop :=
  x.Meets p fun ts ds a => Account ts ds ∧ ((∀ t ∈ ts, t.Worded) → P a)

/-- The same of a rule, of its result if it has one. -/
def Rule.Accounts (x : Rule α) (p : Progress) (P : α → Prop) : Prop :=
  ∃ ts ds, Passes p ts ds (x.on p).2 ∧ Account ts ds ∧
    ((∀ t ∈ ts, t.Worded) → ∀ a ∈ (x.on p).1, P a)

/-- The kinds of token that are neither errors nor directives nor the end of the input. -/
def isPlain : TokenKind → Bool
  | .error | .directive | .endOfInput => false
  | _ => true

lemma neutral_of_isPlain {t : Token} (h : isPlain t.kind = true) : t.Neutral := by
  refine Token.neutral_of_kind ?_ ?_ <;> intro hk <;> simp [hk, isPlain] at h

lemma ne_endOfInput_of_isPlain {t : Token} (h : isPlain t.kind = true) :
    t.kind ≠ .endOfInput := by
  intro hk
  simp [hk, isPlain] at h

/-- Passing over the rest of a construct accounts for it. -/
lemma accounts_skipTo {goal : TokenKind} (hg : isPlain goal = true) (prev : Token)
    (us : List Token) (ds : List Diagnostic) : ∃ ts es,
      Passes ⟨prev, us, ds⟩ ts es (skipTo goal prev us ds) ∧ Account ts es := by
  induction us generalizing prev ds with
  | nil => exact ⟨[], [], by simpa [skipTo] using Passes.refl _, .nil⟩
  | cons t us ih =>
    have one (hk : t.kind ≠ .endOfInput) (es : List Diagnostic) :
        Passes ⟨prev, t :: us, ds⟩ [t] es ⟨t, us, es ++ ds⟩ :=
      ⟨⟨rfl, by simpa using hk, rfl⟩, rfl⟩
    unfold skipTo
    split
    · rename_i hk
      have hk : isPlain t.kind = true := by
        rw [show t.kind = goal by simpa using hk]
        exact hg
      exact ⟨[t], [], one (ne_endOfInput_of_isPlain hk) [], .token (neutral_of_isPlain hk)⟩
    split
    · exact ⟨[], [], Passes.refl _, .nil⟩
    rename_i hstop
    obtain ⟨⟨hend, -⟩, hdirective⟩ : (t.kind ≠ .endOfInput ∧ t.kind ≠ .text) ∧
        t.kind ≠ .directive := by simpa [not_or] using hstop
    split
    · rename_i hk
      have hk : t.kind = .error := by simpa using hk
      dsimp only
      split
      · exact ⟨[t], _, one hend [⟨.lexical t.text, t.start⟩], .error hk⟩
      · obtain ⟨ts, es, hpass, haccount⟩ := ih t (⟨.lexical t.text, t.start⟩ :: ds)
        exact ⟨_, _, (one hend [⟨.lexical t.text, t.start⟩]).trans hpass,
          .append (.error hk) haccount⟩
    · rename_i hk
      have hk : t.kind ≠ .error := by simpa using hk
      obtain ⟨ts, es, hpass, haccount⟩ := ih t ds
      exact ⟨_, _, (one hend []).trans hpass,
        .append (.token (Token.neutral_of_kind hk hdirective)) haccount⟩

namespace Reading.Accounts

variable {P : α → Prop} {Q : β → Prop}

lemma pure {a : α} (h : P a) : (Pure.pure a : Reading α).Accounts p P :=
  ⟨[], [], .refl p, .nil, fun _ => h⟩

lemma bind {x : Reading α} {f : α → Reading β} (hp : p.Live) (hx : x.Accounts p P)
    (hf : ∀ a q, q.Live → (f a).Accounts q fun b => P a → Q b) :
    (x >>= f : Reading β).Accounts p Q := by
  obtain ⟨ts, ds, hpass, haccount, ha⟩ := hx
  obtain ⟨us, es, hpass', haccount', hb⟩ := hf _ _ (hpass.live hp)
  refine ⟨ts ++ us, es ++ ds, hpass.trans hpass', haccount.append haccount', fun hw => ?_⟩
  obtain ⟨hts, hus⟩ := List.forall_mem_append.mp hw
  exact hb hus (ha hts)

/-- Looking at the progress without changing it. -/
lemma look {x : Reading α} {f : α → Reading β} {a : α} (hx : x.on p = (a, p))
    (h : (f a).Accounts p Q) : (x >>= f : Reading β).Accounts p Q := by
  unfold Reading.Accounts Reading.Meets
  rw [Reading.on_bind, hx]
  exact h

/-- Passing over a token that is of no account. -/
lemma advance_neutral {f : Token → Reading β} (hp : p.Live) (hk : p.current.kind ≠ .endOfInput)
    (hn : p.current.Neutral) (h : (f p.current).Accounts p.advance Q) :
    (advance >>= f : Reading β).Accounts p Q := by
  obtain ⟨us, es, hpass, haccount, hb⟩ := h
  refine ⟨_, _, (Passes.advance hp hk).trans hpass, .append (.token hn) haccount, fun hw => ?_⟩
  exact hb (List.forall_mem_append.mp hw).2

/-- Recording a fault that is about neither an error token nor a block. -/
lemma recorded {problem : Problem} {start : Position} {f : Unit → Reading α}
    (hlocal : problem.isLocal = true) (h : (f ()).Accounts (p.record problem start) P) :
    (record problem start >>= f : Reading α).Accounts p P := by
  obtain ⟨ts, ds, hpass, haccount, ha⟩ := h
  exact ⟨_, _, (Passes.record problem start p).trans hpass, .append (.fault hlocal) haccount, ha⟩

lemma recover {goal : TokenKind} (hg : isPlain goal = true) (p : Progress) :
    (Template.recover goal).Accounts p fun _ => True := by
  obtain ⟨ts, ds, hpass, haccount⟩ := accounts_skipTo hg p.previous p.rest p.found
  exact ⟨ts, ds, hpass, haccount, fun _ => trivial⟩

lemma orSkipTo {x : Rule α} {goal : TokenKind} (hg : isPlain goal = true)
    (h : x.Accounts p P) :
    (Template.orSkipTo goal x).Accounts p fun o => ∀ a ∈ o, P a := by
  obtain ⟨ts, ds, hpass, haccount, ha⟩ := h
  unfold Reading.Accounts Reading.Meets
  rw [on_orSkipTo]
  rcases hx : x.on p with ⟨_ | a, q⟩ <;> rw [hx] at hpass ha
  · obtain ⟨us, es, hpass', haccount'⟩ := accounts_skipTo hg q.previous q.rest q.found
    exact ⟨_, _, hpass.trans hpass', haccount.append haccount', fun _ => nofun⟩
  · exact ⟨ts, ds, hpass, haccount, ha⟩

end Reading.Accounts

namespace Rule.Accounts

variable {P P' : α → Prop} {Q : β → Prop}

lemma pure {a : α} (h : P a) : (Pure.pure a : Rule α).Accounts p P :=
  ⟨[], [], .refl p, .nil, fun _ _ hb => Option.some.inj hb ▸ h⟩

lemma bind {x : Rule α} {f : α → Rule β} (hp : p.Live) (hx : x.Accounts p P)
    (hf : ∀ a q, q.Live → (f a).Accounts q fun b => P a → Q b) :
    (x >>= f).Accounts p Q := by
  obtain ⟨ts, ds, hpass, haccount, ha⟩ := hx
  unfold Rule.Accounts
  rw [Rule.on_bind]
  rcases hx : x.on p with ⟨_ | a, q⟩ <;> rw [hx] at hpass ha
  · exact ⟨ts, ds, hpass, haccount, fun _ => nofun⟩
  · obtain ⟨us, es, hpass', haccount', hb⟩ := hf a q (hpass.live hp)
    refine ⟨ts ++ us, es ++ ds, hpass.trans hpass', haccount.append haccount', fun hw b hmem => ?_⟩
    obtain ⟨hts, hus⟩ := List.forall_mem_append.mp hw
    exact hb hus b hmem (ha hts a rfl)

lemma lift {x : Reading α} (h : x.Accounts p P) : (liftM x : Rule α).Accounts p P := by
  obtain ⟨ts, ds, hpass, haccount, ha⟩ := h
  exact ⟨ts, ds, hpass, haccount, fun hw b hb => Option.some.inj hb ▸ ha hw⟩

/-- Looking at the progress without changing it. -/
lemma look {x : Reading α} {f : α → Rule β} {a : α} (hx : x.on p = (a, p))
    (h : (f a).Accounts p Q) : (liftM x >>= f : Rule β).Accounts p Q := by
  unfold Rule.Accounts
  rw [Rule.on_lift_bind, hx]
  exact h

/-- Passing over a token of a plain kind. -/
lemma advance_bind {f : Token → Rule β} (hp : p.Live) (hk : isPlain p.current.kind = true)
    (h : p.advance.Live → (f p.current).Accounts p.advance fun b => p.current.Worded → Q b) :
    (liftM advance >>= f : Rule β).Accounts p Q := by
  have hadvance := Passes.advance hp (ne_endOfInput_of_isPlain hk)
  obtain ⟨us, es, hpass, haccount, hb⟩ := h (hadvance.live hp)
  refine ⟨_, _, hadvance.trans hpass, .append (.token (neutral_of_isPlain hk)) haccount, ?_⟩
  intro hw b hmem
  obtain ⟨hcurrent, hus⟩ := List.forall_mem_append.mp hw
  exact hb hus b hmem (List.forall_mem_singleton.mp hcurrent)

lemma mono {x : Rule α} (h : x.Accounts p P) (hP : ∀ a, P a → P' a) :
    x.Accounts p P' := by
  obtain ⟨ts, ds, hpass, haccount, ha⟩ := h
  exact ⟨ts, ds, hpass, haccount, fun hw a hmem => hP a (ha hw a hmem)⟩

/-- Recording a fault that is about neither an error token nor a block. -/
lemma recorded {problem : Problem} {start : Position} {f : Unit → Rule α}
    (hlocal : problem.isLocal = true) (h : (f ()).Accounts (p.record problem start) P) :
    (liftM (record problem start) >>= f : Rule α).Accounts p P := by
  obtain ⟨ts, ds, hpass, haccount, ha⟩ := h
  exact ⟨_, _, (Passes.record problem start p).trans hpass, .append (.fault hlocal) haccount, ha⟩

/-- Giving up at a token that is the next one, if it is an error. -/
lemma giveUp {problem : Problem} {t : Token} (hp : p.Live) (hlocal : problem.isLocal = true)
    (ht : t.kind = .error → p.current = t) :
    (Template.giveUp problem t : Rule α).Accounts p P := by
  unfold Template.giveUp
  split
  · rename_i hk
    have hk : p.current.kind = .error := by
      have hk : t.kind = .error := by simpa using hk
      rw [ht hk, hk]
    have hpass := (Passes.advance hp (by simp [hk])).trans
      (Passes.record (.lexical p.current.text) p.current.start _)
    exact ⟨_, _, hpass, .error hk, fun _ => nofun⟩
  · exact ⟨_, _, .record problem t.start p, .fault hlocal, fun _ => nofun⟩

lemma expect {kind : TokenKind} {what : String} (hp : p.Live) (hk : isPlain kind = true) :
    (Template.expect kind what).Accounts p fun t => t.kind = kind ∧ t.Worded := by
  unfold Rule.Accounts
  rw [on_expect]
  split
  · rename_i h
    have h : p.current.kind = kind := by simpa using h
    have hplain : isPlain p.current.kind = true := h ▸ hk
    have hadvance := Passes.advance hp (ne_endOfInput_of_isPlain hplain)
    refine ⟨_, _, hadvance, .token (neutral_of_isPlain hplain), fun hw t ht => ?_⟩
    obtain rfl := Option.some.inj ht
    exact ⟨h, List.forall_mem_singleton.mp hw⟩
  · have hgive : (Template.giveUp (.expected what) p.current : Rule Token).Accounts p
        fun t => t.kind = kind ∧ t.Worded := giveUp hp rfl fun _ => rfl
    exact hgive

end Rule.Accounts

end Stencil.Template
