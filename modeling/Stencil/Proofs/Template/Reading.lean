import Mathlib.Tactic.Common
import Stencil.Template.Parse

/-!
What a piece of reading does to the progress of a parse.

A piece of reading passes over some tokens and finds some faults (`Moves`). A rule `Yields` a
relation between tokens and results when its result is related to the tokens passed over,
unless a fault was found, and when it is given up only with a fault. It `Reads` some tokens
when it passes over exactly these and finds no fault. The first is how the grammar says what
the parser may do, the second how it says what the parser must do; both compose along `bind`.
-/

namespace Stencil.Template

variable {α β : Type}

/-- What a piece of reading comes to. -/
def Reading.on (r : Reading α) (p : Progress) : α × Progress := r.run p

/-- What a rule comes to, nothing when it is given up. -/
def Rule.on (r : Rule α) (p : Progress) : Option α × Progress := r.run.run p

lemma Reading.on_bind (x : Reading α) (f : α → Reading β) (p : Progress) :
    (x >>= f : Reading β).on p = Reading.on (f (x.on p).1) (x.on p).2 := rfl

lemma Rule.on_lift_bind (x : Reading α) (f : α → Rule β) (p : Progress) :
    Rule.on (liftM x >>= f : Rule β) p = Rule.on (f (x.on p).1) (x.on p).2 := rfl

lemma Rule.on_bind (x : Rule α) (f : α → Rule β) (p : Progress) :
    Rule.on (x >>= f) p = match x.on p with
      | (some a, q) => (f a).on q
      | (none, q) => (none, q) := by
  unfold Rule.on
  rw [OptionT.run_bind, Option.elimM, StateT.run_bind]
  rcases x.run.run p with ⟨_ | a, q⟩ <;> rfl

lemma on_get (p : Progress) : Reading.on get p = (p, p) := rfl
lemma on_current (p : Progress) : Reading.on current p = (p.current, p) := rfl
lemma on_previous (p : Progress) : Reading.on previous p = (p.previous, p) := rfl
lemma on_advance (p : Progress) : Reading.on advance p = (p.current, p.advance) := rfl
lemma on_isAt (kind : TokenKind) (p : Progress) :
    Reading.on (isAt kind) p = (p.current.kind == kind, p) := rfl
lemma on_isAtKeyword (word : String) (p : Progress) :
    Reading.on (isAtKeyword word) p = (isKeyword word p.current, p) := rfl
lemma on_isAtDirective (names : List String) (p : Progress) :
    Reading.on (isAtDirective names) p =
      (p.current.kind == .directive && names.contains p.current.text, p) := rfl
lemma on_hasArguments (operator : Token) (p : Progress) :
    Reading.on (hasArguments operator) p =
      (p.current.kind == .leftParen && p.current.start.offset == operator.stop.offset, p) := rfl

section

variable (prev t : Token) (us : List Token) (ds : List Diagnostic)

lemma current_cons : Reading.on current ⟨prev, t :: us, ds⟩ = (t, ⟨prev, t :: us, ds⟩) := rfl
lemma isAt_cons (kind : TokenKind) : Reading.on (isAt kind) ⟨prev, t :: us, ds⟩ =
    (t.kind == kind, ⟨prev, t :: us, ds⟩) := rfl
lemma isAtKeyword_cons (word : String) : Reading.on (isAtKeyword word) ⟨prev, t :: us, ds⟩ =
    (isKeyword word t, ⟨prev, t :: us, ds⟩) := rfl
lemma isAtDirective_cons (names : List String) :
    Reading.on (isAtDirective names) ⟨prev, t :: us, ds⟩ =
      (t.kind == .directive && names.contains t.text, ⟨prev, t :: us, ds⟩) := rfl
lemma hasArguments_cons (operator : Token) :
    Reading.on (hasArguments operator) ⟨prev, t :: us, ds⟩ =
      (t.kind == .leftParen && t.start.offset == operator.stop.offset, ⟨prev, t :: us, ds⟩) := rfl

end

lemma on_expect (kind : TokenKind) (what : String) (p : Progress) :
    (expect kind what).on p = if p.current.kind == kind then (some p.current, p.advance)
      else (giveUp (.expected what) p.current : Rule Token).on p := by
  unfold expect
  rw [Rule.on_lift_bind, on_current]
  dsimp only
  split <;> rfl

lemma on_orSkipTo (goal : TokenKind) (r : Rule α) (p : Progress) :
    (orSkipTo goal r).on p = match r.on p with
      | (some a, q) => (some a, q)
      | (none, q) => (none, skipTo goal q.previous q.rest q.found) := by
  unfold orSkipTo Reading.on Rule.on
  rw [StateT.run_bind]
  rcases r.run.run p with ⟨_ | a, q⟩ <;> rfl

/-! ### Tokens passed over and faults found -/

/-- The end of the input is still ahead. -/
def Progress.Live (p : Progress) : Prop := ∃ t ∈ p.rest, t.kind = .endOfInput

/-- The second progress has the tokens `ts` and the faults `ds` more behind it. -/
structure Moves (p : Progress) (ts : List Token) (ds : List Diagnostic) (q : Progress) : Prop where
  rest : p.rest = ts ++ q.rest
  inside : ∀ t ∈ ts, t.kind ≠ .endOfInput
  found : q.found = ds ++ p.found

namespace Moves

variable {p q r : Progress} {ts us : List Token} {ds es : List Diagnostic}

lemma refl (p : Progress) : Moves p [] [] p := ⟨rfl, by simp, rfl⟩

lemma trans (h : Moves p ts ds q) (k : Moves q us es r) : Moves p (ts ++ us) (es ++ ds) r where
  rest := by rw [h.rest, k.rest, List.append_assoc]
  inside t ht := by
    rcases List.mem_append.mp ht with ht | ht
    · exact h.inside t ht
    · exact k.inside t ht
  found := by rw [k.found, h.found, List.append_assoc]

lemma live (h : Moves p ts ds q) (hp : p.Live) : q.Live := by
  obtain ⟨t, ht, he⟩ := hp
  rw [h.rest] at ht
  rcases List.mem_append.mp ht with ht | ht
  · exact absurd he (h.inside t ht)
  · exact ⟨t, ht, he⟩

lemma length (h : Moves p ts ds q) : p.rest.length = ts.length + q.rest.length := by
  rw [h.rest, List.length_append]

/-- Nothing new was found exactly when the list of faults is the same. -/
lemma clean_iff (h : Moves p ts ds q) : ds = [] ↔ q.found = p.found := by
  rw [h.found]
  exact ⟨fun hd => by simp [hd], fun hf => by simpa using hf⟩

end Moves

lemma Progress.Live.rest_eq {p : Progress} (h : p.Live) :
    p.rest = p.current :: p.rest.tail := by
  obtain ⟨t, ht, -⟩ := h
  rcases hr : p.rest with _ | ⟨u, us⟩
  · simp [hr] at ht
  · simp [Progress.current, hr]

/-- Advancing passes over the current token, unless that is the end of the input. -/
lemma moves_advance {p : Progress} (h : p.Live) (hk : p.current.kind ≠ .endOfInput) :
    Moves p [p.current] [] p.advance := by
  have hr := h.rest_eq
  have ha : p.advance = { p with previous := p.current, rest := p.rest.tail } := by
    rw [Progress.advance, hr]
    simp [hk]
  exact ⟨by rw [ha]; simpa using hr, by simpa using hk, by simp [ha]⟩

/-- The token behind the current one is the next one when that is passed over. -/
lemma Progress.Live.headD_drop {p : Progress} (h : p.Live)
    (hk : p.current.kind ≠ .endOfInput) :
    (p.rest.drop 1).headD p.current = p.advance.current := by
  have hadvance := moves_advance h hk
  rw [hadvance.rest, (hadvance.live h).rest_eq]
  rfl

/-- The token behind the next one. -/
def Progress.second (p : Progress) : Token := (p.rest.drop 1).headD p.current

lemma Progress.second_eq {p : Progress} (hp : p.Live) (hk : p.current.kind ≠ .endOfInput) :
    p.second = p.advance.current := hp.headD_drop hk

/-- The directive and the two tokens behind it are `[#SECTION name=`. -/
def isNameMark (directive t next : Token) : Bool :=
  directive.text == "SECTION" && t.kind == .identifier && t.text == "name" &&
    next.kind == .equals

lemma on_nameMark (directive : Token) (p : Progress) : (nameMark directive).on p =
    ((), if isNameMark directive p.current p.second then p.advance.advance else p) := by
  have hmark : (nameMark directive).on p = Reading.on
      (if isNameMark directive p.current p.second then do
        let _ ← advance
        let _ ← advance
      else pure ()) p := rfl
  rw [hmark]
  by_cases h : isNameMark directive p.current p.second = true
  · rw [if_pos h, if_pos h]
    rfl
  · rw [if_neg h, if_neg h]
    rfl

@[simp] lemma Progress.rest_record (problem : Problem) (start : Position) (p : Progress) :
    (p.record problem start).rest = p.rest := rfl

@[simp] lemma Progress.current_record (problem : Problem) (start : Position) (p : Progress) :
    (p.record problem start).current = p.current := rfl

lemma moves_record (problem : Problem) (start : Position) (p : Progress) :
    Moves p [] [⟨problem, start⟩] (p.record problem start) := ⟨rfl, by simp, rfl⟩

/-- Advancing from anywhere passes over one token or none. -/
lemma moves_advance_any (p : Progress) : ∃ ts, Moves p ts [] p.advance := by
  rcases hr : p.rest with _ | ⟨t, us⟩
  · exact ⟨[], by simp [Progress.advance, hr, Moves.refl]⟩
  · by_cases hk : t.kind = .endOfInput
    · exact ⟨[], by simp [Progress.advance, hr, hk, Moves.refl]⟩
    · exact ⟨[t], ⟨by simp [Progress.advance, hr, hk], by simpa using hk,
        by simp [Progress.advance, hr, hk]⟩⟩

lemma moves_skipTo (goal : TokenKind) (hg : goal ≠ .endOfInput) (prev : Token) (us : List Token)
    (ds : List Diagnostic) : ∃ ts es, Moves ⟨prev, us, ds⟩ ts es (skipTo goal prev us ds) := by
  induction us generalizing prev ds with
  | nil => exact ⟨[], [], by simpa [skipTo] using Moves.refl _⟩
  | cons t us ih =>
    by_cases hk : t.kind = .endOfInput
    · refine ⟨[], [], ?_⟩
      simpa [skipTo, hk, hg.symm] using Moves.refl _
    have one (ds' : List Diagnostic) : Moves ⟨prev, t :: us, ds⟩ [t] ds' ⟨t, us, ds' ++ ds⟩ :=
      ⟨rfl, by simpa using hk, rfl⟩
    unfold skipTo
    split
    · exact ⟨[t], [], by simpa using one []⟩
    · split
      · exact ⟨[], [], Moves.refl _⟩
      · split
        · dsimp only
          split
          · exact ⟨[t], [_], one [⟨.lexical t.text, t.start⟩]⟩
          · obtain ⟨ts, es, h⟩ := ih t (⟨.lexical t.text, t.start⟩ :: ds)
            exact ⟨_, _, (one [⟨.lexical t.text, t.start⟩]).trans h⟩
        · obtain ⟨ts, es, h⟩ := ih t ds
          exact ⟨_, _, (one []).trans h⟩

/-! ### What reading yields -/

/-- The result is related to the tokens passed over, unless a fault was found. -/
def Reading.Gives (r : Reading α) (p : Progress) (D : List Token → α → Prop) : Prop :=
  ∃ ts ds, Moves p ts ds (r.on p).2 ∧ (ds = [] → D ts (r.on p).1)

/-- The same, and at least one token was passed over. -/
def Reading.Takes (r : Reading α) (p : Progress) (D : List Token → α → Prop) : Prop :=
  ∃ ts ds, ts ≠ [] ∧ Moves p ts ds (r.on p).2 ∧ (ds = [] → D ts (r.on p).1)

/-- There is a result, related to the tokens passed over, unless a fault was found. -/
def Rule.Yields (r : Rule α) (p : Progress) (D : List Token → α → Prop) : Prop :=
  ∃ ts ds, Moves p ts ds (r.on p).2 ∧ (ds = [] → ∃ a, (r.on p).1 = some a ∧ D ts a)

namespace Reading.Gives

variable {p : Progress} {D : List Token → α → Prop} {E : List Token → β → Prop}

lemma bind {x : Reading α} {f : α → Reading β} (hx : x.Gives p D)
    (hf : ∀ a ts ds q, Moves p ts ds q → (ds = [] → D ts a) →
      (f a).Gives q fun us b => ds = [] → E (ts ++ us) b) : (x >>= f : Reading β).Gives p E := by
  obtain ⟨ts, ds, hm, hd⟩ := hx
  obtain ⟨us, es, hm', he⟩ := hf _ ts ds _ hm hd
  refine ⟨ts ++ us, es ++ ds, hm.trans hm', fun h => ?_⟩
  obtain ⟨h1, h2⟩ := List.append_eq_nil_iff.mp h
  exact he h1 h2

lemma mono {D' : List Token → α → Prop} {r : Reading α} (h : r.Gives p D)
    (hD : ∀ ts a, D ts a → D' ts a) : r.Gives p D' := by
  obtain ⟨ts, ds, hm, hd⟩ := h
  exact ⟨ts, ds, hm, fun h => hD ts _ (hd h)⟩

lemma pure {a : α} (h : D [] a) : (Pure.pure a : Reading α).Gives p D :=
  ⟨[], [], Moves.refl p, fun _ => h⟩

/-- Looking at the progress without changing it. -/
lemma look {x : Reading α} {f : α → Reading β} {a : α} (hx : x.on p = (a, p))
    (h : (f a).Gives p E) : (x >>= f : Reading β).Gives p E := by
  unfold Reading.Gives
  rw [Reading.on_bind, hx]
  exact h

/-- Behind a recorded fault every result is allowed. -/
lemma recorded {problem : Problem} {start : Position} {f : Unit → Reading α}
    (h : (f ()).Gives (p.record problem start) fun _ _ => True) :
    (record problem start >>= f : Reading α).Gives p D := by
  obtain ⟨ts, ds, hm, -⟩ := h
  exact ⟨_, _, (moves_record problem start p).trans hm, fun h => by simp at h⟩

lemma recover {goal : TokenKind} (hg : goal ≠ .endOfInput) :
    (Template.recover goal).Gives p fun _ _ => True := by
  obtain ⟨ts, ds, h⟩ := moves_skipTo goal hg p.previous p.rest p.found
  exact ⟨ts, ds, h, fun _ => trivial⟩

lemma orSkipTo {r : Rule α} {goal : TokenKind} (hg : goal ≠ .endOfInput) (h : r.Yields p D) :
    (Template.orSkipTo goal r).Gives p fun ts o => ∃ a, o = some a ∧ D ts a := by
  obtain ⟨ts, ds, hm, hd⟩ := h
  unfold Reading.Gives
  rw [on_orSkipTo]
  rcases hr : r.on p with ⟨_ | a, q⟩ <;> rw [hr] at hm hd
  · obtain ⟨us, es, hs⟩ := moves_skipTo goal hg q.previous q.rest q.found
    refine ⟨_, _, hm.trans hs, fun h => ?_⟩
    obtain ⟨a, ha, -⟩ := hd (List.append_eq_nil_iff.mp h).2
    exact absurd ha (by simp)
  · exact ⟨ts, ds, hm, hd⟩

end Reading.Gives

namespace Reading.Takes

variable {p : Progress} {D : List Token → α → Prop} {E : List Token → β → Prop}

lemma gives {r : Reading α} (h : r.Takes p D) : r.Gives p D := by
  obtain ⟨ts, ds, -, hm, hd⟩ := h
  exact ⟨ts, ds, hm, hd⟩

/-- Passing over the current token. -/
lemma advance (hp : p.Live) (hk : p.current.kind ≠ .endOfInput) :
    Template.advance.Takes p fun ts t => ts = [t] ∧ t = p.current :=
  ⟨_, _, List.cons_ne_nil _ _, moves_advance hp hk, fun _ => ⟨rfl, rfl⟩⟩

/-- Passing over the current token first. -/
lemma advance_bind {f : Token → Reading β} (hp : p.Live) (hk : p.current.kind ≠ .endOfInput)
    (h : (f p.current).Gives p.advance fun us b => E (p.current :: us) b) :
    (Template.advance >>= f : Reading β).Takes p E := by
  obtain ⟨us, es, hm, he⟩ := h
  refine ⟨_, _, List.cons_ne_nil _ _, (moves_advance hp hk).trans hm, fun h => ?_⟩
  exact he (by simpa using h)

/-- Behind a recorded fault every result is allowed. -/
lemma recorded {problem : Problem} {start : Position} {f : Unit → Reading α}
    (h : (f ()).Takes (p.record problem start) fun _ _ => True) :
    (record problem start >>= f : Reading α).Takes p D := by
  obtain ⟨ts, ds, hne, hm, -⟩ := h
  exact ⟨ts, _, hne, (moves_record problem start p).trans hm, fun h => by simp at h⟩

lemma skipDirective (hp : p.Live) (hk : p.current.kind ≠ .endOfInput) :
    Template.skipDirective.Takes p fun _ _ => True := by
  refine .advance_bind hp hk ?_
  split
  · exact .recover (by decide)
  · exact .pure trivial

end Reading.Takes

namespace Rule.Yields

variable {p : Progress} {D : List Token → α → Prop} {E : List Token → β → Prop}

lemma mono {D' : List Token → α → Prop} {r : Rule α} (h : r.Yields p D)
    (hD : ∀ ts a, D ts a → D' ts a) : r.Yields p D' := by
  obtain ⟨ts, ds, hm, hd⟩ := h
  refine ⟨ts, ds, hm, fun h => ?_⟩
  obtain ⟨a, ha, h⟩ := hd h
  exact ⟨a, ha, hD ts a h⟩

lemma bind {x : Rule α} {f : α → Rule β} (hx : x.Yields p D)
    (hf : ∀ a ts ds q, Moves p ts ds q → (ds = [] → D ts a) →
      (f a).Yields q fun us b => ds = [] → E (ts ++ us) b) : (x >>= f).Yields p E := by
  obtain ⟨ts, ds, hm, hd⟩ := hx
  unfold Rule.Yields
  rw [Rule.on_bind]
  rcases hr : x.on p with ⟨_ | a, q⟩ <;> rw [hr] at hm hd
  · exact ⟨ts, ds, hm, fun h => by simpa using hd h⟩
  · obtain ⟨us, es, hm', he⟩ := hf a ts ds q hm fun h => by simpa using hd h
    refine ⟨ts ++ us, es ++ ds, hm.trans hm', fun h => ?_⟩
    obtain ⟨h1, h2⟩ := List.append_eq_nil_iff.mp h
    obtain ⟨b, hb, h⟩ := he h1
    exact ⟨b, hb, h h2⟩

lemma pure {a : α} (h : D [] a) : (Pure.pure a : Rule α).Yields p D :=
  ⟨[], [], Moves.refl p, fun _ => ⟨a, rfl, h⟩⟩

/-- Passing over the current token first. -/
lemma advance {f : Token → Rule β} (hp : p.Live) (hk : p.current.kind ≠ .endOfInput)
    (h : (f p.current).Yields p.advance fun us b => E (p.current :: us) b) :
    (liftM Template.advance >>= f : Rule β).Yields p E := by
  obtain ⟨us, es, hm, he⟩ := h
  refine ⟨_, _, (moves_advance hp hk).trans hm, fun h => ?_⟩
  exact he (by simpa using h)

/-- Looking at the progress without changing it. -/
lemma look {x : Reading α} {f : α → Rule β} {a : α} (hx : x.on p = (a, p))
    (h : (f a).Yields p E) : (liftM x >>= f : Rule β).Yields p E := by
  unfold Rule.Yields
  rw [Rule.on_lift_bind, hx]
  exact h

lemma lift {x : Reading α} (h : x.Gives p D) : (liftM x : Rule α).Yields p D := by
  obtain ⟨ts, ds, hm, hd⟩ := h
  exact ⟨ts, ds, hm, fun h => ⟨_, rfl, hd h⟩⟩

/-- Behind a recorded fault every result is allowed. -/
lemma recorded {problem : Problem} {start : Position} {a : α} :
    (liftM (record problem start) >>= fun _ => Pure.pure a : Rule α).Yields p D :=
  ⟨_, _, moves_record problem start p, fun h => absurd h (List.cons_ne_nil _ _)⟩

lemma giveUp (problem : Problem) (t : Token) :
    (Template.giveUp problem t : Rule α).Yields p D := by
  unfold Template.giveUp
  split
  · obtain ⟨ts, h⟩ := moves_advance_any p
    have hr := h.trans (moves_record (.lexical p.current.text) p.current.start _)
    exact ⟨_, _, hr, fun h => absurd h (List.cons_ne_nil _ _)⟩
  · exact ⟨_, _, moves_record problem t.start p, fun h => absurd h (List.cons_ne_nil _ _)⟩

lemma expect {kind : TokenKind} {what : String} (hp : p.Live) (hk : kind ≠ .endOfInput) :
    (Template.expect kind what).Yields p fun ts t => ts = [t] ∧ t.kind = kind := by
  unfold Rule.Yields
  rw [on_expect]
  split
  · rename_i h
    have h : p.current.kind = kind := by simpa using h
    exact ⟨_, _, moves_advance hp (h ▸ hk), fun _ => ⟨_, rfl, rfl, h⟩⟩
  · exact Rule.Yields.giveUp _ _

end Rule.Yields

/-! ### Reading without a fault -/

/-- From the tokens `us` the reading leaves `vs`, finds no fault, and its result is as said. -/
def Reading.Reads (r : Reading α) (us vs : List Token) (P : α → Prop) : Prop :=
  ∀ prev ds, ∃ a last, r.on ⟨prev, us, ds⟩ = (a, ⟨last, vs, ds⟩) ∧ P a

/-- From the tokens `us` the rule leaves `vs`, finds no fault, and has a result as said. -/
def Rule.Reads (r : Rule α) (us vs : List Token) (P : α → Prop) : Prop :=
  ∀ prev ds, ∃ a last, r.on ⟨prev, us, ds⟩ = (some a, ⟨last, vs, ds⟩) ∧ P a

namespace Reading.Reads

variable {us vs ws : List Token} {P : α → Prop} {Q : β → Prop}

lemma pure {a : α} (h : P a) : (Pure.pure a : Reading α).Reads us us P :=
  fun prev _ => ⟨a, prev, rfl, h⟩

lemma bind {x : Reading α} {f : α → Reading β} (hx : x.Reads us vs P)
    (hf : ∀ a, P a → (f a).Reads vs ws Q) : (x >>= f : Reading β).Reads us ws Q := by
  intro prev ds
  obtain ⟨a, last, hr, ha⟩ := hx prev ds
  obtain ⟨b, last', hr', hb⟩ := hf a ha last ds
  exact ⟨b, last', by rw [Reading.on_bind, hr]; exact hr', hb⟩

lemma advance {t : Token} (hk : t.kind ≠ .endOfInput) :
    Template.advance.Reads (t :: us) us (· = t) :=
  fun prev ds => ⟨t, t, by simp [on_advance, Progress.current, Progress.advance, hk], rfl⟩

/-- Passing over the first token. -/
lemma advance_bind {f : Token → Reading β} {t : Token} (hk : t.kind ≠ .endOfInput)
    (h : (f t).Reads us vs Q) : (Template.advance >>= f : Reading β).Reads (t :: us) vs Q :=
  (advance hk).bind fun _ ha => ha ▸ h

/-- Looking at the first token and going on as it says. -/
lemma look {x : Reading α} {f : α → Reading β} {t : Token} {a : α}
    (hx : ∀ prev ds, x.on ⟨prev, t :: us, ds⟩ = (a, ⟨prev, t :: us, ds⟩))
    (h : (f a).Reads (t :: us) vs Q) : (x >>= f : Reading β).Reads (t :: us) vs Q := by
  intro prev ds
  obtain ⟨b, last, hr, hb⟩ := h prev ds
  exact ⟨b, last, by rw [Reading.on_bind, hx]; exact hr, hb⟩

/-- The token read last is of no matter. -/
lemma previous_bind {f : Token → Reading β} (h : ∀ t, (f t).Reads us vs Q) :
    (previous >>= f : Reading β).Reads us vs Q := by
  intro prev ds
  obtain ⟨b, last, hr, hb⟩ := h prev prev ds
  exact ⟨b, last, hr, hb⟩

/-- Asking for the tokens that are left. -/
lemma get_bind {f : Progress → Reading β} (h : ∀ p : Progress, p.rest = us → (f p).Reads us vs Q) :
    ((get : Reading Progress) >>= f : Reading β).Reads us vs Q := by
  intro prev ds
  obtain ⟨b, last, hr, hb⟩ := h ⟨prev, us, ds⟩ rfl prev ds
  exact ⟨b, last, hr, hb⟩

lemma orSkipTo {goal : TokenKind} {r : Rule α} (h : r.Reads us vs P) :
    (Template.orSkipTo goal r).Reads us vs fun o => ∃ a, o = some a ∧ P a := by
  intro prev ds
  obtain ⟨a, last, hr, ha⟩ := h prev ds
  exact ⟨some a, last, by rw [on_orSkipTo, hr], a, rfl, ha⟩

end Reading.Reads

namespace Rule.Reads

variable {us vs ws : List Token} {P : α → Prop} {Q : β → Prop}

lemma mono {P' : α → Prop} {r : Rule α} (h : r.Reads us vs P) (hP : ∀ a, P a → P' a) :
    r.Reads us vs P' := by
  intro prev ds
  obtain ⟨a, last, hr, ha⟩ := h prev ds
  exact ⟨a, last, hr, hP a ha⟩

lemma pure {a : α} (h : P a) : (Pure.pure a : Rule α).Reads us us P :=
  fun prev _ => ⟨a, prev, rfl, h⟩

lemma bind {x : Rule α} {f : α → Rule β} (hx : x.Reads us vs P)
    (hf : ∀ a, P a → (f a).Reads vs ws Q) : (x >>= f).Reads us ws Q := by
  intro prev ds
  obtain ⟨a, last, hr, ha⟩ := hx prev ds
  obtain ⟨b, last', hr', hb⟩ := hf a ha last ds
  exact ⟨b, last', by rw [Rule.on_bind, hr]; exact hr', hb⟩

/-- Passing over the first token. -/
lemma advance_bind {f : Token → Rule β} {t : Token} (hk : t.kind ≠ .endOfInput)
    (h : (f t).Reads us vs Q) : (liftM Template.advance >>= f : Rule β).Reads (t :: us) vs Q := by
  intro prev ds
  obtain ⟨b, last, hr, hb⟩ := h t ds
  refine ⟨b, last, ?_, hb⟩
  simpa [Rule.on_lift_bind, on_advance, Progress.current, Progress.advance, hk] using hr

/-- Looking at the first token and going on as it says. -/
lemma look {x : Reading α} {f : α → Rule β} {t : Token} {a : α}
    (hx : ∀ prev ds, x.on ⟨prev, t :: us, ds⟩ = (a, ⟨prev, t :: us, ds⟩))
    (h : (f a).Reads (t :: us) vs Q) : (liftM x >>= f : Rule β).Reads (t :: us) vs Q := by
  intro prev ds
  obtain ⟨b, last, hr, hb⟩ := h prev ds
  exact ⟨b, last, by rw [Rule.on_lift_bind, hx]; exact hr, hb⟩

/-- The first token is of the kind asked for. -/
lemma at_kind {kind : TokenKind} {x y : Rule β} {t : Token} (ht : t.kind = kind)
    (h : x.Reads (t :: us) vs Q) :
    (do if ← isAt kind then x else y : Rule β).Reads (t :: us) vs Q := by
  refine .look (fun _ _ => isAt_cons _ _ _ _ _) ?_
  rwa [if_pos (by simpa using ht)]

/-- The first token is not of the kind asked for. -/
lemma not_at_kind {kind : TokenKind} {x y : Rule β} {t : Token} (ht : t.kind ≠ kind)
    (h : y.Reads (t :: us) vs Q) :
    (do if ← isAt kind then x else y : Rule β).Reads (t :: us) vs Q := by
  refine .look (fun _ _ => isAt_cons _ _ _ _ _) ?_
  rwa [if_neg (by simpa using ht)]

/-- Asking for the tokens that are left. -/
lemma get_bind {f : Progress → Rule β} (h : ∀ p : Progress, p.rest = us → (f p).Reads us vs Q) :
    (liftM (get : Reading Progress) >>= f : Rule β).Reads us vs Q := by
  intro prev ds
  obtain ⟨b, last, hr, hb⟩ := h ⟨prev, us, ds⟩ rfl prev ds
  exact ⟨b, last, hr, hb⟩

/-- The token read last is of no matter. -/
lemma previous_bind {f : Token → Rule β} (h : ∀ t, (f t).Reads us vs Q) :
    (liftM previous >>= f : Rule β).Reads us vs Q := by
  intro prev ds
  obtain ⟨b, last, hr, hb⟩ := h prev prev ds
  exact ⟨b, last, hr, hb⟩

lemma lift_bind {x : Reading α} {f : α → Rule β} (hx : x.Reads us vs P)
    (hf : ∀ a, P a → (f a).Reads vs ws Q) : (liftM x >>= f : Rule β).Reads us ws Q := by
  intro prev ds
  obtain ⟨a, last, hr, ha⟩ := hx prev ds
  obtain ⟨b, last', hr', hb⟩ := hf a ha last ds
  exact ⟨b, last', by rw [Rule.on_lift_bind, hr]; exact hr', hb⟩

lemma expect {kind : TokenKind} {what : String} {t : Token} (ht : t.kind = kind)
    (hk : kind ≠ .endOfInput) : (Template.expect kind what).Reads (t :: us) us (· = t) := by
  intro prev ds
  refine ⟨t, t, ?_, rfl⟩
  have hne : t.kind ≠ .endOfInput := ht ▸ hk
  simp [on_expect, Progress.current, Progress.advance, ht, hk]

end Rule.Reads

/-! ### Bodies -/

/-- The token ends a body within the open blocks. -/
def endsBody (open_ : List Block) (t : Token) : Bool :=
  t.kind == .endOfInput ||
    (t.kind == .directive && isCloser t.text && open_.any fun b => (closers b).contains t.text)

lemma kind_of_endsBody_ne {open_ : List Block} {t : Token} (h : endsBody open_ t ≠ true) :
    t.kind ≠ .endOfInput := fun hk => h (by simp [endsBody, hk])

/-- What a body reads from a token on that does not end it: a node, or nothing where there is a
fault. -/
def item (n : Nat) (open_ : List Block) (t : Token) : Reading (Option Node) := do
  match t.kind with
  | .text =>
    let _ ← advance
    return some (.text t.lexeme t.span)
  | .slotOpen => slot
  | .operator => contextNode
  | .error =>
    let t ← advance
    modify (·.recordToken t)
    return none
  | .directive =>
    let name := t.text
    if isCloser name then
      record (.strayCloser (describe t)) t.start
      skipDirective
      return none
    else if name == "IF" then ifBlock n open_
    else if name == "SECTION" then partBlock n open_
    else if name == "IMPORT" || name == "INCLUDE" then reference
    else
      record (.unknownDirective name) t.start
      skipDirective
      return none
  | _ =>
    record (.strayToken t.lexeme) t.start
    let _ ← advance
    return none

/-- A body is read item by item. -/
lemma nodes_succ (n : Nat) (open_ : List Block) : nodes (n + 1) open_ = (do
    let t ← current
    if endsBody open_ t then return []
    else
      let node ← item n open_ t
      return node.toList ++ (← nodes n open_)) := by
  funext p
  change Reading.on (nodes n.succ open_) p = Reading.on _ p
  rw [nodes, Reading.on_bind, Reading.on_bind, on_current]
  dsimp only
  unfold endsBody item
  cases hk : p.current.kind
  case directive =>
    cases hc : isCloser p.current.text
    · cases hif : p.current.text == "IF"
      · cases hpart : p.current.text == "SECTION"
        · cases href : p.current.text == "IMPORT" || p.current.text == "INCLUDE" <;>
            simp only [hc, hif, hpart, href] <;> rfl
        · simp only [hc, hif, hpart]
          rfl
      · simp only [hc, hif]
        rfl
    · cases ho : open_.any fun b => (closers b).contains p.current.text <;>
        simp only [hc] <;> rfl
  all_goals rfl

lemma on_nodes_of_ends {open_ : List Block} {p : Progress} (h : endsBody open_ p.current = true)
    (n : Nat) : (nodes (n + 1) open_).on p = ([], p) := by
  rw [nodes_succ, Reading.on_bind, on_current]
  simp only [h]
  rfl

lemma on_nodes_of_item {open_ : List Block} {p : Progress} (h : endsBody open_ p.current ≠ true)
    (n : Nat) : (nodes (n + 1) open_).on p =
      (((item n open_ p.current).on p).1.toList ++
        ((nodes n open_).on ((item n open_ p.current).on p).2).1,
        ((nodes n open_).on ((item n open_ p.current).on p).2).2) := by
  rw [nodes_succ, Reading.on_bind, on_current]
  simp only [h]
  rfl

end Stencil.Template
