import Mathlib.Tactic.Common
import Stencil.Proofs.Source.Shift
import Stencil.Proofs.Template.Reading
import Stencil.Template.Parse

/-!
How far ahead a piece of reading looks, and that it does the same elsewhere.

Two parses are compared: one with some tokens ahead, and one with the same tokens ahead, moved,
but with others behind them. A piece of reading looks at a number of tokens; where these are among
the tokens in common, it does the same in both. It never looks further than one token behind
those that it passes over, and those that read a whole construct look no further than its end.
-/

/-! ### Trees and faults behind another text: the same with their places moved -/

namespace Stencil

variable (q : Position)

def Span.shift (s : Span) : Span := ⟨q.shift s.start, q.shift s.stop⟩

mutual

/-- The condition behind a text that ends at `q`. -/
def Condition.shift : Condition → Condition
  | .literal b s => .literal b (s.shift q)
  | .ref n s => .ref n (s.shift q)
  | .not c s => .not (shift c) (s.shift q)
  | .and cs s => .and (shiftAll cs) (s.shift q)
  | .or cs s => .or (shiftAll cs) (s.shift q)
  | .compare n op a s => .compare n op a (s.shift q)
  | .judge n text s => .judge n text (s.shift q)
  | .present p s => .present p (s.shift q)

def Condition.shiftAll : List Condition → List Condition
  | [] => []
  | c :: cs => Condition.shift c :: shiftAll cs

end

mutual

/-- The node behind a text that ends at `q`. -/
def Node.shift : Node → Node
  | .text c s => .text c (s.shift q)
  | .slot n h d s => .slot n h d (s.shift q)
  | .conditional c t e s => .conditional (c.shift q) (shiftAll t) (shiftAll e) (s.shift q)
  | .part n cs s => .part n (shiftAll cs) (s.shift q)
  | .imported p s => .imported p (s.shift q)
  | .included p s => .included p (s.shift q)
  | .context p s => .context p (s.shift q)

def Node.shiftAll : List Node → List Node
  | [] => []
  | n :: ns => Node.shift n :: shiftAll ns

end

/-- The fault behind a text that ends at `q`. -/
def Diagnostic.shift (d : Diagnostic) : Diagnostic := ⟨d.problem, q.shift d.start⟩

lemma Condition.shiftAll_eq_map (cs : List Condition) : shiftAll q cs = cs.map (shift q) := by
  induction cs with
  | nil => rfl
  | cons c cs ih => rw [shiftAll, ih, List.map_cons]

lemma Node.shiftAll_eq_map (ns : List Node) : shiftAll q ns = ns.map (shift q) := by
  induction ns with
  | nil => rfl
  | cons n ns ih => rw [shiftAll, ih, List.map_cons]

lemma Token.shift_span (t : Token) : (t.shift q).span = t.span.shift q := by
  rw [Token.span, Token.shift_stop]
  rfl

lemma Node.withSpan_shift (n : Node) (s : Span) :
    (n.shift q).withSpan (s.shift q) = (n.withSpan s).shift q := by
  cases n <;> simp only [withSpan, shift]

lemma Span.origin_shift (s : Span) : s.shift .origin = s := by
  rw [shift, Position.origin_shift, Position.origin_shift]

mutual

lemma Condition.origin_shift : ∀ c : Condition, c.shift .origin = c
  | .literal .. | .ref .. | .compare .. | .judge .. | .present .. => by
    rw [shift, Span.origin_shift]
  | .not c _ => by rw [shift, Span.origin_shift, Condition.origin_shift c]
  | .and cs _ => by rw [shift, Span.origin_shift, Condition.origin_shiftAll cs]
  | .or cs _ => by rw [shift, Span.origin_shift, Condition.origin_shiftAll cs]

lemma Condition.origin_shiftAll : ∀ cs : List Condition, shiftAll .origin cs = cs
  | [] => rfl
  | c :: cs => by rw [shiftAll, Condition.origin_shift c, Condition.origin_shiftAll cs]

end

mutual

lemma Node.origin_shift : ∀ n : Node, n.shift .origin = n
  | .text .. | .slot .. | .imported .. | .included .. | .context .. => by
    rw [shift, Span.origin_shift]
  | .conditional c t e _ => by
    rw [shift, Span.origin_shift, c.origin_shift, Node.origin_shiftAll t, Node.origin_shiftAll e]
  | .part _ cs _ => by rw [shift, Span.origin_shift, Node.origin_shiftAll cs]

lemma Node.origin_shiftAll : ∀ ns : List Node, shiftAll .origin ns = ns
  | [] => rfl
  | n :: ns => by rw [shiftAll, Node.origin_shift n, Node.origin_shiftAll ns]

end

end Stencil

/-! ### Two parses -/

namespace Stencil.Template

variable {α β γ δ : Type}

/-- How the second parse differs: its places are moved behind a text that ends at `place`, and
`tail'` comes behind the tokens in common where the first parse has `tail`. -/
structure Setting where
  place : Position
  tail : List Token
  tail' : List Token

/-- The two parses are alike, with the tokens `us` ahead in common. -/
structure Alike (S : Setting) (us : List Token) (p p' : Progress) : Prop where
  previous : p'.previous = p.previous.shift S.place
  rest : p.rest = us ++ S.tail
  rest' : p'.rest = us.map (·.shift S.place) ++ S.tail'
  found : p'.found = p.found.map (·.shift S.place)
  live : p'.Live

namespace Alike

variable {S : Setting} {us : List Token} {p p' : Progress}

/-- The next token, if there are tokens in common. -/
lemma current (h : Alike S us p p') (hu : 1 ≤ us.length) :
    p'.current = p.current.shift S.place := by
  obtain ⟨u, us, rfl⟩ := List.exists_cons_of_ne_nil (List.length_pos_iff.mp hu)
  rw [Progress.current, Progress.current, h.rest, h.rest']
  rfl

lemma record (h : Alike S us p p') (problem : Problem) (start : Position) :
    Alike S us (p.record problem start) (p'.record problem (S.place.shift start)) where
  previous := h.previous
  rest := h.rest
  rest' := h.rest'
  found := by
    simp only [Progress.record, h.found, List.map_cons]
    rfl
  live := h.live

/-- Behind a token in common that is not the end. -/
lemma cons {t : Token} (h : Alike S (t :: us) p p') (ht : t.kind ≠ .endOfInput)
    {ds ds' : List Diagnostic} (hds : ds' = ds.map (·.shift S.place)) :
    Alike S us ⟨t, us ++ S.tail, ds⟩
      ⟨t.shift S.place, us.map (·.shift S.place) ++ S.tail', ds'⟩ where
  previous := rfl
  rest := rfl
  rest' := rfl
  found := hds
  live := by
    obtain ⟨e, he, hk⟩ := h.live
    rw [h.rest', List.map_cons, List.cons_append] at he
    rcases List.mem_cons.mp he with rfl | he
    · exact absurd hk ht
    · exact ⟨e, he, hk⟩

end Alike

/-- From `p` the reading passes over `ts` and finds `ds`, and in any parse alike that has `k`
tokens in common it passes over the same, and its result is as `g` says. -/
structure Sight (S : Setting) (r : Progress → α × Progress) (r' : Progress → β × Progress)
    (g : α → β) (p : Progress) (ts : List Token) (ds : List Diagnostic) (k : Nat) : Prop where
  moves : Moves p ts ds (r p).2
  alike : ∀ us p', Alike S us p p' → k ≤ us.length → (r' p').1 = g (r p).1 ∧
    ∃ vs, us = ts ++ vs ∧ Alike S vs (r p).2 (r' p').2

namespace Sight

variable {S : Setting} {r : Progress → α × Progress} {r' : Progress → β × Progress} {g : α → β}
  {p : Progress} {ts us : List Token} {ds es : List Diagnostic} {k l : Nat}

/-- What is read behind a piece of reading is seen from there. -/
lemma append {s : Progress → γ × Progress} {v : β → Progress → δ × Progress} {h : γ → δ}
    {w : Progress → γ × Progress} {w' : Progress → δ × Progress} (hr : Sight S r r' g p ts ds k)
    (hs : Sight S s (v (g (r p).1)) h (r p).2 us es l) (hw : w p = s (r p).2)
    (hw' : ∀ p', (r' p').1 = g (r p).1 → w' p' = v (r' p').1 (r' p').2) :
    Sight S w w' h p (ts ++ us) (es ++ ds) (max k (ts.length + l)) where
  moves := by
    rw [hw]
    exact hr.moves.trans hs.moves
  alike vs p' ha hk := by
    obtain ⟨hres, ws, rfl, hq⟩ := hr.alike vs p' ha (by omega)
    rw [List.length_append] at hk
    obtain ⟨hres', xs, rfl, hq'⟩ := hs.alike ws _ hq (by omega)
    rw [hw, hw' p' hres, hres]
    exact ⟨hres', xs, by rw [List.append_assoc], hq'⟩

/-- With more tokens in common than are looked at. -/
lemma mono (hr : Sight S r r' g p ts ds k) (hkl : k ≤ l) : Sight S r r' g p ts ds l where
  moves := hr.moves
  alike us p' ha hu := hr.alike us p' ha (hkl.trans hu)

lemma of_eq {s : Progress → α × Progress} {s' : Progress → β × Progress}
    (hr : Sight S r r' g p ts ds k) (hs : s p = r p)
    (hs' : ∀ us p', Alike S us p p' → k ≤ us.length → s' p' = r' p') :
    Sight S s s' g p ts ds k where
  moves := by
    rw [hs]
    exact hr.moves
  alike us p' ha hk := by
    rw [hs, hs' us p' ha hk]
    exact hr.alike us p' ha hk

end Sight

/-! ### Readings and rules -/

lemma Rule.on_bind_none {r : Rule α} {f : α → Rule β} {p : Progress} (h : (r.on p).1 = none) :
    (r >>= f).on p = (none, (r.on p).2) := by
  rw [Rule.on_bind]
  rcases hr : r.on p with ⟨_ | a, q⟩
  · rfl
  · rw [hr] at h
    cases h

lemma Rule.on_bind_some {r : Rule α} {f : α → Rule β} {p : Progress} {a : α}
    (h : (r.on p).1 = some a) : (r >>= f).on p = (f a).on (r.on p).2 := by
  rw [Rule.on_bind]
  rcases hr : r.on p with ⟨_ | b, q⟩ <;> rw [hr] at h <;> cases h
  rfl

namespace Sight

variable {S : Setting} {r : Rule α} {r' : Rule β} {g : α → β} {h : γ → δ} {f : α → Rule γ}
  {f' : β → Rule δ} {p : Progress} {ts us : List Token} {ds es : List Diagnostic} {k l : Nat}

/-- What is given up is given up in both parses. -/
lemma bind_none (hs : Sight S r.on r'.on (Option.map g) p ts ds k) (hres : (r.on p).1 = none) :
    Sight S (r >>= f).on (r' >>= f').on (Option.map h) p ts ds k where
  moves := by
    rw [Rule.on_bind_none hres]
    exact hs.moves
  alike us p' ha hu := by
    obtain ⟨hres', hq⟩ := hs.alike us p' ha hu
    rw [hres] at hres'
    rw [Rule.on_bind_none hres, Rule.on_bind_none hres']
    exact ⟨rfl, hq⟩

lemma lift {x : Reading α} {y : Reading β} (hs : Sight S x.on y.on g p ts ds k) :
    Sight S (liftM x : Rule α).on (liftM y : Rule β).on (Option.map g) p ts ds k where
  moves := hs.moves
  alike us p' ha hu := by
    obtain ⟨hres, hq⟩ := hs.alike us p' ha hu
    exact ⟨congrArg some hres, hq⟩

lemma bind_some {a : α} (hs : Sight S r.on r'.on (Option.map g) p ts ds k)
    (hres : (r.on p).1 = some a)
    (hf : Sight S (f a).on (f' (g a)).on (Option.map h) (r.on p).2 us es l) :
    Sight S (r >>= f).on (r' >>= f').on (Option.map h) p (ts ++ us) (es ++ ds)
      (max k (ts.length + l)) := by
  refine hs.append (v := fun o => Rule.on (o.elim failure f')) (h := Option.map h)
    (s := (f a).on) (by rw [hres]; exact hf) (Rule.on_bind_some hres) fun p' hp' => ?_
  rw [hres] at hp'
  rw [Rule.on_bind_some hp', hp']
  rfl

end Sight

variable {S : Setting}

/-- The reading looks no further than one token behind those it passes over. -/
def Reading.Mirrors (S : Setting) (r : Reading α) (r' : Reading β) (g : α → β) : Prop :=
  ∀ p : Progress, p.Live → ∃ ts ds k, Sight S r.on r'.on g p ts ds k ∧ k ≤ ts.length + 1

def Rule.Mirrors (S : Setting) (r : Rule α) (r' : Rule β) (g : α → β) : Prop :=
  ∀ p : Progress, p.Live → ∃ ts ds k, Sight S r.on r'.on (Option.map g) p ts ds k ∧
    k ≤ ts.length + 1

namespace Reading.Mirrors

variable {r : Reading α} {r' : Reading β} {g : α → β} {h : γ → δ} {p : Progress}

/-- A reading that only looks at the next token. -/
lemma look {f : Token → α} {e : Token → β} (hr : ∀ p, r.on p = (f p.current, p))
    (hr' : ∀ p, r'.on p = (e p.current, p)) (hg : ∀ t, e (t.shift S.place) = g (f t)) :
    r.Mirrors S r' g := by
  intro p hp
  refine ⟨[], [], 1, ⟨hr p ▸ Moves.refl p, fun us p' ha hk => ?_⟩, by simp⟩
  rw [hr, hr', ha.current hk, hg]
  exact ⟨rfl, us, rfl, ha⟩

lemma pure {a : α} {a' : β} (ha : a' = g a) :
    Mirrors S (Pure.pure a : Reading α) (Pure.pure a') g :=
  fun p _ => ⟨[], [], 0, ⟨Moves.refl p, fun us _ hu _ => ⟨ha, us, rfl, hu⟩⟩, by simp⟩

lemma bind {f : α → Reading γ} {f' : β → Reading δ} (hr : r.Mirrors S r' g)
    (hf : ∀ a, (f a).Mirrors S (f' (g a)) h) :
    Mirrors S (r >>= f : Reading γ) (r' >>= f' : Reading δ) h := by
  intro p hp
  obtain ⟨ts, ds, k, hs, hk⟩ := hr p hp
  obtain ⟨us, es, l, hs', hl⟩ := hf (r.on p).1 _ (hs.moves.live hp)
  refine ⟨_, _, _, hs.append (v := fun b => Reading.on (f' b)) hs' rfl fun _ _ => rfl, ?_⟩
  rw [List.length_append]
  omega

lemma ite {c c' : Prop} [Decidable c] [Decidable c'] {x : Reading α} {x' : Reading β}
    (hc : c ↔ c') (ht : r.Mirrors S r' g) (hf : x.Mirrors S x' g) :
    Mirrors S (if c then r else x) (if c' then r' else x') g := by
  by_cases h : c
  · rwa [if_pos h, if_pos (hc.mp h)]
  · rwa [if_neg h, if_neg (hc.not.mp h)]

end Reading.Mirrors

namespace Rule.Mirrors

variable {r : Rule α} {r' : Rule β} {g : α → β} {h : γ → δ} {p : Progress}

lemma lift {x : Reading α} {y : Reading β} (hx : x.Mirrors S y g) :
    Mirrors S (liftM x : Rule α) (liftM y : Rule β) g := by
  intro p hp
  obtain ⟨ts, ds, k, hs, hk⟩ := hx p hp
  exact ⟨ts, ds, k, hs.lift, hk⟩

lemma pure {a : α} {a' : β} (ha : a' = g a) :
    Mirrors S (Pure.pure a : Rule α) (Pure.pure a') g :=
  lift (x := Pure.pure a) (y := Pure.pure a') (.pure ha)

lemma bind {f : α → Rule γ} {f' : β → Rule δ} (hr : r.Mirrors S r' g)
    (hf : ∀ a, (f a).Mirrors S (f' (g a)) h) : Mirrors S (r >>= f) (r' >>= f') h := by
  intro p hp
  obtain ⟨ts, ds, k, hs, hk⟩ := hr p hp
  rcases hres : (r.on p).1 with _ | a
  · exact ⟨ts, ds, k, hs.bind_none hres, hk⟩
  · obtain ⟨us, es, l, hs', hl⟩ := hf a _ (hs.moves.live hp)
    refine ⟨_, _, _, hs.bind_some hres hs', ?_⟩
    rw [List.length_append]
    omega

lemma lift_bind {x : Reading α} {x' : Reading β} {f : α → Rule γ} {f' : β → Rule δ}
    (hx : x.Mirrors S x' g) (hf : ∀ a, (f a).Mirrors S (f' (g a)) h) :
    Mirrors S (liftM x >>= f : Rule γ) (liftM x' >>= f' : Rule δ) h :=
  (lift hx).bind hf

lemma ite {c c' : Prop} [Decidable c] [Decidable c'] {x : Rule α} {x' : Rule β}
    (hc : c ↔ c') (ht : r.Mirrors S r' g) (hf : x.Mirrors S x' g) :
    Mirrors S (if c then r else x) (if c' then r' else x') g := by
  by_cases h : c
  · rwa [if_pos h, if_pos (hc.mp h)]
  · rwa [if_neg h, if_neg (hc.not.mp h)]

end Rule.Mirrors

/-! ### Single tokens -/

lemma current_mirrors : current.Mirrors S current (·.shift S.place) :=
  .look (f := fun t => t) (e := fun t => t) on_current on_current fun _ => rfl

lemma isAt_mirrors (kind : TokenKind) : (isAt kind).Mirrors S (isAt kind) fun b => b :=
  .look (f := (·.kind == kind)) (e := (·.kind == kind)) (on_isAt kind) (on_isAt kind) fun _ => rfl

lemma isAtKeyword_mirrors (word : String) :
    (isAtKeyword word).Mirrors S (isAtKeyword word) fun b => b :=
  .look (f := isKeyword word) (e := isKeyword word) (on_isAtKeyword word) (on_isAtKeyword word)
    fun _ => rfl

lemma isAtDirective_mirrors (names : List String) :
    (isAtDirective names).Mirrors S (isAtDirective names) fun b => b :=
  .look (f := fun t => t.kind == .directive && names.contains t.text)
    (e := fun t => t.kind == .directive && names.contains t.text) (on_isAtDirective names)
    (on_isAtDirective names) fun _ => rfl

lemma hasArguments_mirrors (operator : Token) :
    (hasArguments operator).Mirrors S (hasArguments (operator.shift S.place)) fun b => b := by
  refine .look
    (f := fun t => t.kind == .leftParen && t.start.offset == operator.stop.offset)
    (e := fun t => t.kind == .leftParen && t.start.offset == (operator.shift S.place).stop.offset)
    (on_hasArguments operator) (on_hasArguments _) fun t => ?_
  rw [Token.shift_stop]
  have : (S.place.offset + t.start.offset == S.place.offset + operator.stop.offset) =
      (t.start.offset == operator.stop.offset) := by
    rw [Bool.eq_iff_iff, beq_iff_eq, beq_iff_eq, Nat.add_left_cancel_iff]
  exact congrArg (t.kind == .leftParen && ·) this

lemma previous_mirrors : previous.Mirrors S previous (·.shift S.place) :=
  fun p _ => ⟨[], [], 0, ⟨Moves.refl p, fun us _ ha _ => ⟨ha.previous, us, rfl, ha⟩⟩, by simp⟩

lemma record_mirrors (problem : Problem) (start : Position) :
    (record problem start).Mirrors S (record problem (S.place.shift start)) fun u => u :=
  fun p _ => ⟨[], _, 0, ⟨moves_record problem start p, fun us _ ha _ =>
    ⟨rfl, us, rfl, ha.record problem start⟩⟩, by simp⟩

lemma recordToken_mirrors (t : Token) :
    Reading.Mirrors S (modify (·.recordToken t)) (modify (·.recordToken (t.shift S.place)))
      fun u => u :=
  record_mirrors (.lexical t.text) t.start

lemma Progress.advance_of_rest {p : Progress} {t : Token} {ts : List Token}
    (h : p.rest = t :: ts) (hk : t.kind ≠ .endOfInput) : p.advance = ⟨t, ts, p.found⟩ := by
  rw [Progress.advance, h]
  simp [hk]

/-- Passing over the token that comes next. -/
lemma advance_sight {p : Progress} (hp : p.Live) (hk : p.current.kind ≠ .endOfInput) :
    Sight S advance.on advance.on (·.shift S.place) p [p.current] [] 1 := by
  refine ⟨moves_advance hp hk, fun us p' ha hu => ?_⟩
  have hcur := ha.current hu
  obtain ⟨t, us, rfl⟩ := List.exists_cons_of_ne_nil (List.length_pos_iff.mp hu)
  have hrest := ha.rest
  have hrest' := ha.rest'
  have ht : p.current = t := by rw [Progress.current, hrest]; rfl
  rw [ht] at hk hcur ⊢
  refine ⟨?_, us, rfl, ?_⟩
  · rw [on_advance, on_advance, hcur, ht]
  · rw [on_advance, on_advance, Progress.advance_of_rest hrest hk,
      Progress.advance_of_rest hrest' hk]
    exact ha.cons hk ha.found

lemma advance_mirrors : advance.Mirrors S advance (·.shift S.place) := by
  intro p hp
  by_cases hk : p.current.kind = .endOfInput
  · have stays {p : Progress} (h : p.Live) (hk : p.current.kind = .endOfInput) :
        p.advance = p := by
      rw [Progress.advance, h.rest_eq]
      simp [hk]
    refine ⟨[], [], 1, ⟨?_, fun us p' ha hu => ?_⟩, by simp⟩
    · rw [on_advance, stays hp hk]
      exact Moves.refl p
    · have hcur := ha.current hu
      have hk' : p'.current.kind = .endOfInput := by rw [hcur]; exact hk
      rw [on_advance, on_advance, stays hp hk, stays ha.live hk', hcur]
      exact ⟨rfl, us, rfl, ha⟩
  · exact ⟨_, _, _, advance_sight hp hk, by simp⟩

lemma giveUp_mirrors (problem : Problem) (t : Token) (g : α → β) :
    (giveUp problem t : Rule α).Mirrors S (giveUp problem (t.shift S.place)) g := by
  have failed : (failure : Rule α).Mirrors S failure g :=
    fun p _ => ⟨[], [], 0, ⟨Moves.refl p, fun us _ hu _ => ⟨rfl, us, rfl, hu⟩⟩, by simp⟩
  unfold giveUp
  refine .ite Iff.rfl ?_ ?_
  · refine .lift_bind advance_mirrors fun u => ?_
    exact .lift_bind (recordToken_mirrors u) fun _ => failed
  · exact .lift_bind (record_mirrors problem t.start) fun _ => failed

lemma expect_mirrors (kind : TokenKind) (what : String) :
    (expect kind what).Mirrors S (expect kind what) (·.shift S.place) := by
  unfold expect
  refine .lift_bind current_mirrors fun t => .ite Iff.rfl (.lift advance_mirrors) ?_
  exact giveUp_mirrors _ t _

/-! ### Recovery -/

lemma on_recover (goal : TokenKind) (p : Progress) :
    (recover goal).on p = ((), skipTo goal p.previous p.rest p.found) := rfl

/-- Recovery stops in front of the token. -/
def stopsBefore (goal : TokenKind) (t : Token) : Bool :=
  t.kind != goal && (t.kind == .endOfInput || t.kind == .text || t.kind == .directive)

/-- Recovery stops behind the token. -/
def stopsBehind (goal : TokenKind) (t : Token) : Bool :=
  t.kind == goal || (t.kind == .error && Problem.isUnterminated t.text)

/-- What recovery records of a token that it passes over. -/
def recovered (goal : TokenKind) (t : Token) : List Diagnostic :=
  if t.kind != goal && t.kind == .error then [⟨.lexical t.text, t.start⟩] else []

lemma skipTo_cons (goal : TokenKind) (prev t : Token) (us : List Token) (ds : List Diagnostic) :
    skipTo goal prev (t :: us) ds =
      if stopsBefore goal t then ⟨prev, t :: us, ds⟩
      else if stopsBehind goal t then ⟨t, us, recovered goal t ++ ds⟩
      else skipTo goal t us (recovered goal t ++ ds) := by
  unfold stopsBefore stopsBehind recovered
  rw [skipTo]
  by_cases hgoal : t.kind = goal
  · simp [hgoal]
  by_cases hstop : (t.kind == .endOfInput || t.kind == .text || t.kind == .directive) = true
  · simp only [hstop, beq_eq_false_iff_ne.mpr hgoal, bne]
    rfl
  by_cases herror : t.kind = .error
  · have hne : TokenKind.error ≠ goal := herror ▸ hgoal
    simp [herror, hne]
  · simp [hgoal, herror, hstop]

lemma recovered_shift (goal : TokenKind) (t : Token) :
    recovered goal (t.shift S.place) = (recovered goal t).map (·.shift S.place) := by
  unfold recovered
  rw [Token.shift_kind]
  by_cases h : (t.kind != goal && t.kind == .error) = true
  · rw [if_pos h, if_pos h]
    rfl
  · rw [if_neg h, if_neg h]
    rfl

/-- Recovery looks at the token that stops it. -/
lemma recover_mirrors {goal : TokenKind} (hg : goal ≠ .endOfInput) :
    (recover goal).Mirrors S (recover goal) fun u => u := by
  intro p hp
  obtain ⟨prev, ts, ds⟩ := p
  induction ts generalizing prev ds with
  | nil =>
    obtain ⟨t, ht, -⟩ := hp
    simp at ht
  | cons t ts ih =>
    have before : stopsBefore goal (t.shift S.place) = stopsBefore goal t := rfl
    have behind : stopsBehind goal (t.shift S.place) = stopsBehind goal t := rfl
    -- both parses are in front of the token, or of the token moved
    have common {us : List Token} {p' : Progress} (ha : Alike S us ⟨prev, t :: ts, ds⟩ p')
        (hu : 1 ≤ us.length) : ∃ vs, us = t :: vs ∧ ts = vs ++ S.tail := by
      obtain ⟨u, us, rfl⟩ := List.exists_cons_of_ne_nil (List.length_pos_iff.mp hu)
      obtain ⟨rfl, hts⟩ := List.cons.inj ha.rest
      exact ⟨us, rfl, hts⟩
    by_cases hstop : stopsBefore goal t = true
    · have stay {p : Progress} {u : Token} {us : List Token} (h : p.rest = u :: us)
          (hu : stopsBefore goal u = true) : (recover goal).on p = ((), p) := by
        rw [on_recover, h, skipTo_cons, if_pos hu, ← h]
      have stay₀ := stay (p := ⟨prev, t :: ts, ds⟩) rfl hstop
      refine ⟨[], [], 1, ⟨?_, fun us p' ha hu => ?_⟩, by simp⟩
      · rw [stay₀]
        exact Moves.refl _
      · obtain ⟨vs, rfl, -⟩ := common ha hu
        rw [stay₀, stay ha.rest' (before.trans hstop)]
        exact ⟨rfl, _, rfl, ha⟩
    have hk : t.kind ≠ .endOfInput := by
      rintro heq
      simp [stopsBefore, heq, hg.symm] at hstop
    have one : Moves ⟨prev, t :: ts, ds⟩ [t] (recovered goal t)
        ⟨t, ts, recovered goal t ++ ds⟩ := ⟨rfl, by simpa using hk, rfl⟩
    have found {ds' : List Diagnostic} (hds : ds' = ds.map (·.shift S.place)) :
        recovered goal (t.shift S.place) ++ ds' =
          (recovered goal t ++ ds).map (·.shift S.place) := by
      rw [hds, recovered_shift, List.map_append]
    by_cases hend : stopsBehind goal t = true
    · refine ⟨[t], recovered goal t, 1, ⟨?_, fun us p' ha hu => ?_⟩, by simp⟩
      · rw [on_recover, skipTo_cons, if_neg hstop, if_pos hend]
        exact one
      · obtain ⟨vs, rfl, rfl⟩ := common ha hu
        rw [on_recover, on_recover, skipTo_cons, if_neg hstop, if_pos hend, ha.rest',
          List.map_cons, List.cons_append, skipTo_cons, before, behind, if_neg hstop, if_pos hend]
        exact ⟨rfl, vs, rfl, ha.cons hk (found ha.found)⟩
    · have hq : Progress.Live ⟨t, ts, recovered goal t ++ ds⟩ := one.live hp
      obtain ⟨us, es, l, hs, hl⟩ := ih t _ hq
      refine ⟨[t] ++ us, es ++ recovered goal t, l + 1, ⟨?_, fun vs p' ha hu => ?_⟩, ?_⟩
      · rw [on_recover, skipTo_cons, if_neg hstop, if_neg hend]
        exact one.trans hs.moves
      · obtain ⟨ws, rfl, rfl⟩ := common ha (by omega)
        rw [on_recover, on_recover, skipTo_cons, if_neg hstop, if_neg hend, ha.rest',
          List.map_cons, List.cons_append, skipTo_cons, before, behind, if_neg hstop, if_neg hend]
        obtain ⟨-, xs, rfl, hq'⟩ := hs.alike ws _ (ha.cons hk (found ha.found))
          (by simpa using hu)
        exact ⟨rfl, xs, rfl, hq'⟩
      · simp
        omega

lemma orSkipTo_mirrors {goal : TokenKind} (hg : goal ≠ .endOfInput) {r : Rule α} {r' : Rule β}
    {g : α → β} (hr : r.Mirrors S r' g) :
    (orSkipTo goal r).Mirrors S (orSkipTo goal r') (Option.map g) := by
  unfold orSkipTo
  refine .bind (g := Option.map g) hr fun o => ?_
  cases o with
  | none => exact .bind (recover_mirrors hg) fun _ => .pure rfl
  | some a => exact .pure rfl

lemma skipDirective_mirrors : skipDirective.Mirrors S skipDirective fun u => u := by
  unfold skipDirective
  refine .bind advance_mirrors fun t => .ite Iff.rfl (recover_mirrors (by decide)) (.pure rfl)

/-! ### Whole constructs -/

/-- Without a fault the reading passes over some tokens and looks at none behind them. -/
def Reading.ClosesAt (S : Setting) (r : Reading α) (r' : Reading β) (g : α → β) (p : Progress) :
    Prop :=
  ∃ ts ds k, Sight S r.on r'.on g p ts ds k ∧ k ≤ ts.length + 1 ∧
    (ds = [] → ts ≠ [] ∧ k ≤ ts.length)

def Rule.ClosesAt (S : Setting) (r : Rule α) (r' : Rule β) (g : α → β) (p : Progress) : Prop :=
  ∃ ts ds k, Sight S r.on r'.on (Option.map g) p ts ds k ∧ k ≤ ts.length + 1 ∧
    (ds = [] → ts ≠ [] ∧ k ≤ ts.length)

/-- The reading neither passes over a token nor looks at one. -/
def Reading.Still (S : Setting) (r : Reading α) (r' : Reading β) (g : α → β) : Prop :=
  ∀ p : Progress, ∃ ds, Sight S r.on r'.on g p [] ds 0

lemma Reading.Still.pure {g : α → β} {a : α} {a' : β} (ha : a' = g a) :
    Reading.Still S (Pure.pure a) (Pure.pure a') g :=
  fun p => ⟨[], Moves.refl p, fun us _ hu _ => ⟨ha, us, rfl, hu⟩⟩

lemma Reading.Still.recorded {g : α → β} {r : Unit → Reading α} {r' : Unit → Reading β}
    (hr : (r ()).Still S (r' ()) g) (problem : Problem) (start : Position) :
    Reading.Still S (record problem start >>= r) (record problem (S.place.shift start) >>= r')
      g := by
  intro p
  obtain ⟨ds, hs⟩ := hr (p.record problem start)
  refine ⟨_, (moves_record problem start p).trans hs.moves, fun us p' ha hu => ?_⟩
  exact hs.alike us _ (ha.record problem start) hu

lemma Reading.Still.ite {g : α → β} {c c' : Prop} [Decidable c] [Decidable c'] {r x : Reading α}
    {r' x' : Reading β} (hc : c ↔ c') (ht : r.Still S r' g) (hf : x.Still S x' g) :
    Reading.Still S (if c then r else x) (if c' then r' else x') g := by
  by_cases h : c
  · rwa [if_pos h, if_pos (hc.mp h)]
  · rwa [if_neg h, if_neg (hc.not.mp h)]

namespace Rule.ClosesAt

variable {r : Rule α} {r' : Rule β} {g : α → β} {h : γ → δ} {p : Progress}

/-- What finds a fault closes nothing. -/
lemma of_fault (hr : r.Mirrors S r' g) (hp : p.Live) (hy : r.Yields p fun _ _ => False) :
    r.ClosesAt S r' g p := by
  obtain ⟨ts, ds, k, hs, hk⟩ := hr p hp
  obtain ⟨us, es, hm, hfalse⟩ := hy
  refine ⟨ts, ds, k, hs, hk, fun hds => ?_⟩
  obtain ⟨-, -, h⟩ := hfalse (hm.clean_iff.mpr (hs.moves.clean_iff.mp hds))
  exact h.elim

/-- Behind something that is given up with a fault only. -/
lemma bind {D : List Token → α → Prop} {f : α → Rule γ} {f' : β → Rule δ}
    (hr : r.Mirrors S r' g) (hp : p.Live) (hy : r.Yields p D)
    (hf : ∀ a (q : Progress), q.Live → (f a).ClosesAt S (f' (g a)) h q) :
    ClosesAt S (r >>= f) (r' >>= f') h p := by
  obtain ⟨ts, ds, k, hs, hk⟩ := hr p hp
  rcases hres : (r.on p).1 with _ | a
  · obtain ⟨us, es, hm, hsome⟩ := hy
    refine ⟨ts, ds, k, hs.bind_none hres, hk, fun hds => ?_⟩
    obtain ⟨a, ha, -⟩ := hsome (hm.clean_iff.mpr (hs.moves.clean_iff.mp hds))
    rw [hres] at ha
    cases ha
  · obtain ⟨us, es, l, hs', hl, hclean⟩ := hf a _ (hs.moves.live hp)
    refine ⟨_, _, _, hs.bind_some hres hs', ?_, fun hds => ?_⟩
    · rw [List.length_append]
      omega
    · obtain ⟨hne, hle⟩ := hclean (List.append_eq_nil_iff.mp hds).1
      have := List.length_pos_iff.mpr hne
      rw [List.length_append]
      exact ⟨by simp [hne], by omega⟩

lemma lift_bind {x : Reading α} {x' : Reading β} {f : α → Rule γ} {f' : β → Rule δ}
    (hx : x.Mirrors S x' g) (hp : p.Live)
    (hf : ∀ a (q : Progress), q.Live → (f a).ClosesAt S (f' (g a)) h q) :
    ClosesAt S (liftM x >>= f : Rule γ) (liftM x' >>= f' : Rule δ) h p := by
  obtain ⟨ts, ds, k, hs⟩ := hx p hp
  exact bind (D := fun _ _ => True) (.lift hx) hp
    ⟨ts, ds, hs.1.moves, fun _ => ⟨_, rfl, trivial⟩⟩ hf

/-- A result made of what was read. -/
lemma then_pure {F : α → γ} {F' : β → δ} (hr : r.ClosesAt S r' g p)
    (hF : ∀ a, F' (g a) = h (F a)) :
    ClosesAt S (r >>= fun a => pure (F a)) (r' >>= fun a => pure (F' a)) h p := by
  obtain ⟨ts, ds, k, hs, hk, hclean⟩ := hr
  rcases hres : (r.on p).1 with _ | a
  · exact ⟨ts, ds, k, hs.bind_none hres, hk, hclean⟩
  · have hpure : Sight S (pure (F a) : Rule γ).on (pure (F' (g a)) : Rule δ).on (Option.map h)
        (r.on p).2 [] [] 0 :=
      ⟨Moves.refl _, fun us _ hu _ => ⟨congrArg some (hF a), us, rfl, hu⟩⟩
    refine ⟨_, _, _, hs.bind_some hres hpure, ?_, fun hds => ?_⟩
    · rw [List.append_nil]
      omega
    · obtain ⟨hne, hle⟩ := hclean (by simpa using hds)
      rw [List.append_nil]
      exact ⟨hne, by omega⟩

lemma ite {c c' : Prop} [Decidable c] [Decidable c'] {x : Rule α} {x' : Rule β}
    (hc : c ↔ c') (ht : r.ClosesAt S r' g p) (hf : x.ClosesAt S x' g p) :
    ClosesAt S (if c then r else x) (if c' then r' else x') g p := by
  by_cases h : c
  · rwa [if_pos h, if_pos (hc.mp h)]
  · rwa [if_neg h, if_neg (hc.not.mp h)]

lemma giveUp (hp : p.Live) (problem : Problem) (t : Token) :
    (Template.giveUp problem t : Rule α).ClosesAt S
      (Template.giveUp problem (t.shift S.place) : Rule β) g p :=
  of_fault (giveUp_mirrors problem t g) hp (.giveUp problem t)

lemma expect {kind : TokenKind} {what : String} (hp : p.Live) (hkind : kind ≠ .endOfInput) :
    (Template.expect kind what).ClosesAt S (Template.expect kind what) (·.shift S.place) p := by
  by_cases hk : p.current.kind = kind
  · have hs := advance_sight (S := S) hp (hk ▸ hkind)
    have hat {p : Progress} (hk : p.current.kind = kind) :
        (Template.expect kind what).on p = (some p.current, p.advance) := by
      rw [on_expect, if_pos (by simpa using hk)]
    refine ⟨[p.current], [], 1, ⟨?_, fun us p' ha hu => ?_⟩, by simp, by simp⟩
    · rw [hat hk]
      exact hs.moves
    · obtain ⟨hres, hq⟩ := hs.alike us p' ha hu
      rw [hat hk, hat (by rw [ha.current hu]; exact hk)]
      exact ⟨congrArg some hres, hq⟩
  · refine of_fault (expect_mirrors kind what) hp ?_
    unfold Rule.Yields
    rw [on_expect, if_neg (by simpa using hk)]
    exact Rule.Yields.giveUp _ _

end Rule.ClosesAt

namespace Reading.ClosesAt

variable {r : Reading α} {r' : Reading β} {g : α → β} {h : γ → δ} {p : Progress}

/-- Behind anything. -/
lemma bind {f : α → Reading γ} {f' : β → Reading δ} (hr : r.Mirrors S r' g) (hp : p.Live)
    (hf : ∀ a q, r.on p = (a, q) → q.Live → (f a).ClosesAt S (f' (g a)) h q) :
    ClosesAt S (r >>= f : Reading γ) (r' >>= f' : Reading δ) h p := by
  obtain ⟨ts, ds, k, hs, hk⟩ := hr p hp
  obtain ⟨us, es, l, hs', hl, hclean⟩ := hf _ _ rfl (hs.moves.live hp)
  refine ⟨_, _, _, hs.append (v := fun b => Reading.on (f' b)) hs' rfl fun _ _ => rfl, ?_,
    fun hds => ?_⟩
  · rw [List.length_append]
    omega
  · obtain ⟨hne, hle⟩ := hclean (List.append_eq_nil_iff.mp hds).1
    have := List.length_pos_iff.mpr hne
    rw [List.length_append]
    exact ⟨by simp [hne], by omega⟩

/-- With nothing read behind it. -/
lemma then_still {f : α → Reading γ} {f' : β → Reading δ} (hr : r.ClosesAt S r' g p)
    (hf : ∀ a, (f a).Still S (f' (g a)) h) :
    ClosesAt S (r >>= f : Reading γ) (r' >>= f' : Reading δ) h p := by
  obtain ⟨ts, ds, k, hs, hk, hclean⟩ := hr
  obtain ⟨es, hs'⟩ := hf (r.on p).1 (r.on p).2
  refine ⟨_, _, _, hs.append (v := fun b => Reading.on (f' b)) hs' rfl fun _ _ => rfl, ?_,
    fun hds => ?_⟩
  · rw [List.append_nil]
    omega
  · obtain ⟨hne, hle⟩ := hclean (List.append_eq_nil_iff.mp hds).2
    rw [List.append_nil]
    exact ⟨hne, by omega⟩

lemma ite {c c' : Prop} [Decidable c] [Decidable c'] {x : Reading α} {x' : Reading β}
    (hc : c ↔ c') (ht : r.ClosesAt S r' g p) (hf : x.ClosesAt S x' g p) :
    ClosesAt S (if c then r else x) (if c' then r' else x') g p := by
  by_cases h : c
  · rwa [if_pos h, if_pos (hc.mp h)]
  · rwa [if_neg h, if_neg (hc.not.mp h)]

/-- What finds a fault closes nothing. -/
lemma of_fault (hr : r.Mirrors S r' g) (hp : p.Live) (hg : r.Gives p fun _ _ => False) :
    r.ClosesAt S r' g p := by
  obtain ⟨ts, ds, k, hs, hk⟩ := hr p hp
  obtain ⟨us, es, hm, hfalse⟩ := hg
  exact ⟨ts, ds, k, hs, hk, fun hds => (hfalse (hm.clean_iff.mpr (hs.moves.clean_iff.mp hds))).elim⟩

lemma advance (hp : p.Live) (hk : p.current.kind ≠ .endOfInput) :
    Template.advance.ClosesAt S Template.advance (·.shift S.place) p :=
  ⟨_, _, _, advance_sight hp hk, by simp, by simp⟩

/-- Where a rule is given up with a fault only, recovery is not needed without one. -/
lemma orSkipTo {goal : TokenKind} (hg : goal ≠ .endOfInput) {r : Rule α} {r' : Rule β}
    {D : List Token → α → Prop} (hr : r.ClosesAt S r' g p) (hm : r.Mirrors S r' g) (hp : p.Live)
    (hy : r.Yields p D) :
    (Template.orSkipTo goal r).ClosesAt S (Template.orSkipTo goal r') (Option.map g) p := by
  rcases hres : (r.on p).1 with _ | a
  · obtain ⟨ts, ds, k, hs, hk⟩ := orSkipTo_mirrors hg hm p hp
    refine ⟨ts, ds, k, hs, hk, fun hds => ?_⟩
    obtain ⟨us, es, hmoves, hsome⟩ := Reading.Gives.orSkipTo hg hy
    obtain ⟨a, ha, -⟩ := hsome (hmoves.clean_iff.mpr (hs.moves.clean_iff.mp hds))
    have hnone : ((Template.orSkipTo goal r).on p).1 = none := by
      rw [on_orSkipTo]
      rcases h : r.on p with ⟨_ | b, q⟩
      · rfl
      · rw [h] at hres
        cases hres
    rw [hnone] at ha
    cases ha
  · have done {γ : Type} {r : Rule γ} {p : Progress} {a : γ} (h : (r.on p).1 = some a) :
        (Template.orSkipTo goal r).on p = r.on p := by
      rw [on_orSkipTo]
      rcases hr : r.on p with ⟨_ | b, q⟩
      · rw [hr] at h
        cases h
      · rfl
    obtain ⟨ts, ds, k, hs, hk, hclean⟩ := hr
    refine ⟨ts, ds, k, hs.of_eq (done hres) fun us p' ha hu => ?_, hk, hclean⟩
    refine done (a := g a) ?_
    rw [(hs.alike us p' ha hu).1, hres]
    rfl

end Reading.ClosesAt

end Stencil.Template
