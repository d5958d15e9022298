import Stencil.Proofs.Template.Grammar
import Stencil.Proofs.Template.Reading

/-!
What is read without a fault is derived by the grammar.
-/

namespace Stencil.Template

open Grammar

variable {α β : Type} {p : Progress}

lemma Hint.word_of_ofWord? {w : String} {h : Hint} (hw : Hint.ofWord? w = some h) : w = h.word := by
  unfold Hint.ofWord? at hw
  have h' := List.find?_some hw
  exact (eq_of_beq h').symm

/-! ### Slots -/

lemma hint_yields (hp : p.Live) : hint.Yields p HintPart := by
  unfold hint
  refine .look (on_isAt _ _) ?_
  split
  · rename_i hk
    have hk : p.current.kind = .colon := by simpa using hk
    have hne : p.current.kind ≠ .endOfInput := by simp [hk]
    refine .advance hp hne ?_
    refine (Rule.Yields.expect ((moves_advance hp hne).live hp) (by decide)).bind
      fun t ts ds q _ ht => ?_
    split
    · rename_i h hw
      refine .pure fun hd => ?_
      obtain ⟨rfl, htk⟩ := ht hd
      exact .given hk htk (Hint.word_of_ofWord? hw)
    · exact .recorded
  · exact .pure .absent

lemma slotDefault_yields (hp : p.Live) : slotDefault.Yields p DefaultPart := by
  unfold slotDefault
  refine .look (on_isAt _ _) ?_
  split
  · rename_i hk
    have hk : p.current.kind = .defaultMark := by simpa using hk
    have hne : p.current.kind ≠ .endOfInput := by simp [hk]
    refine .advance hp hne ?_
    have hq := (moves_advance hp hne).live hp
    refine .look (on_current _) ?_
    split
    · rename_i hv
      have hv : p.advance.current.kind = .string ∨ p.advance.current.kind = .number ∨
          p.advance.current.kind = .identifier := by simpa [or_assoc] using hv
      refine .advance hq (by rcases hv with h | h | h <;> simp [h]) ?_
      exact .pure (.given hk hv)
    · exact .giveUp _ _
  · exact .pure .absent

lemma slotBody_yields (hp : p.Live) {opening : Token} (ho : opening.kind = .slotOpen) :
    (slotBody opening).Yields p fun ts n => Placed.OneNode Placed.Anywhere (opening :: ts) n := by
  unfold slotBody
  refine (Rule.Yields.expect hp (by decide)).bind fun name ts ds q hm hn => ?_
  refine (hint_yields (hm.live hp)).bind fun h us es q' hm' hh => ?_
  refine (slotDefault_yields (hm'.live (hm.live hp))).bind fun d vs fs r hm'' hd => ?_
  refine (Rule.Yields.expect (hm''.live (hm'.live (hm.live hp))) (by decide)).bind
    fun close ws gs r' _ hc => ?_
  refine .pure fun hg hf he hds => ?_
  obtain ⟨rfl, hnk⟩ := hn hds
  obtain ⟨rfl, hck⟩ := hc hg
  have hslot := OneNode.slot ho hnk (hh he) (hd hf) hck
  refine .leaf (by simpa [Node.unplaced] using hslot) trivial ?_
  simp only [getLastD_append, List.getLastD_cons, List.append_nil, List.getLastD_nil, Node.span]

/-! ### Arguments -/

lemma moreArguments_yields (n : Nat) (hp : p.Live) : (moreArguments n).Yields p Literals := by
  induction n generalizing p with
  | zero => exact .pure .nil
  | succ n ih =>
    unfold moreArguments
    refine .look (on_isAt _ _) ?_
    split
    · rename_i hk
      have hk : p.current.kind = .comma := by simpa using hk
      have hne : p.current.kind ≠ .endOfInput := by simp [hk]
      have hq := (moves_advance hp hne).live hp
      refine .advance hp hne ?_
      refine (Rule.Yields.expect hq (by decide)).bind fun s ts ds q hm hs => ?_
      refine (ih (hm.live hq)).bind fun ss us es r _ hss => ?_
      refine .pure fun he hd => ?_
      obtain ⟨rfl, hsk⟩ := hs hd
      simpa using Literals.cons hk hsk (hss he)
    · exact .pure .nil

lemma enclosed_yields (hp : p.Live) : enclosed.Yields p Enclosed := by
  unfold enclosed
  refine .look (on_isAt _ _) ?_
  split
  · rename_i hk
    have hk : p.current.kind = .argument := by simpa using hk
    exact .advance hp (by simp [hk]) (.pure (.raw hk))
  refine .look (on_isAt _ _) ?_
  split
  · rename_i hk
    have hk : p.current.kind = .string := by simpa using hk
    have hne : p.current.kind ≠ .endOfInput := by simp [hk]
    refine .advance hp hne (.look (on_get _) ?_)
    refine (moreArguments_yields _ ((moves_advance hp hne).live hp)).bind
      fun ss ts ds q _ hss => ?_
    split
    · refine .pure fun hd => ?_
      have := hss hd
      cases this
      exact .literal hk
    · rename_i hne
      exact .pure fun hd => by simpa using Enclosed.literals hk (hss hd) hne
  · exact .pure .nothing

lemma operatorArguments_yields (hp : p.Live) (operator : Token)
    (hl : p.current.kind = .leftParen)
    (adjacent : p.current.start.offset = operator.stop.offset) :
    operatorArguments.Yields p fun ts a => Arguments operator ts a.1 ∧ ∃ us, ts = us ++ [a.2] := by
  have hne : p.current.kind ≠ .endOfInput := by simp [hl]
  have hq := (moves_advance hp hne).live hp
  unfold operatorArguments
  refine .advance hp hne ?_
  refine (enclosed_yields hq).bind fun a ts ds q hm ha => ?_
  refine (Rule.Yields.expect (hm.live hq) (by decide)).bind fun r us es r' _ hr => ?_
  refine .pure fun he hd => ?_
  obtain ⟨rfl, hrk⟩ := hr he
  exact ⟨by simpa using Arguments.mk hl adjacent (ha hd) hrk, p.current :: ts, by simp⟩

/-- A parenthesis right behind the operator opens its arguments. -/
lemma arguments_yields (hp : p.Live) {operator : Token}
    (h : (p.current.kind == .leftParen && p.current.start.offset == operator.stop.offset) = true) :
    operatorArguments.Yields p fun ts a => Arguments operator ts a.1 ∧ ∃ us, ts = us ++ [a.2] := by
  obtain ⟨hl, ha⟩ : p.current.kind = .leftParen ∧
      p.current.start.offset = operator.stop.offset := by simpa using h
  exact operatorArguments_yields hp operator hl ha

lemma contextBody_yields (hp : p.Live) (operator : Token) :
    (contextBody operator).Yields p fun ts a =>
      operator.text = "context" ∧ Arguments operator ts a.1 ∧ ∃ us, ts = us ++ [a.2] := by
  unfold contextBody
  refine .look (on_hasArguments _ _) ?_
  split
  · rename_i h
    obtain ⟨hc, h⟩ := Bool.and_eq_true_iff.mp h
    exact (arguments_yields hp h).mono fun ts a ha => ⟨by simpa using hc, ha⟩
  · exact .giveUp _ _

/-! ### Conditions -/

lemma word_of_isKeyword {word : String} {t : Token} (h : isKeyword word t = true) :
    Word word t := by
  simpa [isKeyword, Word] using h

lemma operand_yields (hp : p.Live) : operand.Yields p fun ts v => Operand ts v.1 := by
  unfold operand
  refine .look (on_current _) ?_
  split
  · rename_i ho
    have ho : p.current.kind = .slotOpen := by simpa using ho
    have hne : p.current.kind ≠ .endOfInput := by simp [ho]
    have hq := (moves_advance hp hne).live hp
    refine .advance hp hne ?_
    refine (Rule.Yields.expect hq (by decide)).bind fun name ts ds q hm hn => ?_
    refine .look (on_isAt _ _) ?_
    split
    · exact .look (on_current _) (.giveUp _ _)
    · refine (Rule.Yields.expect (hm.live hq) (by decide)).bind fun close us es r _ hc => ?_
      refine .pure fun he hd => ?_
      obtain ⟨rfl, hnk⟩ := hn hd
      obtain ⟨rfl, hck⟩ := hc he
      exact .braced ho hnk hck
  · split
    · rename_i hk
      obtain ⟨hk, hr⟩ : p.current.kind = .identifier ∧ p.current.text.toUpper ∉ reserved := by
        simpa [reserved] using hk
      exact .advance hp (by simp [hk]) (.pure (.bare hk hr))
    · exact .giveUp _ _

lemma contextPresence_yields (hp : p.Live) (hk : p.current.kind = .operator)
    (hc : p.current.text = "context") :
    contextPresence.Yields p fun ts c => Primary ts c.unplaced := by
  have hne : p.current.kind ≠ .endOfInput := by simp [hk]
  have hq := (moves_advance hp hne).live hp
  unfold contextPresence
  refine .advance hp hne (.look (on_hasArguments _ _) ?_)
  split
  · rename_i h
    refine (arguments_yields hq h).bind fun a ts ds r _ ha => ?_
    split
    · rename_i path close
      split
      · exact .giveUp _ _
      · rename_i hpath
        refine .pure fun hd => ?_
        have hne : path ≠ "" := by simpa using hpath
        simpa [Condition.unplaced] using Primary.present (.mk hk hc (ha hd).1 hne)
    · exact .giveUp _ _
  · exact .giveUp _ _

lemma appliedTo_yields (hp : p.Live) (operator : Token) :
    (appliedTo operator).Yields p fun ts a =>
      (ts = [] ∧ a.1 = .none) ∨ Arguments operator ts a.1 := by
  unfold appliedTo
  refine .look (on_hasArguments _ _) ?_
  split
  · rename_i h
    exact (arguments_yields hp h).mono fun ts a ha => .inr ha.1
  · exact .pure (.inl ⟨rfl, rfl⟩)

lemma applied_yields {name : String} {operator : Token} (hk : operator.kind = .operator)
    {ts : List Token} {a : Argument} {span : Span} {clean : Prop}
    (ha : clean → (ts = [] ∧ a = .none) ∨ Arguments operator ts a) :
    (applied name operator a span).Yields p fun us c =>
      clean → Predicate name (operator :: (ts ++ us)) c.unplaced := by
  unfold applied
  dsimp only
  split
  · rename_i hj
    split
    · rename_i question
      split
      · exact .giveUp _ _
      · rename_i hq
        refine .pure fun h => ?_
        have ha : Arguments operator ts (.text question) := by simpa using ha h
        simpa [Condition.unplaced] using Predicate.judged hk hj ha (by simpa using hq)
    · exact .giveUp _ _
  · rename_i hj
    split
    · exact .giveUp _ _
    · rename_i hc
      have hc : operator.text.toLower ≠ "context" := by simpa using hc
      refine .pure fun h => ?_
      rcases ha h with ⟨rfl, rfl⟩ | ha
      · simpa [Condition.unplaced] using Predicate.plain hk hj hc
      · simpa [Condition.unplaced] using Predicate.applied hk hj hc ha

lemma predicate_yields (hp : p.Live) (hk : p.current.kind = .operator) (name : String)
    (span : Span) : (predicate name span).Yields p fun ts c => Predicate name ts c.unplaced := by
  have hne : p.current.kind ≠ .endOfInput := by simp [hk]
  unfold predicate
  refine .advance hp hne ?_
  refine (appliedTo_yields ((moves_advance hp hne).live hp) _).bind fun a ts ds q _ ha => ?_
  exact applied_yields hk ha

/-- Both `OR` and `AND`: the condition of a first operand and those behind it. -/
private lemma joined_yields {x : Rule Condition} {tail : Rule (List Condition)}
    {join : List Condition → Span → Condition} {D : List Token → Condition → Prop}
    {T : List Token → List Condition → Prop} {E : List Token → Condition → Prop} {start : Token}
    (hx : x.Yields p fun ts c => D ts c.unplaced)
    (ht : ∀ ts ds q, Moves p ts ds q →
      tail.Yields q fun ts cs => T ts (Condition.unplacedAll cs))
    (hj : ∀ cs s, (join cs s).unplaced = join (Condition.unplacedAll cs) .empty)
    (single : ∀ {ts c us}, D ts c → T us [] → E (ts ++ us) c)
    (joined : ∀ {ts us c d cs}, D ts c → T us (d :: cs) →
      E (ts ++ us) (join (c :: d :: cs) .empty)) :
    (do
      let first ← x
      let more ← tail
      match more with
      | [] => return first
      | _ => return join (first :: more) ⟨start.start, (← previous).stop⟩ : Rule Condition).Yields
      p fun ts c => E ts c.unplaced := by
  refine hx.bind fun c ts ds q hm hc => ?_
  refine (ht ts ds q hm).bind fun cs us es r _ hcs => ?_
  split
  · exact .pure fun he hd => by simpa using single (hc hd) (hcs he)
  · rename_i hne
    refine .look (on_previous _) (.pure fun he hd => ?_)
    obtain ⟨d, cs, rfl⟩ := List.exists_cons_of_ne_nil hne
    have := joined (hc hd) (hcs he)
    simpa [hj, Condition.unplacedAll] using this

/-- Both `OR` and `AND`: the operands behind the first. -/
private lemma tail_yields (hp : p.Live) {word : String} {x : Rule Condition}
    {tail : Rule (List Condition)} {D : List Token → Condition → Prop}
    {T : List Token → List Condition → Prop}
    (hx : ∀ q, Moves p [p.current] [] q → x.Yields q fun ts c => D ts c.unplaced)
    (ht : ∀ q r ts ds, Moves p [p.current] [] q → Moves q ts ds r →
      tail.Yields r fun ts cs => T ts (Condition.unplacedAll cs))
    (nil : T [] [])
    (cons : ∀ {k ts us c cs}, Word word k → D ts c → T us cs → T (k :: (ts ++ us)) (c :: cs)) :
    (do
      if ← isAtKeyword word then
        let _ ← advance
        let c ← x
        return c :: (← tail)
      else return [] : Rule (List Condition)).Yields p
      fun ts cs => T ts (Condition.unplacedAll cs) := by
  refine .look (on_isAtKeyword _ _) ?_
  split
  · rename_i hk
    have hk := word_of_isKeyword hk
    have hne : p.current.kind ≠ .endOfInput := by simp [hk.1]
    have ha := moves_advance hp hne
    refine .advance hp hne ?_
    refine (hx _ ha).bind fun c ts ds q hm hc => ?_
    refine (ht _ q ts ds ha hm).bind fun cs us es r _ hcs => ?_
    exact .pure fun he hd => by simpa [Condition.unplacedAll] using cons hk (hc hd) (hcs he)
  · exact .pure nil

/-- What the layers of conditions yield when the fuel suffices for the tokens ahead. A group
passes through all five layers before its first token is read. -/
def ConditionsYield (n : Nat) : Prop := ∀ p : Progress, p.Live →
  (5 * p.rest.length + 5 ≤ n → (orCondition n).Yields p fun ts c => Or ts c.unplaced) ∧
  (5 * p.rest.length + 1 ≤ n →
    (orRest n).Yields p fun ts cs => OrTail ts (Condition.unplacedAll cs)) ∧
  (5 * p.rest.length + 4 ≤ n → (andCondition n).Yields p fun ts c => And ts c.unplaced) ∧
  (5 * p.rest.length + 1 ≤ n →
    (andRest n).Yields p fun ts cs => AndTail ts (Condition.unplacedAll cs)) ∧
  (5 * p.rest.length + 3 ≤ n → (notCondition n).Yields p fun ts c => Not ts c.unplaced) ∧
  (5 * p.rest.length + 2 ≤ n → (primary n).Yields p fun ts c => Primary ts c.unplaced)

section

variable {n : Nat} (ih : ConditionsYield n) (hp : p.Live)

include ih hp

lemma orCondition_yields_succ (hn : 5 * p.rest.length + 5 ≤ n + 1) :
    (orCondition (n + 1)).Yields p fun ts c => Or ts c.unplaced := by
  unfold orCondition
  refine .look (on_current _) ?_
  refine joined_yields ((ih p hp).2.2.1 (by omega))
    (fun ts ds q hm => (ih q (hm.live hp)).2.1 ?_) ?_ ?_ .joined
  · have := hm.length
    omega
  · exact fun cs s => rfl
  · intro ts c us hc hu
    cases hu
    simpa using Or.single hc

lemma orRest_yields_succ (hn : 5 * p.rest.length + 1 ≤ n + 1) :
    (orRest (n + 1)).Yields p fun ts cs => OrTail ts (Condition.unplacedAll cs) := by
  unfold orRest
  refine tail_yields hp (fun q hq => (ih q (hq.live hp)).2.2.1 ?_)
    (fun q r ts ds hq hr => (ih r (hr.live (hq.live hp))).2.1 ?_) .nil .cons
  · have := hq.length
    simp only [List.length_cons, List.length_nil] at this
    omega
  · have := hq.length
    have := hr.length
    simp only [List.length_cons, List.length_nil] at *
    omega

lemma andCondition_yields_succ (hn : 5 * p.rest.length + 4 ≤ n + 1) :
    (andCondition (n + 1)).Yields p fun ts c => And ts c.unplaced := by
  unfold andCondition
  refine .look (on_current _) ?_
  refine joined_yields ((ih p hp).2.2.2.2.1 (by omega))
    (fun ts ds q hm => (ih q (hm.live hp)).2.2.2.1 ?_) ?_ ?_ .joined
  · have := hm.length
    omega
  · exact fun cs s => rfl
  · intro ts c us hc hu
    cases hu
    simpa using And.single hc

lemma andRest_yields_succ (hn : 5 * p.rest.length + 1 ≤ n + 1) :
    (andRest (n + 1)).Yields p fun ts cs => AndTail ts (Condition.unplacedAll cs) := by
  unfold andRest
  refine tail_yields hp (fun q hq => (ih q (hq.live hp)).2.2.2.2.1 ?_)
    (fun q r ts ds hq hr => (ih r (hr.live (hq.live hp))).2.2.2.1 ?_) .nil .cons
  · have := hq.length
    simp only [List.length_cons, List.length_nil] at this
    omega
  · have := hq.length
    have := hr.length
    simp only [List.length_cons, List.length_nil] at *
    omega

lemma notCondition_yields_succ (hn : 5 * p.rest.length + 3 ≤ n + 1) :
    (notCondition (n + 1)).Yields p fun ts c => Not ts c.unplaced := by
  unfold notCondition
  refine .look (on_isAtKeyword _ _) ?_
  split
  · rename_i hk
    have hk := word_of_isKeyword hk
    have hne : p.current.kind ≠ .endOfInput := by simp [hk.1]
    have ha := moves_advance hp hne
    have hl := ha.length
    refine .advance hp hne ?_
    refine ((ih _ (ha.live hp)).2.2.2.2.1 (by simp at hl; omega)).bind fun c ts ds q _ hc => ?_
    refine .look (on_previous _) (.pure fun hd => ?_)
    simpa [Condition.unplaced] using Not.negated hk (hc hd)
  · exact ((ih p hp).2.2.2.2.2 (by omega)).mono fun _ _ => .primary

lemma primary_yields_succ (hn : 5 * p.rest.length + 2 ≤ n + 1) :
    (primary (n + 1)).Yields p fun ts c => Primary ts c.unplaced := by
  unfold primary
  refine .look (on_current _) ?_
  split
  · rename_i hk
    have hk : p.current.kind = .leftParen := by simpa using hk
    have hne : p.current.kind ≠ .endOfInput := by simp [hk]
    have ha := moves_advance hp hne
    have hq := ha.live hp
    have hl := ha.length
    refine .advance hp hne ?_
    refine ((ih _ hq).1 (by simp at hl; omega)).bind fun c ts ds q hm hc => ?_
    refine (Rule.Yields.expect (hm.live hq) (by decide)).bind fun r us es q' _ hr => ?_
    refine .pure fun he hd => ?_
    obtain ⟨rfl, hrk⟩ := hr he
    simpa using Primary.group hk (hc hd) hrk
  split
  · rename_i hk
    rw [Bool.or_eq_true] at hk
    have hkind : p.current.kind = .identifier := by
      rcases hk with h | h <;> exact (word_of_isKeyword h).1
    refine .advance hp (by simp [hkind]) (.pure ?_)
    rcases hk with h | h
    · simpa [h, Condition.unplaced] using Primary.true (word_of_isKeyword h)
    · have hf : isKeyword "TRUE" p.current = false := by
        simp [isKeyword, (word_of_isKeyword h).2]
      simpa [hf, Condition.unplaced] using Primary.false (word_of_isKeyword h)
  split
  · rename_i hk
    obtain ⟨hk, hc⟩ : p.current.kind = .operator ∧ p.current.text = "context" := by
      simpa using hk
    exact contextPresence_yields hp hk hc
  · refine (operand_yields hp).bind fun v ts ds q hm hv => ?_
    refine .look (on_isAt _ _) ?_
    split
    · rename_i hk
      have hk : q.current.kind = .operator := by simpa using hk
      exact (predicate_yields (hm.live hp) hk _ _).mono fun us c hu hd => .predicate (hv hd) hu
    · refine .pure fun hd => ?_
      simpa [Condition.unplaced] using Primary.ref (hv hd)

end

lemma conditionsYield (n : Nat) : ConditionsYield n := by
  induction n with
  | zero => exact fun p _ => ⟨fun h => by omega, fun h => by omega, fun h => by omega,
      fun h => by omega, fun h => by omega, fun h => by omega⟩
  | succ n ih =>
    exact fun p hp => ⟨orCondition_yields_succ ih hp, orRest_yields_succ ih hp,
      andCondition_yields_succ ih hp, andRest_yields_succ ih hp, notCondition_yields_succ ih hp,
      primary_yields_succ ih hp⟩

lemma closedCondition_yields (hp : p.Live) : closedCondition.Yields p fun ts c =>
    ∃ us close, ts = us ++ [close] ∧ Or us c.unplaced ∧ close.kind = .directiveClose := by
  unfold closedCondition
  refine .look (on_get _) ?_
  refine ((conditionsYield _ p hp).1 (by omega)).bind fun c ts ds q hm hc => ?_
  refine (Rule.Yields.expect (hm.live hp) (by decide)).bind fun close us es r _ hcl => ?_
  refine .pure fun he hd => ?_
  obtain ⟨rfl, hk⟩ := hcl he
  exact ⟨ts, close, by simp, hc hd, hk⟩

lemma directiveCondition_gives (hp : p.Live) (directive : Token) :
    (directiveCondition directive).Gives p fun ts o => ∃ c us close,
      o = some c ∧ ts = us ++ [close] ∧ Or us c.unplaced ∧ close.kind = .directiveClose := by
  unfold directiveCondition
  refine .look (on_isAt _ _) ?_
  split
  · rename_i hk
    have hk : p.current.kind = .directiveClose := by simpa using hk
    refine .recorded ?_
    have hne : (p.record (.noCondition directive.lexeme) directive.start).current.kind ≠
        .endOfInput := by simp [hk]
    exact Reading.Takes.gives (.advance_bind hp hne (.pure trivial))
  · refine (Reading.Gives.orSkipTo (by decide) (closedCondition_yields hp)).mono ?_
    rintro ts o ⟨c, rfl, us, close, rfl, hc, hk⟩
    exact ⟨c, us, close, rfl, rfl, hc, hk⟩

/-! ### Directives -/

/-- What stands behind a directive that has a name or a path. -/
inductive Named (directive : Token) : List Token → String → Prop
  | plain {n close : Token} (hn : Name n) (hc : close.kind = .directiveClose) :
      Named directive [n, close] n.text
  | keyed {k e n close : Token} (hd : directive.text = "SECTION") (hk : k.kind = .identifier)
      (hkn : k.text = "name") (he : e.kind = .equals) (hn : Name n)
      (hc : close.kind = .directiveClose) : Named directive [k, e, n, close] n.text

lemma Named.partHead {directive : Token} {ts : List Token} {name : String}
    (h : Named directive ts name) (hd : Directive "SECTION" directive) :
    PartHead (directive :: ts) name := by
  cases h with
  | plain hn hc => exact .plain hd hn hc
  | keyed _ hk hkn he hn hc => exact .keyed hd hk hkn he hn hc

lemma nameMark_gives (hp : p.Live) (directive : Token) :
    (nameMark directive).Gives p fun ts _ => ts = [] ∨ directive.text = "SECTION" ∧
      ∃ k e, ts = [k, e] ∧ k.kind = .identifier ∧ k.text = "name" ∧ e.kind = .equals := by
  unfold nameMark
  refine .look (on_current _) (.look (on_get _) ?_)
  dsimp only
  split
  · rename_i h
    obtain ⟨⟨⟨hd, hk⟩, hn⟩, he⟩ : ((directive.text = "SECTION" ∧
        p.current.kind = .identifier) ∧ p.current.text = "name") ∧
        ((p.rest.drop 1).headD p.current).kind = .equals := by simpa using h
    have ha := moves_advance hp (by simp [hk])
    have hq := ha.live hp
    rw [hp.headD_drop (by simp [hk])] at he
    refine (Reading.Takes.advance_bind hp (by simp [hk]) ?_).gives
    refine (Reading.Takes.advance_bind hq (by simp [he]) ?_).gives
    exact .pure (.inr ⟨hd, _, _, rfl, hk, hn, he⟩)
  · exact .pure (.inl rfl)

lemma directiveArgument_yields (hp : p.Live) (directive : Token) :
    (directiveArgument directive).Yields p fun ts a =>
      Named directive ts a.1 ∧ ∃ us, ts = us ++ [a.2] := by
  unfold directiveArgument
  refine (Rule.Yields.lift (nameMark_gives hp directive)).bind fun _ ts ds q hm hmark => ?_
  have hq := hm.live hp
  refine .look (on_current _) ?_
  split
  · rename_i hk
    have hn : Name q.current := by simpa [Name] using hk
    have hne : q.current.kind ≠ .endOfInput := by rcases hn with h | h <;> simp [h]
    refine .advance hq hne ?_
    refine (Rule.Yields.expect ((moves_advance hq hne).live hq) (by decide)).bind
      fun close us es r _ hc => ?_
    refine .pure fun he hd => ?_
    obtain ⟨rfl, hck⟩ := hc he
    refine ⟨?_, ts ++ [q.current], by simp⟩
    rcases hmark hd with rfl | ⟨hs, k, e, rfl, hk, hkn, he⟩
    · exact .plain hn hck
    · exact .keyed hs hk hkn he hn hck
  · exact .giveUp _ _

/-! ### Nodes without bodies -/

/-- The node that a piece of reading comes to, with its place, if it finds no fault. -/
def Reading.TakesPlaced (r : Reading (Option Node)) (p : Progress) : Prop :=
  r.Takes p fun ts o => ∃ n, o = some n ∧ Placed.OneNode Placed.Anywhere ts n

lemma slot_takesPlaced (hp : p.Live) (hk : p.current.kind = .slotOpen) : slot.TakesPlaced p := by
  have hne : p.current.kind ≠ .endOfInput := by simp [hk]
  exact .advance_bind hp hne (.orSkipTo (by decide)
    (slotBody_yields ((moves_advance hp hne).live hp) hk))

lemma contextNode_takesPlaced (hp : p.Live) (hk : p.current.kind = .operator) :
    contextNode.TakesPlaced p := by
  have hne : p.current.kind ≠ .endOfInput := by simp [hk]
  have hb := contextBody_yields ((moves_advance hp hne).live hp) p.current
  refine .advance_bind hp hne ((Reading.Gives.orSkipTo (by decide) hb).bind
    fun o ts ds q _ ho => ?_)
  split
  · exact .pure fun hd => by simpa using ho hd
  · rename_i path close
    split
    · exact .recorded (.pure trivial)
    · rename_i hpath
      refine .pure fun hd => ⟨_, rfl, ?_⟩
      obtain ⟨_, ha, hc, h, us, rfl⟩ := ho hd
      cases ha
      have hcontext := OneNode.context (.mk hk hc h (by simpa using hpath))
      refine .leaf (by simpa [Node.unplaced] using hcontext) trivial ?_
      simp only [getLastD_append, List.getLastD_cons, List.getLastD_nil, Node.span]
  · exact .recorded (.pure trivial)

lemma reference_takesPlaced (hp : p.Live) (hk : p.current.kind = .directive)
    (hn : p.current.text = "IMPORT" ∨ p.current.text = "INCLUDE") : reference.TakesPlaced p := by
  have hne : p.current.kind ≠ .endOfInput := by simp [hk]
  have hb := directiveArgument_yields ((moves_advance hp hne).live hp) p.current
  refine .advance_bind hp hne ((Reading.Gives.orSkipTo (by decide) hb).bind
    fun o ts ds q _ ho => ?_)
  split
  · exact .pure fun hd => by simpa using ho hd
  · rename_i path close
    refine .pure fun hd => ⟨_, rfl, ?_⟩
    obtain ⟨a, ha, h, us, hlast⟩ := ho hd
    obtain rfl : a = (path, close) := by simpa using ha.symm
    have h : Named p.current ts path := h
    have hspan (n : Node) (hs : n.span = ⟨p.current.start, close.stop⟩) :
        n.span = ⟨p.current.start, ((ts ++ []).getLastD p.current).stop⟩ := by
      rw [hs, hlast, List.append_nil, getLastD_append]
      rfl
    rcases hn with hn | hn
    · refine .leaf ?_ (by simp [hn, Placed.IsLeaf]) (hspan _ (by simp [hn, Node.span]))
      cases h with
      | plain hname hc => simpa [hn, Node.unplaced] using OneNode.imported ⟨hk, hn⟩ hname hc
      | keyed hs => simp [hn] at hs
    · refine .leaf ?_ (by simp [hn, Placed.IsLeaf]) (hspan _ (by simp [hn, Node.span]))
      cases h with
      | plain hname hc => simpa [hn, Node.unplaced] using OneNode.included ⟨hk, hn⟩ hname hc
      | keyed hs => simp [hn] at hs

end Stencil.Template
