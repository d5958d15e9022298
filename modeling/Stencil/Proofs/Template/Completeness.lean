import Stencil.Proofs.Template.Reading
import Stencil.Proofs.Template.Grammar

/-!
What the grammar derives is read without a fault, and the tree read is the one derived.
-/

namespace Stencil.Template

open Grammar

variable {α β : Type} {us vs z : List Token} {r : Token}

lemma Hint.ofWord?_word (h : Hint) : Hint.ofWord? h.word = some h := by cases h <;> rfl

/-! ### Slots -/

lemma hint_reads {ts : List Token} {h : Option Hint} (hd : HintPart ts h) (hr : r.kind ≠ .colon) :
    hint.Reads (ts ++ r :: z) (r :: z) (· = h) := by
  unfold hint
  cases hd with
  | absent => exact .not_at_kind hr (.pure rfl)
  | given hc hw hh =>
    refine .at_kind hc (.advance_bind (by simp [hc]) ((Rule.Reads.expect hw (by decide)).bind ?_))
    rintro t rfl
    rw [hh, Hint.ofWord?_word]
    exact .pure rfl

lemma slotDefault_reads {ts : List Token} {d : Option String} (hd : DefaultPart ts d)
    (hr : r.kind ≠ .defaultMark) : slotDefault.Reads (ts ++ r :: z) (r :: z) (· = d) := by
  unfold slotDefault
  cases hd with
  | absent => exact .not_at_kind hr (.pure rfl)
  | given hm hv =>
    refine .at_kind hm (.advance_bind (by simp [hm]) (.look (fun _ _ => current_cons _ _ _ _) ?_))
    rw [if_pos (by simpa [or_assoc] using hv)]
    exact .advance_bind (by rcases hv with h | h | h <;> simp [h]) (.pure rfl)

lemma Grammar.DefaultPart.head {ts : List Token} {d : Option String} (hd : DefaultPart ts d)
    (hr : r.kind = .slotClose) : ∃ t us, ts ++ r :: z = t :: us ∧ t.kind ≠ .colon := by
  cases hd with
  | absent => exact ⟨r, z, rfl, by simp [hr]⟩
  | given hm => exact ⟨_, _, rfl, by simp [hm]⟩

lemma slotBody_reads {opening n close : Token} {hs ds : List Token} {h : Option Hint}
    {d : Option String} (hn : n.kind = .identifier) (hh : HintPart hs h) (hd : DefaultPart ds d)
    (hc : close.kind = .slotClose) :
    (slotBody opening).Reads (n :: (hs ++ (ds ++ close :: z))) z
      fun node => node.unplaced = .slot n.text h d .empty := by
  unfold slotBody
  refine (Rule.Reads.expect hn (by decide)).bind ?_
  rintro _ rfl
  obtain ⟨t, us, heq, ht⟩ := hd.head (z := z) hc
  rw [heq]
  refine (hint_reads hh ht).bind ?_
  rintro _ rfl
  rw [← heq]
  refine (slotDefault_reads hd (by simp [hc])).bind ?_
  rintro _ rfl
  refine (Rule.Reads.expect hc (by decide)).bind ?_
  rintro _ rfl
  exact .pure rfl

/-! ### Arguments -/

lemma moreArguments_reads {ts : List Token} {ss : List String} (h : Literals ts ss)
    (hr : r.kind ≠ .comma) {n : Nat} (hn : ts.length < n) :
    (moreArguments n).Reads (ts ++ r :: z) (r :: z) (· = ss) := by
  induction h generalizing n with
  | nil =>
    obtain ⟨n, rfl⟩ := Nat.exists_eq_add_of_lt hn
    exact .not_at_kind hr (.pure rfl)
  | @cons c s ts ss hc hs h ih =>
    obtain ⟨n, rfl⟩ := Nat.exists_eq_add_of_lt hn
    refine .at_kind hc (.advance_bind (by simp [hc]) ((Rule.Reads.expect hs (by decide)).bind ?_))
    rintro _ rfl
    refine (ih (by simp; omega)).bind ?_
    rintro _ rfl
    exact .pure rfl

lemma enclosed_reads {ts : List Token} {a : Argument} (h : Enclosed ts a)
    (hr : r.kind = .rightParen) : enclosed.Reads (ts ++ r :: z) (r :: z) (· = a) := by
  unfold enclosed
  cases h with
  | nothing => exact .not_at_kind (by simp [hr]) (.not_at_kind (by simp [hr]) (.pure rfl))
  | raw ha => exact .at_kind ha (.advance_bind (by simp [ha]) (.pure rfl))
  | literal hs =>
    refine .not_at_kind (by simp [hs]) (.at_kind hs (.advance_bind (by simp [hs]) ?_))
    refine .get_bind fun p hp => ?_
    refine (moreArguments_reads .nil (by simp [hr]) (by rw [hp]; simp)).bind ?_
    rintro _ rfl
    exact .pure rfl
  | @literals s ts ss hs h hne =>
    refine .not_at_kind (by simp [hs]) (.at_kind hs (.advance_bind (by simp [hs]) ?_))
    refine .get_bind fun p hp => ?_
    refine (moreArguments_reads h (by simp [hr]) (by rw [hp]; simp)).bind ?_
    rintro _ rfl
    split
    · exact absurd rfl hne
    · exact .pure rfl

lemma operatorArguments_reads {operator : Token} {ts : List Token} {a : Argument}
    (h : Arguments operator ts a) :
    operatorArguments.Reads (ts ++ z) z fun x => x.1 = a := by
  obtain ⟨hl, -, he, hr⟩ := h
  unfold operatorArguments
  refine .advance_bind (by simp [hl]) ?_
  rw [List.append_eq, List.append_assoc, List.singleton_append]
  refine (enclosed_reads he hr).bind ?_
  rintro _ rfl
  exact (Rule.Reads.expect hr (by decide)).bind fun _ _ => .pure rfl

/-- Asking for arguments where they stand. -/
lemma Grammar.Arguments.look {operator : Token} {ts : List Token} {a : Argument}
    (h : Arguments operator ts a) : ∃ t us, ts = t :: us ∧
      (t.kind == .leftParen && t.start.offset == operator.stop.offset) = true := by
  obtain ⟨hl, ha, -, -⟩ := h
  exact ⟨_, _, rfl, by simp [hl, ha]⟩

lemma contextBody_reads {op : Token} {ts : List Token} {path : String} (hc : op.text = "context")
    (h : Arguments op ts (.text path)) :
    (contextBody op).Reads (ts ++ z) z fun x => x.1 = .text path := by
  unfold contextBody
  obtain ⟨t, us, rfl, ht⟩ := h.look
  refine .look (fun _ _ => hasArguments_cons _ _ _ _ _) ?_
  rw [if_pos (by simp [hc, ht])]
  exact operatorArguments_reads h

/-! ### Conditions -/

/-- What may stand behind a whole condition. -/
def EndsOr (t : Token) : Prop := t.kind = .rightParen ∨ t.kind = .directiveClose

/-- What may stand behind an operand of `OR`. -/
def EndsAnd (t : Token) : Prop := EndsOr t ∨ Word "OR" t

/-- What may stand behind an operand of `AND`. -/
def EndsPrimary (t : Token) : Prop := EndsAnd t ∨ Word "AND" t

lemma EndsPrimary.kind {t : Token} (h : EndsPrimary t) :
    t.kind = .rightParen ∨ t.kind = .directiveClose ∨ t.kind = .identifier := by
  rcases h with ((h | h) | h) | h
  · exact .inl h
  · exact .inr (.inl h)
  · exact .inr (.inr h.1)
  · exact .inr (.inr h.1)

lemma isKeyword_eq_true_iff {word : String} {t : Token} :
    isKeyword word t = true ↔ Word word t := by
  simp [isKeyword, Word]

lemma isKeyword_eq_false {word other : String} {t : Token} (h : Word other t)
    (hne : other ≠ word) : isKeyword word t = false := by
  simp [isKeyword, h.2, hne]

lemma isKeyword_eq_false_of_kind {word : String} {t : Token} (h : t.kind ≠ .identifier) :
    isKeyword word t = false := by
  simp [isKeyword, h]

lemma EndsOr.kind_ne {t : Token} (h : EndsOr t) : t.kind ≠ .identifier := by
  rcases h with h | h <;> simp [h]

lemma EndsAnd.not_and {t : Token} (h : EndsAnd t) : isKeyword "AND" t = false := by
  rcases h with h | h
  · exact isKeyword_eq_false_of_kind h.kind_ne
  · exact isKeyword_eq_false h (by decide)

lemma operand_reads {ts : List Token} {name : String} (h : Operand ts name) :
    operand.Reads (ts ++ z) z fun v => v.1 = name := by
  unfold operand
  cases h with
  | braced ho hn hc =>
    refine .look (fun _ _ => current_cons _ _ _ _) ?_
    rw [if_pos (by simp [ho])]
    refine .advance_bind (by simp [ho]) ((Rule.Reads.expect hn (by decide)).bind ?_)
    rintro _ rfl
    exact .not_at_kind (by simp [hc])
      ((Rule.Reads.expect hc (by decide)).bind fun _ _ => .pure rfl)
  | bare hn hr =>
    refine .look (fun _ _ => current_cons _ _ _ _) ?_
    rw [if_neg (by simp [hn]), if_pos (by simpa [hn, reserved] using hr)]
    exact .advance_bind (by simp [hn]) (.pure rfl)

lemma contextPresence_reads {ts : List Token} {path : String} (h : Reference ts path) :
    contextPresence.Reads (ts ++ z) z fun c => c.unplaced = .present path .empty := by
  obtain ⟨hk, -, h, hne⟩ := h
  obtain ⟨t, us, rfl, ht⟩ := h.look
  unfold contextPresence
  refine .advance_bind (by simp [hk]) (.look (fun _ _ => hasArguments_cons _ _ _ _ _) ?_)
  rw [if_pos ht]
  refine (operatorArguments_reads h).bind ?_
  rintro ⟨a, close⟩ rfl
  dsimp only
  rw [if_neg (by simpa using hne)]
  exact .pure rfl

lemma appliedTo_reads_bare {operator : Token} (hr : r.kind ≠ .leftParen) :
    (appliedTo operator).Reads (r :: z) (r :: z) fun x => x.1 = .none := by
  refine .look (fun _ _ => hasArguments_cons _ _ _ _ _) ?_
  rw [if_neg (by simp [hr])]
  exact .pure rfl

lemma appliedTo_reads {operator : Token} {ts : List Token} {a : Argument}
    (h : Arguments operator ts a) : (appliedTo operator).Reads (ts ++ z) z fun x => x.1 = a := by
  obtain ⟨t, us, rfl, ht⟩ := h.look
  refine .look (fun _ _ => hasArguments_cons _ _ _ _ _) ?_
  rw [if_pos ht]
  exact operatorArguments_reads h

lemma predicate_reads {name : String} {ts : List Token} {c : Condition} {span : Span}
    (h : Predicate name ts c) (hr : EndsPrimary r) :
    (predicate name span).Reads (ts ++ r :: z) (r :: z) fun c' => c'.unplaced = c := by
  unfold predicate
  cases h with
  | plain hk hj hc =>
    have hno : r.kind ≠ .leftParen := by rcases hr.kind with h | h | h <;> simp [h]
    refine .advance_bind (by simp [hk]) ((appliedTo_reads_bare hno).bind ?_)
    rintro ⟨a, last⟩ rfl
    dsimp only [applied]
    rw [if_neg hj, if_neg (by simpa using hc)]
    exact .pure rfl
  | applied hk hj hc h =>
    refine .advance_bind (by simp [hk]) ((appliedTo_reads h).bind ?_)
    rintro ⟨a, last⟩ rfl
    dsimp only [applied]
    rw [if_neg hj, if_neg (by simpa using hc)]
    exact .pure rfl
  | judged hk hj h hq =>
    refine .advance_bind (by simp [hk]) ((appliedTo_reads h).bind ?_)
    rintro ⟨a, last⟩ rfl
    dsimp only [applied]
    rw [if_pos hj, if_neg hq]
    exact .pure rfl

/-- The token behind an operand of `OR` ends it. -/
lemma Grammar.OrTail.head {ts : List Token} {cs : List Condition} (h : OrTail ts cs)
    (hr : EndsOr r) :
    ∃ t us, ts ++ r :: z = t :: us ∧ EndsAnd t := by
  cases h with
  | nil => exact ⟨r, z, rfl, .inl hr⟩
  | cons hk => exact ⟨_, _, rfl, .inr hk⟩

/-- The token behind an operand of `AND` ends it. -/
lemma Grammar.AndTail.head {ts : List Token} {cs : List Condition} (h : AndTail ts cs)
    (hr : EndsAnd r) :
    ∃ t us, ts ++ r :: z = t :: us ∧ EndsPrimary t := by
  cases h with
  | nil => exact ⟨r, z, rfl, .inl hr⟩
  | cons hk => exact ⟨_, _, rfl, .inr hk⟩

/-- A variable starts with no keyword, no operator and no parenthesis. -/
lemma Grammar.Operand.head {ts : List Token} {name : String} (h : Operand ts name) :
    ∃ t us, ts = t :: us ∧ (t.kind = .slotOpen ∨ t.kind = .identifier) ∧
      ∀ w ∈ reserved, isKeyword w t = false := by
  cases h with
  | braced ho => exact ⟨_, _, rfl, .inl ho, fun w _ => isKeyword_eq_false_of_kind (by simp [ho])⟩
  | @bare n hn hr =>
    refine ⟨_, _, rfl, .inr hn, fun w hw => ?_⟩
    have hne : n.text.toUpper ≠ w := fun h => hr (h ▸ hw)
    simp [isKeyword, hne]

/-- A primary condition starts with no `NOT` and no closing bracket. -/
lemma Grammar.Primary.head {ts : List Token} {c : Condition} (h : Primary ts c) :
    ∃ t us, ts = t :: us ∧ isKeyword "NOT" t = Bool.false ∧ t.kind ≠ .directiveClose := by
  cases h with
  | group hl => exact ⟨_, _, rfl, isKeyword_eq_false_of_kind (by simp [hl]), by simp [hl]⟩
  | true h => exact ⟨_, _, rfl, isKeyword_eq_false h (by decide), by simp [h.1]⟩
  | false h => exact ⟨_, _, rfl, isKeyword_eq_false h (by decide), by simp [h.1]⟩
  | present h =>
    obtain ⟨hk, -⟩ := h
    exact ⟨_, _, rfl, isKeyword_eq_false_of_kind (by simp [hk]), by simp [hk]⟩
  | ref h =>
    obtain ⟨t, us, rfl, hk, hw⟩ := h.head
    exact ⟨t, us, rfl, hw _ (by decide), by rcases hk with h | h <;> simp [h]⟩
  | predicate h =>
    obtain ⟨t, us, rfl, hk, hw⟩ := h.head
    exact ⟨t, _, rfl, hw _ (by decide), by rcases hk with h | h <;> simp [h]⟩

lemma Grammar.Not.head {ts : List Token} {c : Condition} (h : Grammar.Not ts c) :
    ∃ t us, ts = t :: us ∧ t.kind ≠ .directiveClose := by
  cases h with
  | primary h =>
    obtain ⟨t, us, rfl, -, hk⟩ := h.head
    exact ⟨t, us, rfl, hk⟩
  | negated hk => exact ⟨_, _, rfl, by simp [hk.1]⟩

lemma Grammar.And.head {ts : List Token} {c : Condition} (h : Grammar.And ts c) :
    ∃ t us, ts = t :: us ∧ t.kind ≠ .directiveClose := by
  cases h with
  | single h => exact h.head
  | joined h =>
    obtain ⟨t, us, rfl, hk⟩ := h.head
    exact ⟨t, _, rfl, hk⟩

/-- A condition does not start with a closing bracket. -/
lemma Grammar.Or.head {ts : List Token} {c : Condition} (h : Grammar.Or ts c) :
    ∃ t us, ts = t :: us ∧ t.kind ≠ .directiveClose := by
  cases h with
  | single h => exact h.head
  | joined h =>
    obtain ⟨t, us, rfl, hk⟩ := h.head
    exact ⟨t, _, rfl, hk⟩

/-- What the layers of conditions read when the fuel suffices for the tokens of the condition. -/
structure ConditionsRead (n : Nat) : Prop where
  or {ts c r z} : Grammar.Or ts c → 5 * ts.length + 5 ≤ n → EndsOr r →
    (orCondition n).Reads (ts ++ r :: z) (r :: z) fun c' => c'.unplaced = c
  orRest {ts cs r z} : OrTail ts cs → 5 * ts.length + 1 ≤ n → EndsOr r →
    (orRest n).Reads (ts ++ r :: z) (r :: z) fun cs' => Condition.unplacedAll cs' = cs
  and {ts c r z} : Grammar.And ts c → 5 * ts.length + 4 ≤ n → EndsAnd r →
    (andCondition n).Reads (ts ++ r :: z) (r :: z) fun c' => c'.unplaced = c
  andRest {ts cs r z} : AndTail ts cs → 5 * ts.length + 1 ≤ n → EndsAnd r →
    (andRest n).Reads (ts ++ r :: z) (r :: z) fun cs' => Condition.unplacedAll cs' = cs
  not {ts c r z} : Grammar.Not ts c → 5 * ts.length + 3 ≤ n → EndsPrimary r →
    (notCondition n).Reads (ts ++ r :: z) (r :: z) fun c' => c'.unplaced = c
  primary {ts c r z} : Primary ts c → 5 * ts.length + 2 ≤ n → EndsPrimary r →
    (primary n).Reads (ts ++ r :: z) (r :: z) fun c' => c'.unplaced = c

/-- Both `OR` and `AND`: the condition of a first operand and those behind it. -/
private lemma joined_reads {x : Rule Condition} {tail : Rule (List Condition)}
    {join : List Condition → Span → Condition} {start : Token} {c : Condition}
    {cs : List Condition} {ws : List Token}
    (hx : x.Reads us vs fun c' => c'.unplaced = c)
    (ht : tail.Reads vs ws fun cs' => Condition.unplacedAll cs' = cs)
    (hj : ∀ cs s, (join cs s).unplaced = join (Condition.unplacedAll cs) .empty) :
    (do
      let first ← x
      let more ← tail
      match more with
      | [] => return first
      | _ => return join (first :: more) ⟨start.start, (← previous).stop⟩ : Rule Condition).Reads
      us ws fun c' => c'.unplaced = if cs = [] then c else join (c :: cs) .empty := by
  refine hx.bind fun c' hc => ht.bind fun cs' hcs => ?_
  split
  · refine .pure ?_
    rw [if_pos (by simpa [Condition.unplacedAll] using hcs.symm), hc]
  · rename_i hne
    refine .previous_bind fun t => .pure ?_
    obtain ⟨d, ds, rfl⟩ := List.exists_cons_of_ne_nil hne
    rw [if_neg (by simp [← hcs, Condition.unplacedAll]), hj, Condition.unplacedAll, hc, hcs]

/-- Both `OR` and `AND`: an operand behind the first, with its keyword. -/
private lemma tail_reads_cons {k : Token} {word : String} {x : Rule Condition}
    {tail : Rule (List Condition)} {c : Condition} {cs : List Condition} {ws : List Token}
    (hk : Word word k) (hx : x.Reads us vs fun c' => c'.unplaced = c)
    (ht : tail.Reads vs ws fun cs' => Condition.unplacedAll cs' = cs) :
    (do
      if ← isAtKeyword word then
        let _ ← advance
        let c ← x
        return c :: (← tail)
      else return [] : Rule (List Condition)).Reads (k :: us) ws
      fun cs' => Condition.unplacedAll cs' = c :: cs := by
  refine .look (fun _ _ => isAtKeyword_cons _ _ _ _ _) ?_
  rw [if_pos (isKeyword_eq_true_iff.mpr hk)]
  refine .advance_bind (by simp [hk.1]) (hx.bind fun c' hc => ht.bind fun cs' hcs => .pure ?_)
  rw [Condition.unplacedAll, hc, hcs]

/-- Both `OR` and `AND`: no operand behind the first. -/
private lemma tail_reads_nil {word : String} {x : Rule (List Condition)}
    (hr : isKeyword word r = false) :
    (do if ← isAtKeyword word then x else return [] : Rule (List Condition)).Reads
      (r :: z) (r :: z) fun cs' => Condition.unplacedAll cs' = [] := by
  refine .look (fun _ _ => isAtKeyword_cons _ _ _ _ _) ?_
  rw [hr]
  exact .pure rfl

/-- What is read as a variable is none of the other conditions. -/
lemma primary_reads_operand {n : Nat} {ts : List Token} {name : String} {P : Condition → Prop}
    (h : Operand ts name)
    (hx : ∀ span, (do if ← isAt .operator then predicate name span else return .ref name span :
      Rule Condition).Reads us vs P) : (primary (n + 1)).Reads (ts ++ us) vs P := by
  unfold primary
  have hread := operand_reads (z := us) h
  obtain ⟨t, ws, rfl, hk, hw⟩ := h.head
  refine .look (fun _ _ => current_cons _ _ _ _) ?_
  rw [if_neg (by rcases hk with h | h <;> simp [h]),
    if_neg (by simp [hw "TRUE" (by decide), hw "FALSE" (by decide)]),
    if_neg (by rcases hk with h | h <;> simp [h])]
  refine hread.bind ?_
  rintro ⟨name, span⟩ rfl
  exact hx span

section

variable {n : Nat} (ih : ConditionsRead n)

include ih

lemma orCondition_reads_succ {ts : List Token} {c : Condition} (h : Grammar.Or ts c)
    (hn : 5 * ts.length + 5 ≤ n + 1) (hr : EndsOr r) :
    (orCondition (n + 1)).Reads (ts ++ r :: z) (r :: z) fun c' => c'.unplaced = c := by
  unfold orCondition
  obtain ⟨t, us, hts⟩ : ∃ t us, ts ++ r :: z = t :: us := by cases ts <;> exact ⟨_, _, rfl⟩
  rw [hts]
  refine .look (fun _ _ => current_cons _ _ _ _) ?_
  rw [← hts]
  cases h with
  | single h =>
    exact (joined_reads (ih.and h (by omega) (.inl hr)) (ih.orRest .nil (by simp; omega) hr)
      fun _ _ => rfl).mono fun _ h => by simpa using h
  | @joined ts us c d cs h hs =>
    simp only [List.length_append] at hn
    obtain ⟨t, vs, heq, ht⟩ := hs.head (z := z) hr
    have hx := ih.and (z := vs) h (by omega) ht
    rw [← heq] at hx
    rw [List.append_assoc]
    exact (joined_reads hx (ih.orRest hs (by omega) hr) fun _ _ => rfl).mono
      fun _ h => by simpa using h

lemma orRest_reads_succ {ts : List Token} {cs : List Condition} (h : OrTail ts cs)
    (hn : 5 * ts.length + 1 ≤ n + 1) (hr : EndsOr r) :
    (orRest (n + 1)).Reads (ts ++ r :: z) (r :: z)
      fun cs' => Condition.unplacedAll cs' = cs := by
  unfold orRest
  cases h with
  | nil => exact tail_reads_nil (isKeyword_eq_false_of_kind hr.kind_ne)
  | @cons k ts us c cs hk h hs =>
    simp only [List.length_cons, List.length_append] at hn
    obtain ⟨t, vs, heq, ht⟩ := hs.head (z := z) hr
    have hx := ih.and (z := vs) h (by omega) ht
    rw [← heq] at hx
    rw [List.cons_append, List.append_assoc]
    exact tail_reads_cons hk hx (ih.orRest hs (by omega) hr)

lemma andCondition_reads_succ {ts : List Token} {c : Condition} (h : Grammar.And ts c)
    (hn : 5 * ts.length + 4 ≤ n + 1) (hr : EndsAnd r) :
    (andCondition (n + 1)).Reads (ts ++ r :: z) (r :: z) fun c' => c'.unplaced = c := by
  unfold andCondition
  obtain ⟨t, us, hts⟩ : ∃ t us, ts ++ r :: z = t :: us := by cases ts <;> exact ⟨_, _, rfl⟩
  rw [hts]
  refine .look (fun _ _ => current_cons _ _ _ _) ?_
  rw [← hts]
  cases h with
  | single h =>
    exact (joined_reads (ih.not h (by omega) (.inl hr)) (ih.andRest .nil (by simp; omega) hr)
      fun _ _ => rfl).mono fun _ h => by simpa using h
  | @joined ts us c d cs h hs =>
    simp only [List.length_append] at hn
    obtain ⟨t, vs, heq, ht⟩ := hs.head (z := z) hr
    have hx := ih.not (z := vs) h (by omega) ht
    rw [← heq] at hx
    rw [List.append_assoc]
    exact (joined_reads hx (ih.andRest hs (by omega) hr) fun _ _ => rfl).mono
      fun _ h => by simpa using h

lemma andRest_reads_succ {ts : List Token} {cs : List Condition} (h : AndTail ts cs)
    (hn : 5 * ts.length + 1 ≤ n + 1) (hr : EndsAnd r) :
    (andRest (n + 1)).Reads (ts ++ r :: z) (r :: z)
      fun cs' => Condition.unplacedAll cs' = cs := by
  unfold andRest
  cases h with
  | nil => exact tail_reads_nil hr.not_and
  | @cons k ts us c cs hk h hs =>
    simp only [List.length_cons, List.length_append] at hn
    obtain ⟨t, vs, heq, ht⟩ := hs.head (z := z) hr
    have hx := ih.not (z := vs) h (by omega) ht
    rw [← heq] at hx
    rw [List.cons_append, List.append_assoc]
    exact tail_reads_cons hk hx (ih.andRest hs (by omega) hr)

lemma notCondition_reads_succ {ts : List Token} {c : Condition} (h : Grammar.Not ts c)
    (hn : 5 * ts.length + 3 ≤ n + 1) (hr : EndsPrimary r) :
    (notCondition (n + 1)).Reads (ts ++ r :: z) (r :: z) fun c' => c'.unplaced = c := by
  unfold notCondition
  cases h with
  | primary h =>
    obtain ⟨t, us, rfl, ht, -⟩ := h.head
    refine .look (fun _ _ => isAtKeyword_cons _ _ _ _ _) ?_
    rw [ht]
    exact ih.primary h (by omega) hr
  | @negated k ts c hk h =>
    refine .look (fun _ _ => isAtKeyword_cons _ _ _ _ _) ?_
    rw [if_pos (isKeyword_eq_true_iff.mpr hk)]
    simp only [List.length_cons] at hn
    refine .advance_bind (by simp [hk.1]) ((ih.not h (by omega) hr).bind fun c' hc => ?_)
    refine .previous_bind fun t => .pure ?_
    rw [Condition.unplaced, hc]

lemma primary_reads_succ {ts : List Token} {c : Condition} (h : Primary ts c)
    (hn : 5 * ts.length + 2 ≤ n + 1) (hr : EndsPrimary r) :
    (primary (n + 1)).Reads (ts ++ r :: z) (r :: z) fun c' => c'.unplaced = c := by
  cases h with
  | @group l r' ts c hl h hr' =>
    simp only [List.length_cons, List.length_append, List.length_nil] at hn
    unfold primary
    refine .look (fun _ _ => current_cons _ _ _ _) ?_
    rw [if_pos (by simp [hl]), List.append_eq, List.append_assoc]
    refine .advance_bind (by simp [hl]) ((ih.or h (by omega) (.inl hr')).bind fun c' hc => ?_)
    exact (Rule.Reads.expect hr' (by decide)).bind fun _ _ => .pure hc
  | true h =>
    unfold primary
    refine .look (fun _ _ => current_cons _ _ _ _) ?_
    rw [if_neg (by simp [h.1]), if_pos (by simp [isKeyword_eq_true_iff.mpr h])]
    exact .advance_bind (by simp [h.1])
      (.pure (by simp [isKeyword_eq_true_iff.mpr h, Condition.unplaced]))
  | @false t h =>
    have hf : isKeyword "TRUE" t = false := isKeyword_eq_false h (by decide)
    unfold primary
    refine .look (fun _ _ => current_cons _ _ _ _) ?_
    rw [if_neg (by simp [h.1]), if_pos (by simp [isKeyword_eq_true_iff.mpr h])]
    exact .advance_bind (by simp [h.1]) (.pure (by simp [hf, Condition.unplaced]))
  | present h =>
    have hread := contextPresence_reads (z := r :: z) h
    obtain ⟨hk, hc, -⟩ := h
    unfold primary
    refine .look (fun _ _ => current_cons _ _ _ _) ?_
    rw [if_neg (by simp [hk]), if_neg (by simp [isKeyword, hk]), if_pos (by simp [hk, hc])]
    exact hread
  | ref h =>
    refine primary_reads_operand h fun span => ?_
    exact .not_at_kind (by rcases hr.kind with h | h | h <;> simp [h]) (.pure rfl)
  | @predicate ts us name c h hp =>
    rw [List.append_assoc]
    refine primary_reads_operand h fun span => ?_
    have hread : (predicate name span).Reads (us ++ r :: z) (r :: z) fun c' => c'.unplaced = c :=
      predicate_reads hp hr
    obtain ⟨op, vs, rfl, hk⟩ : ∃ op vs, us = op :: vs ∧ op.kind = .operator := by
      cases hp <;> exact ⟨_, _, rfl, by assumption⟩
    exact .at_kind hk hread

end

lemma conditionsRead (n : Nat) : ConditionsRead n := by
  induction n with
  | zero =>
    exact ⟨fun _ h => by omega, fun _ h => by omega, fun _ h => by omega, fun _ h => by omega,
      fun _ h => by omega, fun _ h => by omega⟩
  | succ n ih =>
    exact ⟨orCondition_reads_succ ih, orRest_reads_succ ih, andCondition_reads_succ ih,
      andRest_reads_succ ih, notCondition_reads_succ ih, primary_reads_succ ih⟩

lemma closedCondition_reads {ts : List Token} {c : Condition} (h : Grammar.Or ts c)
    (hr : r.kind = .directiveClose) :
    closedCondition.Reads (ts ++ r :: z) z fun c' => c'.unplaced = c := by
  unfold closedCondition
  refine .get_bind fun p hp => ?_
  have hn : 5 * ts.length + 5 ≤ 5 * p.rest.length + 5 := by
    rw [hp, List.length_append]
    omega
  refine ((conditionsRead _).or h hn (.inr hr)).bind fun c' hc => ?_
  exact (Rule.Reads.expect hr (by decide)).bind fun _ _ => .pure hc

lemma directiveCondition_reads {directive : Token} {ts : List Token} {c : Condition}
    (h : Grammar.Or ts c) (hr : r.kind = .directiveClose) :
    (directiveCondition directive).Reads (ts ++ r :: z) z
      fun o => ∃ c', o = some c' ∧ c'.unplaced = c := by
  have hread : (orSkipTo .directiveClose closedCondition).Reads (ts ++ r :: z) z
      fun o => ∃ c', o = some c' ∧ c'.unplaced = c := .orSkipTo (closedCondition_reads h hr)
  unfold directiveCondition
  obtain ⟨t, us, rfl, ht⟩ := h.head
  refine .look (fun _ _ => isAt_cons _ _ _ _ _) ?_
  rw [if_neg (by simpa using ht)]
  exact hread

/-! ### Directives -/

/-- Where no name is marked, nothing is passed over. -/
lemma nameMark_reads_plain {directive n : Token} (hr : r.kind ≠ .equals) :
    (nameMark directive).Reads (n :: r :: z) (n :: r :: z) fun _ => True := by
  refine .look (fun _ _ => current_cons _ _ _ _) (.get_bind fun p hp => ?_)
  simp only [hp, List.drop_succ_cons, List.drop_zero, List.headD_cons]
  rw [if_neg (by simp [hr])]
  exact .pure trivial

lemma nameMark_reads_keyed {directive k e : Token} (hd : directive.text = "SECTION")
    (hk : k.kind = .identifier) (hkn : k.text = "name") (he : e.kind = .equals) :
    (nameMark directive).Reads (k :: e :: z) z fun _ => True := by
  refine .look (fun _ _ => current_cons _ _ _ _) (.get_bind fun p hp => ?_)
  simp only [hp, List.drop_succ_cons, List.drop_zero, List.headD_cons]
  rw [if_pos (by simp [hd, hk, hkn, he])]
  exact .advance_bind (by simp [hk]) (.advance_bind (by simp [he]) (.pure trivial))

/-- The name and the bracket behind it, once a mark is passed over. -/
lemma directiveArgument_reads_of_mark {directive n close : Token}
    (hm : (nameMark directive).Reads us (n :: close :: z) fun _ => True) (hn : Name n)
    (hc : close.kind = .directiveClose) :
    (directiveArgument directive).Reads us z fun a => a.1 = n.text := by
  unfold directiveArgument
  refine .lift_bind hm fun _ _ => .look (fun _ _ => current_cons _ _ _ _) ?_
  rw [if_pos (by simpa [Name] using hn)]
  refine .advance_bind (by rcases hn with h | h <;> simp [h]) ?_
  exact (Rule.Reads.expect hc (by decide)).bind fun _ _ => .pure rfl

lemma directiveArgument_reads {directive n close : Token} (hn : Name n)
    (hc : close.kind = .directiveClose) :
    (directiveArgument directive).Reads (n :: close :: z) z fun a => a.1 = n.text :=
  directiveArgument_reads_of_mark (nameMark_reads_plain (by simp [hc])) hn hc

/-- Behind the directive of a part, its name is read, marked or not. -/
lemma Grammar.PartHead.reads {hs : List Token} {name : String} (h : PartHead hs name) :
    ∃ d ws, hs = d :: ws ∧ Directive "SECTION" d ∧
      ∀ z, (directiveArgument d).Reads (ws ++ z) z fun a => a.1 = name := by
  cases h with
  | plain hd hn hc => exact ⟨_, _, rfl, hd, fun z => directiveArgument_reads hn hc⟩
  | keyed hd hk hkn he hn hc =>
    exact ⟨_, _, rfl, hd, fun z =>
      directiveArgument_reads_of_mark (nameMark_reads_keyed hd.2 hk hkn he) hn hc⟩

/-- The reading comes to this node. -/
def Reading.ReadsNode (r : Reading (Option Node)) (us vs : List Token) (n : Node) : Prop :=
  r.Reads us vs fun o => ∃ node, o = some node ∧ node.unplaced = n

lemma slot_reads {o n close : Token} {hs ds : List Token} {h : Option Hint} {d : Option String}
    (ho : o.kind = .slotOpen) (hn : n.kind = .identifier) (hh : HintPart hs h)
    (hd : DefaultPart ds d) (hc : close.kind = .slotClose) :
    slot.ReadsNode (o :: n :: (hs ++ (ds ++ close :: z))) z (.slot n.text h d .empty) :=
  .advance_bind (by simp [ho]) (.orSkipTo (slotBody_reads hn hh hd hc))

lemma contextNode_reads {ts : List Token} {path : String} (h : Reference ts path) :
    contextNode.ReadsNode (ts ++ z) z (.context path .empty) := by
  obtain ⟨hk, hc, h, hne⟩ := h
  refine .advance_bind (by simp [hk]) ((Reading.Reads.orSkipTo (contextBody_reads hc h)).bind ?_)
  rintro _ ⟨⟨a, close⟩, rfl, rfl⟩
  dsimp only
  rw [if_neg (by simpa using hne)]
  exact .pure ⟨_, rfl, rfl⟩

lemma reference_reads {d n close : Token} (hd : d.kind = .directive) (hn : Name n)
    (hc : close.kind = .directiveClose) :
    reference.ReadsNode (d :: n :: close :: z) z
      (if d.text == "IMPORT" then .imported n.text .empty else .included n.text .empty) := by
  refine .advance_bind (by simp [hd])
    ((Reading.Reads.orSkipTo (directiveArgument_reads hn hc)).bind ?_)
  rintro _ ⟨⟨path, close⟩, rfl, rfl⟩
  refine .pure ⟨_, rfl, ?_⟩
  split <;> rfl

/-! ### Bodies and blocks -/

/-- The token ends a body within the `open_` blocks. -/
def Stops (open_ : List Block) (t : Token) : Prop :=
  t.kind = .endOfInput ∨ t.kind = .directive ∧ ∃ b ∈ open_, t.text ∈ closers b

/-- The token ends a branch of a conditional. -/
lemma Stops.branch {open_ : List Block} {name : String} {t : Token} (h : Directive name t)
    (hn : name ∈ closers .conditional) : Stops (.conditional :: open_) t :=
  .inr ⟨h.1, .conditional, by simp, h.2 ▸ hn⟩

lemma Stops.part {open_ : List Block} {t : Token} (h : Directive "END_SECTION" t) :
    Stops (.part :: open_) t :=
  .inr ⟨h.1, .part, by simp, by simp [h.2, closers]⟩

/-- The token behind a branch of a conditional ends it. -/
lemma Grammar.Else.head {ts : List Token} {es : List Node} {open_ : List Block} (h : Else ts es)
    (hr : Directive "END_IF" r) :
    ∃ t us, ts ++ r :: z = t :: us ∧ Stops (.conditional :: open_) t := by
  cases h with
  | absent => exact ⟨r, z, rfl, .branch hr (by decide)⟩
  | otherwise hd => exact ⟨_, _, rfl, .branch hd (by decide)⟩
  | elseIf hh =>
    obtain ⟨hd, -, -⟩ := hh
    exact ⟨_, _, rfl, .branch hd (by decide)⟩

lemma Grammar.OneNode.length_pos {ts : List Token} {n : Node} (h : OneNode ts n) :
    0 < ts.length := by
  cases h with
  | context h =>
    cases h
    simp
  | _ =>
    simp only [List.length_append, List.length_cons]
    omega

lemma nodes_reads_stop {n : Nat} {open_ : List Block} (hr : Stops open_ r) :
    (nodes (n + 1) open_).Reads (r :: z) (r :: z) fun ns => Node.unplacedAll ns = [] := by
  unfold nodes
  refine .look (fun _ _ => current_cons _ _ _ _) ?_
  rcases hr with hk | ⟨hk, b, hb, hc⟩
  · rw [hk]
    exact .pure rfl
  · have hcl : isCloser r.text = true := by
      cases b <;> simp [isCloser, closers] at hc ⊢ <;> tauto
    have hopen : (open_.any fun b => (closers b).contains r.text) = true :=
      List.any_eq_true.mpr ⟨b, hb, by simpa using hc⟩
    simp only [hk]
    rw [if_pos hcl, if_pos hopen]
    exact .pure rfl

/-- What bodies and blocks read when the fuel suffices for their tokens. -/
structure BodiesRead (n : Nat) : Prop where
  nodes {ts ns open_ r z} : Nodes ts ns → 4 * ts.length + 1 ≤ n → Stops open_ r →
    (nodes n open_).Reads (ts ++ r :: z) (r :: z) fun ns' => Node.unplacedAll ns' = ns
  part {hs ts name ns close open_ z} : PartHead hs name → Nodes ts ns →
    Directive "END_SECTION" close → 4 * (hs.length + ts.length + 1) ≤ n →
    (partBlock n open_).ReadsNode (hs ++ (ts ++ close :: z)) z (.part name ns .empty)
  conditional {hs ts us c m ns es close open_ z} : Head "IF" hs c → Nodes ts (m :: ns) →
    Else us es → Directive "END_IF" close →
    4 * (hs.length + ts.length + us.length + 1) ≤ n →
    (ifBlock n open_).ReadsNode (hs ++ (ts ++ (us ++ close :: z))) z
      (.conditional c (m :: ns) es .empty)
  branch {name hs ts us c m ns es r open_ z} : Head name hs c → Nodes ts (m :: ns) →
    Else us es → Directive "END_IF" r → 4 * (hs.length + ts.length + us.length) ≤ n + 1 →
    (branch n open_).ReadsNode (hs ++ (ts ++ (us ++ r :: z))) (r :: z)
      (.conditional c (m :: ns) es .empty)
  otherwise {ts es r open_ z} : Else ts es → Directive "END_IF" r → 4 * ts.length + 1 ≤ n →
    (otherwise n open_).Reads (ts ++ r :: z) (r :: z)
      fun o => ∃ es', o = some es' ∧ Node.unplacedAll es' = es

/-- A node and the body behind it. -/
lemma andNodes_reads {x : Reading (Option Node)} {n : Nat} {open_ : List Block} {m : Node}
    {ns : List Node} {ws : List Token} (hx : x.ReadsNode us vs m)
    (hn : (nodes n open_).Reads vs ws fun ns' => Node.unplacedAll ns' = ns) :
    (do
      let node ← x
      return node.toList ++ (← nodes n open_) : Reading (List Node)).Reads us ws
      fun ns' => Node.unplacedAll ns' = m :: ns := by
  refine hx.bind ?_
  rintro _ ⟨node, rfl, hm⟩
  refine hn.bind fun ns' hns => .pure ?_
  rw [Option.toList_some, List.singleton_append, Node.unplacedAll, hm, hns]

lemma isAtDirective_eq_true {name : String} {names : List String} {t : Token}
    (h : Directive name t) (hn : name ∈ names) :
    (t.kind == .directive && names.contains t.text) = true := by
  simpa [h.1, h.2] using hn

lemma isAtDirective_eq_false {name : String} {names : List String} {t : Token}
    (h : Directive name t) (hn : name ∉ names) :
    (t.kind == .directive && names.contains t.text) = false := by
  simpa [h.1, h.2] using hn

section

variable {n : Nat} (ih : BodiesRead n)

include ih

/-- A body that starts with a node: the first token says which, and the bodies of the node and
what is behind it are read with less fuel. -/
lemma nodes_reads_cons {ts us : List Token} {m : Node} {ns : List Node} {open_ : List Block}
    (h : OneNode ts m) (hs : Nodes us ns) (hn : 4 * (ts ++ us).length + 1 ≤ n + 1)
    (hr : Stops open_ r) :
    (nodes (n + 1) open_).Reads (ts ++ (us ++ r :: z)) (r :: z)
      fun ns' => Node.unplacedAll ns' = m :: ns := by
  have hpos := h.length_pos
  rw [List.length_append] at hn
  have rest := ih.nodes (z := z) hs (by omega) hr
  unfold nodes
  cases h with
  | text hk =>
    refine .look (fun _ _ => current_cons _ _ _ _) ?_
    simp only [hk]
    refine .advance_bind (by simp [hk]) (rest.bind fun ns' hns => .pure ?_)
    rw [Node.unplacedAll, hns, Node.unplaced]
  | slot ho hname hh hd hc =>
    refine .look (fun _ _ => current_cons _ _ _ _) ?_
    simp only [ho]
    have hread := slot_reads (z := us ++ r :: z) ho hname hh hd hc
    simpa using andNodes_reads hread rest
  | context href =>
    have hread := contextNode_reads (z := us ++ r :: z) href
    obtain ⟨hk, -⟩ := href
    refine .look (fun _ _ => current_cons _ _ _ _) ?_
    simp only [hk]
    exact andNodes_reads hread rest
  | imported hd hname hc =>
    refine .look (fun _ _ => current_cons _ _ _ _) ?_
    simp only [hd.1]
    rw [if_neg (by simp [hd.2, isCloser, closers]), if_neg (by simp [hd.2]),
      if_neg (by simp [hd.2]), if_pos (by simp [hd.2])]
    have hread := reference_reads (z := us ++ r :: z) hd.1 hname hc
    rw [if_pos (by simp [hd.2])] at hread
    exact andNodes_reads hread rest
  | included hd hname hc =>
    refine .look (fun _ _ => current_cons _ _ _ _) ?_
    simp only [hd.1]
    rw [if_neg (by simp [hd.2, isCloser, closers]), if_neg (by simp [hd.2]),
      if_neg (by simp [hd.2]), if_pos (by simp [hd.2])]
    have hread := reference_reads (z := us ++ r :: z) hd.1 hname hc
    rw [if_neg (by simp [hd.2])] at hread
    exact andNodes_reads hread rest
  | @part hs ts name ks close hh hb hc =>
    simp only [List.length_append, List.length_singleton] at hn
    have hread : (partBlock n open_).ReadsNode (hs ++ (ts ++ close :: (us ++ r :: z)))
        (us ++ r :: z) (.part name ks .empty) := ih.part hh hb hc (by omega)
    obtain ⟨d, ws, rfl, hd⟩ : ∃ d ws, hs = d :: ws ∧ Directive "SECTION" d := by
      cases hh <;> exact ⟨_, _, rfl, by assumption⟩
    refine .look (fun _ _ => current_cons _ _ _ _) ?_
    simp only [hd.1]
    rw [if_neg (by simp [hd.2, isCloser, closers]), if_neg (by simp [hd.2]),
      if_pos (by simp [hd.2])]
    simpa using andNodes_reads hread rest
  | @conditional hs ts es' c k ks es close hh hb he hc =>
    simp only [List.length_append, List.length_singleton] at hn
    have hread : (ifBlock n open_).ReadsNode (hs ++ (ts ++ (es' ++ close :: (us ++ r :: z))))
        (us ++ r :: z) (.conditional c (k :: ks) es .empty) :=
      ih.conditional hh hb he hc (by omega)
    obtain ⟨hd, hcond, hclose⟩ := hh
    refine .look (fun _ _ => current_cons _ _ _ _) ?_
    simp only [hd.1]
    rw [if_neg (by simp [hd.2, isCloser, closers]), if_pos (by simp [hd.2])]
    simpa using andNodes_reads hread rest

lemma nodes_reads_succ {ts : List Token} {ns : List Node} {open_ : List Block} (h : Nodes ts ns)
    (hn : 4 * ts.length + 1 ≤ n + 1) (hr : Stops open_ r) :
    (nodes (n + 1) open_).Reads (ts ++ r :: z) (r :: z)
      fun ns' => Node.unplacedAll ns' = ns := by
  cases h with
  | nil => exact nodes_reads_stop hr
  | cons h hs =>
    rw [List.append_assoc]
    exact nodes_reads_cons ih h hs hn hr

lemma partBlock_reads_succ {hs ts : List Token} {name : String} {ns : List Node} {close : Token}
    {open_ : List Block} (hh : PartHead hs name) (h : Nodes ts ns)
    (hc : Directive "END_SECTION" close) (hn : 4 * (hs.length + ts.length + 1) ≤ n + 1) :
    (partBlock (n + 1) open_).ReadsNode (hs ++ (ts ++ close :: z)) z (.part name ns .empty) := by
  obtain ⟨d, ws, rfl, hd, hread⟩ := hh.reads
  simp only [List.length_cons] at hn
  unfold partBlock
  refine .advance_bind (by simp [hd.1]) ((Reading.Reads.orSkipTo (hread _)).bind ?_)
  rintro _ ⟨⟨name, _⟩, rfl, rfl⟩
  refine (ih.nodes h (by omega) (.part hc)).bind fun ns' hns => ?_
  refine .look (fun _ _ => isAtDirective_cons _ _ _ _ _) ?_
  rw [if_pos (isAtDirective_eq_true hc (by decide))]
  refine .advance_bind (by simp [hc.1]) (.pure ⟨_, rfl, ?_⟩)
  rw [Node.unplaced, hns]

lemma branch_reads_succ {name : String} {hs ts us : List Token} {c : Condition} {m : Node}
    {ns es : List Node} {open_ : List Block} (hh : Head name hs c) (h : Nodes ts (m :: ns))
    (he : Else us es) (hr : Directive "END_IF" r)
    (hn : 4 * (hs.length + ts.length + us.length) ≤ n + 2) :
    (branch (n + 1) open_).ReadsNode (hs ++ (ts ++ (us ++ r :: z))) (r :: z)
      (.conditional c (m :: ns) es .empty) := by
  obtain ⟨hd, hcond, hclose⟩ := hh
  obtain ⟨t, vs, heq, ht⟩ : ∃ t vs, us ++ r :: z = t :: vs ∧ Stops (.conditional :: open_) t :=
    he.head hr
  simp only [List.length_cons, List.length_append, List.length_nil] at hn
  have hbody := ih.nodes (z := vs) h (by omega) ht
  rw [← heq] at hbody
  unfold branch
  rw [List.cons_append, List.append_assoc, List.singleton_append]
  refine .advance_bind (by simp [hd.1]) ((directiveCondition_reads hcond hclose).bind ?_)
  rintro _ ⟨c', rfl, hc'⟩
  refine hbody.bind fun ns' hns => ?_
  obtain ⟨m', ms, rfl⟩ : ∃ m' ms, ns' = m' :: ms := by
    cases ns' with
    | nil => simp [Node.unplacedAll] at hns
    | cons m' ms => exact ⟨m', ms, rfl⟩
  refine (ih.otherwise he hr (by omega)).bind ?_
  rintro _ ⟨es', rfl, hes⟩
  refine .previous_bind fun t => .pure ⟨_, rfl, ?_⟩
  rw [Node.unplaced, hc', hns, hes]

lemma otherwise_reads_succ {ts : List Token} {es : List Node} {open_ : List Block}
    (h : Else ts es) (hr : Directive "END_IF" r) (hn : 4 * ts.length + 1 ≤ n + 1) :
    (otherwise (n + 1) open_).Reads (ts ++ r :: z) (r :: z)
      fun o => ∃ es', o = some es' ∧ Node.unplacedAll es' = es := by
  unfold otherwise
  cases h with
  | absent =>
    refine .look (fun _ _ => isAtDirective_cons _ _ _ _ _) ?_
    rw [isAtDirective_eq_false hr (by decide)]
    refine .look (fun _ _ => isAtDirective_cons _ _ _ _ _) ?_
    rw [isAtDirective_eq_false hr (by decide)]
    exact .pure ⟨[], rfl, rfl⟩
  | otherwise hd h =>
    simp only [List.length_cons] at hn
    refine .look (fun _ _ => isAtDirective_cons _ _ _ _ _) ?_
    rw [isAtDirective_eq_false hd (by decide)]
    refine .look (fun _ _ => isAtDirective_cons _ _ _ _ _) ?_
    rw [if_pos (isAtDirective_eq_true hd (by decide))]
    refine .advance_bind (by simp [hd.1])
      ((ih.nodes h (by omega) (.branch hr (by decide))).bind fun ns' hns => ?_)
    exact .pure ⟨ns', rfl, hns⟩
  | @elseIf hs ts us c m ns es hh hb he =>
    simp only [List.length_append] at hn
    have hread : (branch n open_).ReadsNode (hs ++ (ts ++ (us ++ r :: z))) (r :: z)
        (.conditional c (m :: ns) es .empty) := ih.branch hh hb he hr (by omega)
    obtain ⟨hd, hcond, hclose⟩ := hh
    rw [List.append_assoc, List.append_assoc]
    refine .look (fun _ _ => isAtDirective_cons _ _ _ _ _) ?_
    rw [if_pos (isAtDirective_eq_true hd (by decide))]
    refine hread.bind ?_
    rintro _ ⟨node, rfl, hnode⟩
    exact .pure ⟨[node], rfl, by rw [Node.unplacedAll, hnode, Node.unplacedAll]⟩

lemma ifBlock_reads_succ {hs ts us : List Token} {c : Condition} {m : Node} {ns es : List Node}
    {close : Token} {open_ : List Block} (hh : Head "IF" hs c) (h : Nodes ts (m :: ns))
    (he : Else us es) (hc : Directive "END_IF" close)
    (hn : 4 * (hs.length + ts.length + us.length + 1) ≤ n + 1) :
    (ifBlock (n + 1) open_).ReadsNode (hs ++ (ts ++ (us ++ close :: z))) z
      (.conditional c (m :: ns) es .empty) := by
  have hread : (branch n open_).ReadsNode (hs ++ (ts ++ (us ++ close :: z))) (close :: z)
      (.conditional c (m :: ns) es .empty) := ih.branch hh h he hc (by omega)
  obtain ⟨hd, hcond, hclose⟩ := hh
  unfold ifBlock
  refine .look (fun _ _ => current_cons _ _ _ _) ?_
  refine hread.bind ?_
  rintro _ ⟨node, rfl, hnode⟩
  have hstray : (strayBranches n open_).Reads (close :: z) (close :: z) (· = false) := by
    obtain ⟨k, rfl⟩ : ∃ k, n = k + 1 := ⟨n - 1, by omega⟩
    refine .look (fun _ _ => isAtDirective_cons _ _ _ _ _) ?_
    rw [isAtDirective_eq_false hc (by decide)]
    exact .pure rfl
  refine hstray.bind ?_
  rintro _ rfl
  refine .look (fun _ _ => isAtDirective_cons _ _ _ _ _) ?_
  rw [if_pos (isAtDirective_eq_true hc (by decide))]
  refine .advance_bind (by simp [hc.1]) (.pure ⟨_, rfl, ?_⟩)
  rw [← hnode]
  cases node <;> rfl

end

lemma bodiesRead (n : Nat) : BodiesRead n := by
  induction n with
  | zero =>
    exact ⟨fun _ h => by omega, fun _ _ _ h => by omega, fun _ _ _ _ h => by omega,
      fun hh _ _ _ h => by cases hh; simp at h; omega, fun _ _ h => by omega⟩
  | succ n ih =>
    exact ⟨nodes_reads_succ ih, partBlock_reads_succ ih, ifBlock_reads_succ ih,
      branch_reads_succ ih, otherwise_reads_succ ih⟩

end Stencil.Template
