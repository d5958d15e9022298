import Stencil.Proofs.Template.Recovery

/-!
Slots, references and conditions account for themselves, and what comes of them is proper.

There is one lemma for each function of the parser that reads a part of such a construct, with any
fuel where there is fuel: what the parser lacks fuel for, it does not pass over.
-/

namespace Stencil.Template

variable {p : Progress}

lemma isPlain_current {kind : TokenKind} (h : (p.current.kind == kind) = true)
    (hk : isPlain kind = true) : isPlain p.current.kind = true := by
  rw [show p.current.kind = kind by simpa using h]
  exact hk

/-! ### Slots -/

lemma hint_accounts (hp : p.Live) : hint.Accounts p fun _ => True := by
  unfold hint
  refine .look (on_isAt _ _) ?_
  split
  · rename_i hk
    refine .advance_bind hp (isPlain_current hk rfl) fun hq => ?_
    refine .bind hq (.expect hq rfl) fun t q _ => ?_
    split
    · exact .pure fun _ _ => trivial
    · exact .recorded rfl (.pure fun _ _ => trivial)
  · exact .pure trivial

lemma slotDefault_accounts (hp : p.Live) : slotDefault.Accounts p fun _ => True := by
  unfold slotDefault
  refine .look (on_isAt _ _) ?_
  split
  · rename_i hk
    refine .advance_bind hp (isPlain_current hk rfl) fun hq => ?_
    refine .look (on_current _) ?_
    split
    · rename_i hv
      have hplain : isPlain p.advance.current.kind = true := by
        rw [Bool.or_eq_true, Bool.or_eq_true] at hv
        rcases hv with (hv | hv) | hv <;> exact isPlain_current hv rfl
      exact .advance_bind hq hplain fun _ => .pure fun _ _ => trivial
    · exact .giveUp hq rfl fun _ => rfl
  · exact .pure trivial

lemma slotBody_accounts (hp : p.Live) (opening : Token) :
    (slotBody opening).Accounts p fun n => Node.AllProper [n] := by
  unfold slotBody
  refine .bind hp (.expect hp rfl) fun name q hq => ?_
  refine .bind hq (hint_accounts hq) fun h q hq => ?_
  refine .bind hq (slotDefault_accounts hq) fun d q hq => ?_
  refine .bind hq (.expect hq rfl) fun close q _ => ?_
  refine .pure fun _ _ _ hname => ?_
  have hne : name.text ≠ "" := hname.2.identifier hname.1
  exact Node.allProper_leaf ⟨hne, fun h _ => Node.word_mem h⟩ rfl

/-! ### Arguments -/

lemma moreArguments_accounts (n : Nat) (hp : p.Live) :
    (moreArguments n).Accounts p fun _ => True := by
  induction n generalizing p with
  | zero => exact .pure trivial
  | succ n ih =>
    unfold moreArguments
    refine .look (on_isAt _ _) ?_
    split
    · rename_i hk
      refine .advance_bind hp (isPlain_current hk rfl) fun hq => ?_
      refine .bind hq (.expect hq rfl) fun t q hq => ?_
      refine .bind hq (ih hq) fun ts q _ => ?_
      exact .pure fun _ _ _ => trivial
    · exact .pure trivial

lemma enclosed_accounts (hp : p.Live) : enclosed.Accounts p fun a => a.Proper := by
  unfold enclosed
  refine .look (on_isAt _ _) ?_
  split
  · rename_i hk
    exact .advance_bind hp (isPlain_current hk rfl) fun _ => .pure fun _ => trivial
  refine .look (on_isAt _ _) ?_
  split
  · rename_i hk
    refine .advance_bind hp (isPlain_current hk rfl) fun hq => ?_
    refine .look (on_get _) (.bind hq (moreArguments_accounts _ hq) fun more q _ => ?_)
    split
    · exact .pure fun _ _ => trivial
    · rename_i hne
      refine .pure fun _ _ => ?_
      have hpos : 0 < more.length := List.length_pos_iff.mpr hne
      exact Nat.succ_le_succ hpos
  · exact .pure trivial

lemma operatorArguments_accounts (hp : p.Live) (hl : (p.current.kind == .leftParen) = true) :
    operatorArguments.Accounts p fun a => a.1.Proper := by
  unfold operatorArguments
  refine .advance_bind hp (isPlain_current hl rfl) fun hq => ?_
  refine .bind hq (enclosed_accounts hq) fun a q hq => ?_
  refine .bind hq (.expect hq rfl) fun close q _ => ?_
  exact .pure fun _ ha _ => ha

lemma contextBody_accounts (hp : p.Live) {operator : Token} (hk : operator.kind = .operator) :
    (contextBody operator).Accounts p fun a => a.1.Proper := by
  unfold contextBody
  refine .look (on_hasArguments _ _) ?_
  split
  · rename_i h
    simp only [Bool.and_eq_true] at h
    exact operatorArguments_accounts hp h.2.1
  · exact .giveUp hp rfl fun he => by simp [hk] at he

/-! ### Conditions -/

lemma operand_accounts (hp : p.Live) : operand.Accounts p fun _ => True := by
  unfold operand
  refine .look (on_current _) ?_
  split
  · rename_i hk
    refine .advance_bind hp (isPlain_current hk rfl) fun hq => ?_
    refine .bind hq (.expect hq rfl) fun name q hq => ?_
    refine .look (on_isAt _ _) ?_
    split
    · exact .look (on_current _) (.giveUp hq rfl fun _ => rfl)
    · refine .bind hq (.expect hq rfl) fun close q _ => ?_
      exact .pure fun _ _ _ => trivial
  split
  · rename_i hk
    rw [Bool.and_eq_true] at hk
    exact .advance_bind hp (isPlain_current hk.1 rfl) fun _ => .pure fun _ => trivial
  · exact .giveUp hp rfl fun _ => rfl

lemma contextPresence_accounts (hp : p.Live) (hk : p.current.kind = .operator) :
    contextPresence.Accounts p fun c => c.AllProper := by
  have hne : p.current.kind = .error → ∀ q : Progress, q.current = p.current := by simp [hk]
  unfold contextPresence
  refine .advance_bind hp (by rw [hk]; rfl) fun hq => .look (on_hasArguments _ _) ?_
  split
  · rename_i h
    rw [Bool.and_eq_true] at h
    refine .bind hq (operatorArguments_accounts hq h.1) fun a q hq => ?_
    split
    · split
      · exact .giveUp hq rfl fun he => hne he _
      · rename_i path close hpath
        refine .pure fun _ _ => .alone rfl ?_
        simpa [Condition.Proper] using hpath
    · exact .giveUp hq rfl fun he => hne he _
  · exact .giveUp hq rfl fun he => hne he _

lemma appliedTo_accounts (hp : p.Live) (operator : Token) :
    (appliedTo operator).Accounts p fun a => a.1.Proper := by
  unfold appliedTo
  refine .look (on_hasArguments _ _) ?_
  split
  · rename_i h
    rw [Bool.and_eq_true] at h
    exact operatorArguments_accounts hp h.1
  · exact .pure trivial

lemma applied_accounts (hp : p.Live) (name : String) {operator : Token}
    (hk : operator.kind = .operator) (a : Argument) (span : Span) :
    (applied name operator a span).Accounts p fun c =>
      operator.Worded → a.Proper → c.AllProper := by
  have hne : operator.kind = .error → p.current = operator := by simp [hk]
  unfold applied
  dsimp only
  split
  · split
    · split
      · exact .giveUp hp rfl hne
      · rename_i question hq
        refine .pure fun _ _ => .alone rfl ?_
        simpa [Condition.Proper] using hq
    · exact .giveUp hp rfl hne
  · rename_i hj
    split
    · exact .giveUp hp rfl hne
    · rename_i hc
      refine .pure fun hw ha => .alone rfl ⟨?_, ha⟩
      have hword := hw.operator hk
      exact ⟨hword.toLower, hword.toLower_toLower, by simpa using hj, by simpa using hc⟩

lemma predicate_accounts (hp : p.Live) (hk : p.current.kind = .operator) (name : String)
    (span : Span) : (predicate name span).Accounts p fun c => c.AllProper := by
  unfold predicate
  refine .advance_bind hp (by rw [hk]; rfl) fun hq => ?_
  refine .bind hq (appliedTo_accounts hq _) fun a q hq => ?_
  exact (applied_accounts hq name hk _ _).mono fun c h ha hw => h hw ha

/-- Both `OR` and `AND`: the condition of a first operand and those behind it. -/
private lemma joined_accounts {x : Rule Condition} {tail : Rule (List Condition)}
    {join : List Condition → Span → Condition} {start : Token} (hp : p.Live)
    (hx : x.Accounts p fun c => c.AllProper)
    (htail : ∀ q : Progress, q.Live → tail.Accounts q fun cs => ∀ c ∈ cs, c.AllProper)
    (hjoin : ∀ {cs : List Condition}, 2 ≤ cs.length → (∀ c ∈ cs, c.AllProper) →
      ∀ s, (join cs s).AllProper) :
    (do
      let first ← x
      let more ← tail
      match more with
      | [] => return first
      | _ => return join (first :: more) ⟨start.start, (← previous).stop⟩ : Rule Condition).Accounts
      p fun c => c.AllProper := by
  refine .bind hp hx fun c q hq => .bind hq (htail q hq) fun cs q _ => ?_
  split
  · exact .pure fun _ hc => hc
  · rename_i hne
    refine .look (on_previous _) (.pure fun hcs hc => hjoin ?_ ?_ _)
    · have hpos : 0 < cs.length := List.length_pos_iff.mpr hne
      exact Nat.succ_le_succ hpos
    · exact List.forall_mem_cons.mpr ⟨hc, hcs⟩

/-- Both `OR` and `AND`: the operands behind the first. -/
private lemma tail_accounts {word : String} {x : Rule Condition} {tail : Rule (List Condition)}
    (hp : p.Live) (hx : ∀ q : Progress, q.Live → x.Accounts q fun c => c.AllProper)
    (htail : ∀ q : Progress, q.Live → tail.Accounts q fun cs => ∀ c ∈ cs, c.AllProper) :
    (do
      if ← isAtKeyword word then
        let _ ← advance
        let c ← x
        return c :: (← tail)
      else return [] : Rule (List Condition)).Accounts p fun cs => ∀ c ∈ cs, c.AllProper := by
  refine .look (on_isAtKeyword _ _) ?_
  split
  · rename_i hk
    rw [isKeyword, Bool.and_eq_true] at hk
    refine .advance_bind hp (isPlain_current hk.1 rfl) fun hq => ?_
    refine .bind hq (hx _ hq) fun c q hq => .bind hq (htail q hq) fun cs q _ => ?_
    exact .pure fun hcs hc _ => List.forall_mem_cons.mpr ⟨hc, hcs⟩
  · exact .pure (by simp)

/-- The layers of conditions account for themselves, with any fuel. -/
structure ConditionsAccount (n : Nat) : Prop where
  orCondition {p : Progress} (hp : p.Live) : (orCondition n).Accounts p fun c => c.AllProper
  orRest {p : Progress} (hp : p.Live) : (orRest n).Accounts p fun cs => ∀ c ∈ cs, c.AllProper
  andCondition {p : Progress} (hp : p.Live) : (andCondition n).Accounts p fun c => c.AllProper
  andRest {p : Progress} (hp : p.Live) : (andRest n).Accounts p fun cs => ∀ c ∈ cs, c.AllProper
  notCondition {p : Progress} (hp : p.Live) : (notCondition n).Accounts p fun c => c.AllProper
  primary {p : Progress} (hp : p.Live) : (primary n).Accounts p fun c => c.AllProper

section

variable {n : Nat} (ih : ConditionsAccount n) (hp : p.Live)

include ih hp

lemma notCondition_accounts_succ :
    (notCondition (n + 1)).Accounts p fun c => c.AllProper := by
  unfold notCondition
  refine .look (on_isAtKeyword _ _) ?_
  split
  · rename_i hk
    rw [isKeyword, Bool.and_eq_true] at hk
    refine .advance_bind hp (isPlain_current hk.1 rfl) fun hq => ?_
    refine .bind hq (ih.notCondition hq) fun c q _ => .look (on_previous _) ?_
    exact .pure fun hc _ => hc.not _
  · exact ih.primary hp

lemma primary_accounts_succ : (primary (n + 1)).Accounts p fun c => c.AllProper := by
  unfold primary
  refine .look (on_current _) ?_
  split
  · rename_i hk
    refine .advance_bind hp (isPlain_current hk rfl) fun hq => ?_
    refine .bind hq (ih.orCondition hq) fun c q hq => ?_
    refine .bind hq (.expect hq rfl) fun close q _ => ?_
    exact .pure fun _ hc _ => hc
  split
  · rename_i hk
    have hplain : isPlain p.current.kind = true := by
      simp only [isKeyword, ← Bool.and_or_distrib_left, Bool.and_eq_true] at hk
      exact isPlain_current hk.1 rfl
    exact .advance_bind hp hplain fun _ => .pure fun _ => .alone rfl trivial
  split
  · rename_i hk
    rw [Bool.and_eq_true] at hk
    exact contextPresence_accounts hp (by simpa using hk.1)
  · refine .bind hp (operand_accounts hp) fun v q hq => .look (on_isAt _ _) ?_
    split
    · rename_i hk
      exact (predicate_accounts hq (by simpa using hk) _ _).mono fun _ hc _ => hc
    · exact .pure fun _ => .alone rfl trivial

end

lemma conditionsAccount (n : Nat) : ConditionsAccount n := by
  induction n with
  | zero =>
    have hfail {γ : Type} (p : Progress) (P : γ → Prop) :
        (failure : Rule γ).Accounts p P := ⟨[], [], .refl p, .nil, fun _ => nofun⟩
    constructor <;> exact fun _ => hfail _ _
  | succ n ih =>
    exact {
      orCondition := fun hp => .look (on_current _)
        (joined_accounts hp (ih.andCondition hp) (fun _ => ih.orRest) .or)
      orRest := fun hp => tail_accounts hp (fun _ => ih.andCondition) (fun _ => ih.orRest)
      andCondition := fun hp => .look (on_current _)
        (joined_accounts hp (ih.notCondition hp) (fun _ => ih.andRest) .and)
      andRest := fun hp => tail_accounts hp (fun _ => ih.notCondition) (fun _ => ih.andRest)
      notCondition := notCondition_accounts_succ ih
      primary := primary_accounts_succ ih }

lemma closedCondition_accounts (hp : p.Live) :
    closedCondition.Accounts p fun c => c.AllProper := by
  unfold closedCondition
  refine .look (on_get _) ?_
  refine .bind hp ((conditionsAccount _).orCondition hp) fun c q hq => ?_
  refine .bind hq (.expect hq rfl) fun close q _ => ?_
  exact .pure fun _ hc => hc

lemma directiveCondition_accounts (hp : p.Live) (directive : Token) :
    (directiveCondition directive).Accounts p fun o => ∀ c ∈ o, c.AllProper := by
  unfold directiveCondition
  refine .look (on_isAt _ _) ?_
  split
  · rename_i hk
    have hplain := isPlain_current hk rfl
    refine .recorded rfl (.advance_neutral hp ?_ ?_ (.pure nofun))
    · exact ne_endOfInput_of_isPlain hplain
    · exact neutral_of_isPlain hplain
  · exact .orSkipTo rfl (closedCondition_accounts hp)

/-! ### Directives -/

lemma nameMark_accounts (hp : p.Live) (directive : Token) :
    (nameMark directive).Accounts p fun _ => True := by
  unfold nameMark
  refine .look (on_current _) (.look (on_get _) ?_)
  dsimp only
  split
  · rename_i h
    simp only [Bool.and_eq_true] at h
    have hplain : isPlain p.current.kind = true := isPlain_current h.1.1.2 rfl
    have hne := ne_endOfInput_of_isPlain hplain
    have hq := (moves_advance hp hne).live hp
    have hnext : isPlain p.advance.current.kind = true := by
      have hequals : (p.advance.current.kind == .equals) = true := by
        rw [← hp.headD_drop hne]
        exact h.2
      exact isPlain_current hequals rfl
    refine .advance_neutral hp hne (neutral_of_isPlain hplain) ?_
    refine .advance_neutral hq (ne_endOfInput_of_isPlain hnext) (neutral_of_isPlain hnext) ?_
    exact .pure trivial
  · exact .pure trivial

lemma directiveArgument_accounts (hp : p.Live) (directive : Token) :
    (directiveArgument directive).Accounts p fun _ => True := by
  unfold directiveArgument
  refine .bind hp (.lift (nameMark_accounts hp directive)) fun _ q hq => ?_
  refine .look (on_current _) ?_
  split
  · rename_i hk
    have hplain : isPlain q.current.kind = true := by
      rw [Bool.or_eq_true] at hk
      rcases hk with hk | hk <;> exact isPlain_current hk rfl
    refine .advance_bind hq hplain fun hq => ?_
    refine .bind hq (.expect hq rfl) fun close q _ => ?_
    exact .pure fun _ _ _ => trivial
  · exact .giveUp hq rfl fun _ => rfl

/-! ### Nodes without bodies -/

lemma slot_accounts (hp : p.Live) (hk : p.current.kind = .slotOpen) :
    slot.Accounts p fun o => ∀ n ∈ o, Node.AllProper [n] := by
  have hplain : isPlain p.current.kind = true := by rw [hk]; rfl
  have hne := ne_endOfInput_of_isPlain hplain
  have hq := (moves_advance hp hne).live hp
  refine .advance_neutral hp hne (neutral_of_isPlain hplain) ?_
  exact .orSkipTo rfl (slotBody_accounts hq _)

lemma contextNode_accounts (hp : p.Live) (hk : p.current.kind = .operator) :
    contextNode.Accounts p fun o => ∀ n ∈ o, Node.AllProper [n] := by
  have hplain : isPlain p.current.kind = true := by rw [hk]; rfl
  have hne := ne_endOfInput_of_isPlain hplain
  have hq := (moves_advance hp hne).live hp
  refine .advance_neutral hp hne (neutral_of_isPlain hplain) ?_
  refine .bind hq (.orSkipTo rfl (contextBody_accounts hq hk)) fun o q _ => ?_
  split
  · exact .pure fun _ => nofun
  · rename_i path close
    split
    · exact .recorded rfl (.pure fun _ => nofun)
    · rename_i hpath
      refine .pure fun _ n hn => ?_
      obtain rfl := Option.some.inj hn
      have hne : path ≠ "" := by simpa using hpath
      exact Node.allProper_leaf hne rfl
  · exact .recorded rfl (.pure fun _ => nofun)

lemma reference_accounts (hp : p.Live) (hk : p.current.kind ≠ .endOfInput)
    (hn : p.current.Neutral) :
    reference.Accounts p fun o => ∀ n ∈ o, Node.AllProper [n] := by
  have hq := (moves_advance hp hk).live hp
  refine .advance_neutral hp hk hn ?_
  refine .bind hq (.orSkipTo rfl (directiveArgument_accounts hq _)) fun o q _ => ?_
  split
  · exact .pure fun _ => nofun
  · rename_i path close
    refine .pure fun _ n hn => ?_
    obtain rfl := Option.some.inj hn
    split
    · exact Node.allProper_leaf trivial rfl
    · exact Node.allProper_leaf trivial rfl

end Stencil.Template
