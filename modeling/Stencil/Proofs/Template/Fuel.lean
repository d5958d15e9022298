import Mathlib.Tactic.Common
import Stencil.Proofs.Template.Bodies

/-!
Fuel is of no matter: two readings come to the same as soon as the fuel of each suffices for the
tokens ahead.

What a reading passes over on the way (`Moves`) says how many tokens its next part has ahead, so
that the fuel left suffices there too.
-/

namespace Stencil.Template

open Grammar

variable {α β : Type} {p : Progress}

/-! ### Parts that come to the same -/

lemma Reading.bind_congr {x x' : Reading α} {f f' : α → Reading β} (hx : x.on p = x'.on p)
    (hf : ∀ a q, x.on p = (a, q) → (f a).on q = (f' a).on q) :
    (x >>= f : Reading β).on p = (x' >>= f' : Reading β).on p := by
  rw [Reading.on_bind, Reading.on_bind, ← hx]
  exact hf _ _ rfl

lemma Rule.bind_congr {x x' : Rule α} {f f' : α → Rule β} (hx : x.on p = x'.on p)
    (hf : ∀ a q, x.on p = (some a, q) → (f a).on q = (f' a).on q) :
    (x >>= f).on p = (x' >>= f').on p := by
  rw [Rule.on_bind, Rule.on_bind, ← hx]
  rcases h : x.on p with ⟨_ | a, q⟩
  · rfl
  · exact hf a q h

/-- What comes first is the same, so that the rest starts from the same place. -/
lemma Reading.first_congr {x : Reading α} {f f' : α → Reading β} {a : α} {q : Progress}
    (hx : x.on p = (a, q)) (h : (f a).on q = (f' a).on q) :
    (x >>= f : Reading β).on p = (x >>= f' : Reading β).on p := by
  rw [Reading.on_bind, Reading.on_bind, hx]
  exact h

lemma Rule.first_congr {x : Reading α} {f f' : α → Rule β} {a : α} {q : Progress}
    (hx : x.on p = (a, q)) (h : (f a).on q = (f' a).on q) :
    (liftM x >>= f : Rule β).on p = (liftM x >>= f' : Rule β).on p := by
  rw [Rule.on_lift_bind, Rule.on_lift_bind, hx]
  exact h

/-- A rule leaves the end ahead, and no more tokens than before. -/
lemma Rule.Yields.then_congr {x x' : Rule α} {f f' : α → Rule β} {D : List Token → α → Prop}
    (hy : x.Yields p D) (hp : p.Live) (hx : x.on p = x'.on p)
    (hf : ∀ a (q : Progress), q.Live → q.rest.length ≤ p.rest.length →
      (f a).on q = (f' a).on q) : (x >>= f).on p = (x' >>= f').on p := by
  obtain ⟨ts, ds, hm, -⟩ := hy
  refine Rule.bind_congr hx fun a q h => ?_
  rw [h] at hm
  have : p.rest.length = ts.length + q.rest.length := hm.length
  exact hf a q (hm.live hp) (by omega)

lemma Progress.Live.length_advance (hp : p.Live) (hk : p.current.kind ≠ .endOfInput) :
    p.advance.Live ∧ p.advance.rest.length + 1 = p.rest.length := by
  have ha := moves_advance hp hk
  have := ha.length
  simp only [List.length_singleton] at this
  exact ⟨ha.live hp, by omega⟩

/-! ### Further arguments -/

lemma moreArguments_congr {n m : Nat} (hp : p.Live) (hn : p.rest.length ≤ n)
    (hm : p.rest.length ≤ m) : (moreArguments n).on p = (moreArguments m).on p := by
  induction n generalizing p m with
  | zero =>
    rw [hp.rest_eq] at hn
    simp at hn
  | succ n ih =>
    obtain ⟨m, rfl⟩ : ∃ k, m = k + 1 := by
      refine ⟨m - 1, ?_⟩
      rw [hp.rest_eq, List.length_cons] at hm
      omega
    unfold moreArguments
    refine Rule.first_congr (on_isAt _ _) ?_
    split
    · rename_i hk
      have hk : p.current.kind = .comma := by simpa using hk
      obtain ⟨hq, hl⟩ := hp.length_advance (by simp [hk])
      refine Rule.first_congr (on_advance _) ?_
      refine (Rule.Yields.expect hq (by decide)).then_congr hq rfl fun t q hq' hl' => ?_
      exact Rule.bind_congr (ih hq' (by omega) (by omega)) fun _ _ _ => rfl
    · rfl

/-! ### Conditions -/

/-- Both `OR` and `AND`: a first operand and those behind it. -/
private lemma joined_congr {x x' : Rule Condition} {tail tail' : Rule (List Condition)}
    {join : List Condition → Span → Condition} {start : Token}
    {D : List Token → Condition → Prop} (hp : p.Live) (hy : x.Yields p D) (hx : x.on p = x'.on p)
    (ht : ∀ q : Progress, q.Live → q.rest.length ≤ p.rest.length → tail.on q = tail'.on q) :
    (do
      let first ← x
      let more ← tail
      match more with
      | [] => return first
      | _ => return join (first :: more) ⟨start.start, (← previous).stop⟩ : Rule Condition).on p =
    (do
      let first ← x'
      let more ← tail'
      match more with
      | [] => return first
      | _ => return join (first :: more) ⟨start.start, (← previous).stop⟩ : Rule Condition).on p :=
  hy.then_congr hp hx fun _ q hq hl => Rule.bind_congr (ht q hq hl) fun _ _ _ => rfl

/-- Both `OR` and `AND`: the operands behind the first. -/
private lemma tail_congr {word : String} {x x' : Rule Condition}
    {tail tail' : Rule (List Condition)} {D : List Token → Condition → Prop} (hp : p.Live)
    (hy : ∀ q : Progress, q.Live → q.rest.length < p.rest.length → x.Yields q D)
    (hx : ∀ q : Progress, q.Live → q.rest.length < p.rest.length → x.on q = x'.on q)
    (ht : ∀ q : Progress, q.Live → q.rest.length < p.rest.length → tail.on q = tail'.on q) :
    (do
      if ← isAtKeyword word then
        let _ ← advance
        let c ← x
        return c :: (← tail)
      else return [] : Rule (List Condition)).on p =
    (do
      if ← isAtKeyword word then
        let _ ← advance
        let c ← x'
        return c :: (← tail')
      else return [] : Rule (List Condition)).on p := by
  refine Rule.first_congr (on_isAtKeyword _ _) ?_
  split
  · rename_i hk
    obtain ⟨hq, hl⟩ := hp.length_advance (by simp [(word_of_isKeyword hk).1])
    refine Rule.first_congr (on_advance _) ?_
    refine (hy _ hq (by omega)).then_congr hq (hx _ hq (by omega)) fun c r hr hl' => ?_
    exact Rule.bind_congr (ht r hr (by omega)) fun _ _ _ => rfl
  · rfl

/-- The layers of conditions come to the same with any two fuels that suffice. -/
def ConditionsAgree (n : Nat) : Prop := ∀ (m : Nat) (p : Progress), p.Live →
  (5 * p.rest.length + 5 ≤ n → 5 * p.rest.length + 5 ≤ m →
    (orCondition n).on p = (orCondition m).on p) ∧
  (5 * p.rest.length + 1 ≤ n → 5 * p.rest.length + 1 ≤ m →
    (orRest n).on p = (orRest m).on p) ∧
  (5 * p.rest.length + 4 ≤ n → 5 * p.rest.length + 4 ≤ m →
    (andCondition n).on p = (andCondition m).on p) ∧
  (5 * p.rest.length + 1 ≤ n → 5 * p.rest.length + 1 ≤ m →
    (andRest n).on p = (andRest m).on p) ∧
  (5 * p.rest.length + 3 ≤ n → 5 * p.rest.length + 3 ≤ m →
    (notCondition n).on p = (notCondition m).on p) ∧
  (5 * p.rest.length + 2 ≤ n → 5 * p.rest.length + 2 ≤ m →
    (primary n).on p = (primary m).on p)

section

variable {n m : Nat} (ih : ConditionsAgree n) (hp : p.Live)

include ih hp

lemma orCondition_congr_succ (hn : 5 * p.rest.length + 5 ≤ n + 1)
    (hm : 5 * p.rest.length + 5 ≤ m + 1) :
    (orCondition (n + 1)).on p = (orCondition (m + 1)).on p := by
  unfold orCondition
  refine Rule.first_congr (on_current _) ?_
  exact joined_congr hp ((conditionsYield n p hp).2.2.1 (by omega))
    ((ih m p hp).2.2.1 (by omega) (by omega))
    fun q hq hl => (ih m q hq).2.1 (by omega) (by omega)

lemma orRest_congr_succ (hn : 5 * p.rest.length + 1 ≤ n + 1)
    (hm : 5 * p.rest.length + 1 ≤ m + 1) : (orRest (n + 1)).on p = (orRest (m + 1)).on p := by
  unfold orRest
  exact tail_congr hp (fun q hq hl => (conditionsYield n q hq).2.2.1 (by omega))
    (fun q hq hl => (ih m q hq).2.2.1 (by omega) (by omega))
    fun q hq hl => (ih m q hq).2.1 (by omega) (by omega)

lemma andCondition_congr_succ (hn : 5 * p.rest.length + 4 ≤ n + 1)
    (hm : 5 * p.rest.length + 4 ≤ m + 1) :
    (andCondition (n + 1)).on p = (andCondition (m + 1)).on p := by
  unfold andCondition
  refine Rule.first_congr (on_current _) ?_
  exact joined_congr hp ((conditionsYield n p hp).2.2.2.2.1 (by omega))
    ((ih m p hp).2.2.2.2.1 (by omega) (by omega))
    fun q hq hl => (ih m q hq).2.2.2.1 (by omega) (by omega)

lemma andRest_congr_succ (hn : 5 * p.rest.length + 1 ≤ n + 1)
    (hm : 5 * p.rest.length + 1 ≤ m + 1) : (andRest (n + 1)).on p = (andRest (m + 1)).on p := by
  unfold andRest
  exact tail_congr hp (fun q hq hl => (conditionsYield n q hq).2.2.2.2.1 (by omega))
    (fun q hq hl => (ih m q hq).2.2.2.2.1 (by omega) (by omega))
    fun q hq hl => (ih m q hq).2.2.2.1 (by omega) (by omega)

lemma notCondition_congr_succ (hn : 5 * p.rest.length + 3 ≤ n + 1)
    (hm : 5 * p.rest.length + 3 ≤ m + 1) :
    (notCondition (n + 1)).on p = (notCondition (m + 1)).on p := by
  unfold notCondition
  refine Rule.first_congr (on_isAtKeyword _ _) ?_
  split
  · rename_i hk
    obtain ⟨hq, hl⟩ := hp.length_advance (by simp [(word_of_isKeyword hk).1])
    refine Rule.first_congr (on_advance _) ?_
    exact Rule.bind_congr ((ih m _ hq).2.2.2.2.1 (by omega) (by omega)) fun _ _ _ => rfl
  · exact (ih m p hp).2.2.2.2.2 (by omega) (by omega)

lemma primary_congr_succ (hn : 5 * p.rest.length + 2 ≤ n + 1)
    (hm : 5 * p.rest.length + 2 ≤ m + 1) : (primary (n + 1)).on p = (primary (m + 1)).on p := by
  unfold primary
  refine Rule.first_congr (on_current _) ?_
  split
  · rename_i hk
    have hk : p.current.kind = .leftParen := by simpa using hk
    obtain ⟨hq, hl⟩ := hp.length_advance (by simp [hk])
    refine Rule.first_congr (on_advance _) ?_
    exact Rule.bind_congr ((ih m _ hq).1 (by omega) (by omega)) fun _ _ _ => rfl
  · rfl

end

lemma conditionsAgree (n : Nat) : ConditionsAgree n := by
  induction n with
  | zero => exact fun m p _ => ⟨fun h => by omega, fun h => by omega, fun h => by omega,
      fun h => by omega, fun h => by omega, fun h => by omega⟩
  | succ n ih =>
    intro m p hp
    cases m with
    | zero => exact ⟨fun _ h => by omega, fun _ h => by omega, fun _ h => by omega,
        fun _ h => by omega, fun _ h => by omega, fun _ h => by omega⟩
    | succ m => exact ⟨orCondition_congr_succ ih hp, orRest_congr_succ ih hp,
        andCondition_congr_succ ih hp, andRest_congr_succ ih hp, notCondition_congr_succ ih hp,
        primary_congr_succ ih hp⟩

/-! ### Bodies and blocks -/

/-- Behind something that takes a token, fewer tokens are ahead. -/
lemma Reading.Takes.then_congr {x x' : Reading α} {f f' : α → Reading β}
    {D : List Token → α → Prop} (ht : x.Takes p D) (hp : p.Live) (hx : x.on p = x'.on p)
    (hf : ∀ a (q : Progress), q.Live → q.rest.length < p.rest.length →
      (f a).on q = (f' a).on q) :
    (x >>= f : Reading β).on p = (x' >>= f' : Reading β).on p := by
  obtain ⟨ts, ds, hne, hm, -⟩ := ht
  refine Reading.bind_congr hx fun a q h => ?_
  rw [h] at hm
  have : p.rest.length = ts.length + q.rest.length := hm.length
  have := List.length_pos_iff.mpr hne
  exact hf a q (hm.live hp) (by omega)

lemma Reading.Gives.then_congr {x x' : Reading α} {f f' : α → Reading β}
    {D : List Token → α → Prop} (hg : x.Gives p D) (hp : p.Live) (hx : x.on p = x'.on p)
    (hf : ∀ a (q : Progress), q.Live → q.rest.length ≤ p.rest.length →
      (f a).on q = (f' a).on q) :
    (x >>= f : Reading β).on p = (x' >>= f' : Reading β).on p := by
  obtain ⟨ts, ds, hm, -⟩ := hg
  refine Reading.bind_congr hx fun a q h => ?_
  rw [h] at hm
  have : p.rest.length = ts.length + q.rest.length := hm.length
  exact hf a q (hm.live hp) (by omega)

/-- Bodies and blocks come to the same with any two fuels that suffice. -/
def BodiesAgree (n : Nat) : Prop := ∀ (m : Nat) (p : Progress) (open_ : List Block), p.Live →
  (4 * p.rest.length + 1 ≤ n → 4 * p.rest.length + 1 ≤ m →
    (nodes n open_).on p = (nodes m open_).on p) ∧
  (4 * p.rest.length ≤ n → 4 * p.rest.length ≤ m → Directive "SECTION" p.current →
    (partBlock n open_).on p = (partBlock m open_).on p) ∧
  (4 * p.rest.length ≤ n → 4 * p.rest.length ≤ m → Directive "IF" p.current →
    (ifBlock n open_).on p = (ifBlock m open_).on p) ∧
  (∀ name, 4 * p.rest.length ≤ n + 1 → 4 * p.rest.length ≤ m + 1 → Directive name p.current →
    (branch n open_).on p = (branch m open_).on p) ∧
  (4 * p.rest.length ≤ n → 4 * p.rest.length ≤ m →
    (otherwise n open_).on p = (otherwise m open_).on p) ∧
  (4 * p.rest.length + 1 ≤ n → 4 * p.rest.length + 1 ≤ m →
    (strayBranches n open_).on p = (strayBranches m open_).on p)

section

variable {n m : Nat} (ih : BodiesAgree n) (hp : p.Live) (open_ : List Block)

include ih hp

lemma item_congr (hn : 4 * p.rest.length ≤ n) (hm : 4 * p.rest.length ≤ m) :
    (item n open_ p.current).on p = (item m open_ p.current).on p := by
  unfold item
  cases hk : p.current.kind
  case directive =>
    dsimp only
    split
    · rfl
    split
    · rename_i h
      exact (ih m p open_ hp).2.2.1 hn hm ⟨hk, by simpa using h⟩
    split
    · rename_i h
      exact (ih m p open_ hp).2.1 hn hm ⟨hk, by simpa using h⟩
    · rfl
  all_goals rfl

lemma nodes_congr_succ (hn : 4 * p.rest.length + 1 ≤ n + 1)
    (hm : 4 * p.rest.length + 1 ≤ m + 1) :
    (nodes (n + 1) open_).on p = (nodes (m + 1) open_).on p := by
  rw [nodes_succ, nodes_succ]
  refine Reading.first_congr (on_current _) ?_
  split
  · rfl
  · rename_i hends
    have hitem := item_takesPlaced n hp open_ (by omega) (kind_of_endsBody_ne hends)
    refine hitem.then_congr hp (item_congr ih hp open_ (by omega) (by omega)) fun _ q hq hl => ?_
    exact Reading.bind_congr ((ih m q open_ hq).1 (by omega) (by omega)) fun _ _ _ => rfl

lemma partBlock_congr_succ (hn : 4 * p.rest.length ≤ n + 1) (hm : 4 * p.rest.length ≤ m + 1)
    (hd : Directive "SECTION" p.current) :
    (partBlock (n + 1) open_).on p = (partBlock (m + 1) open_).on p := by
  obtain ⟨hq, hl⟩ := hp.length_advance (by simp [hd.1])
  unfold partBlock
  refine Reading.first_congr (on_advance _) ?_
  refine (Reading.Gives.orSkipTo (by decide) (directiveArgument_yields hq _)).then_congr hq rfl
    fun name r hr hl' => ?_
  exact Reading.bind_congr ((ih m r _ hr).1 (by omega) (by omega)) fun _ _ _ => rfl

lemma otherwise_congr_succ (hn : 4 * p.rest.length ≤ n + 1) (hm : 4 * p.rest.length ≤ m + 1) :
    (otherwise (n + 1) open_).on p = (otherwise (m + 1) open_).on p := by
  unfold otherwise
  refine Reading.first_congr (on_isAtDirective _ _) ?_
  split
  · rename_i h
    obtain ⟨hk, hc⟩ := directive_of_isAtDirective h
    exact Reading.bind_congr ((ih m p open_ hp).2.2.2.1 "ELSE_IF" hn hm
      ⟨hk, by simpa using hc⟩) fun _ _ _ => rfl
  refine Reading.first_congr (on_isAtDirective _ _) ?_
  split
  · rename_i h
    obtain ⟨hq, hl⟩ := hp.length_advance (by simp [(directive_of_isAtDirective h).1])
    refine Reading.first_congr (on_advance _) ?_
    exact Reading.bind_congr ((ih m _ _ hq).1 (by omega) (by omega)) fun _ _ _ => rfl
  · rfl

lemma branch_congr_succ {name : String} (hn : 4 * p.rest.length ≤ n + 2)
    (hm : 4 * p.rest.length ≤ m + 2) (hd : Directive name p.current) :
    (branch (n + 1) open_).on p = (branch (m + 1) open_).on p := by
  obtain ⟨hq, hl⟩ := hp.length_advance (by simp [hd.1])
  unfold branch
  refine Reading.first_congr (on_advance _) ?_
  refine (directiveCondition_gives hq _).then_congr hq rfl fun c r hr hl' => ?_
  refine (nodes_gives n hr _ (by omega)).then_congr hr ((ih m r _ hr).1 (by omega) (by omega))
    fun ns s hs hl'' => ?_
  have hrest (s' : Progress) (hs' : s'.rest = s.rest) : (do
      let elseBranch ← otherwise n open_
      return conditional? c ns elseBranch ⟨p.current.start, (← previous).stop⟩ :
      Reading (Option Node)).on s' = (do
      let elseBranch ← otherwise m open_
      return conditional? c ns elseBranch ⟨p.current.start, (← previous).stop⟩ :
      Reading (Option Node)).on s' := by
    have hlive : s'.Live := by
      unfold Progress.Live
      rw [hs']
      exact hs
    exact Reading.bind_congr ((ih m s' open_ hlive).2.2.2.2.1 (by rw [hs']; omega)
      (by rw [hs']; omega)) fun _ _ _ => rfl
  split
  · exact Reading.first_congr rfl (hrest (s.record _ _) rfl)
  · exact hrest s rfl

lemma strayBranches_congr_succ (hn : 4 * p.rest.length + 1 ≤ n + 1)
    (hm : 4 * p.rest.length + 1 ≤ m + 1) :
    (strayBranches (n + 1) open_).on p = (strayBranches (m + 1) open_).on p := by
  unfold strayBranches
  refine Reading.first_congr (on_isAtDirective _ _) ?_
  split
  · rename_i h
    have hne : p.current.kind ≠ .endOfInput := by simp [(directive_of_isAtDirective h).1]
    refine Reading.first_congr (on_current _) (Reading.first_congr rfl ?_)
    refine (Reading.Takes.skipDirective (p := p.record _ _) hp hne).then_congr hp rfl
      fun _ q hq hl => ?_
    have hl : q.rest.length < p.rest.length := hl
    refine (nodes_gives n hq _ (by omega)).then_congr hq
      ((ih m q _ hq).1 (by omega) (by omega)) fun _ r hr hl' => ?_
    exact Reading.bind_congr ((ih m r open_ hr).2.2.2.2.2 (by omega) (by omega)) fun _ _ _ => rfl
  · rfl

lemma ifBlock_congr_succ (hn : 4 * p.rest.length ≤ n + 1) (hm : 4 * p.rest.length ≤ m + 1)
    (hd : Directive "IF" p.current) :
    (ifBlock (n + 1) open_).on p = (ifBlock (m + 1) open_).on p := by
  unfold ifBlock
  refine Reading.first_congr (on_current _) ?_
  refine (branch_takes n hp open_ hn hd).then_congr hp
    ((ih m p open_ hp).2.2.2.1 "IF" hn hm hd) fun node q hq hl => ?_
  exact Reading.bind_congr ((ih m q open_ hq).2.2.2.2.2 (by omega) (by omega)) fun _ _ _ => rfl

end

lemma bodiesAgree (n : Nat) : BodiesAgree n := by
  induction n with
  | zero =>
    intro m p open_ hp
    have hpos : 0 < p.rest.length := by rw [hp.rest_eq]; simp
    exact ⟨fun h => by omega, fun h => by omega, fun h => by omega, fun _ h => by omega,
      fun h => by omega, fun h => by omega⟩
  | succ n ih =>
    intro m p open_ hp
    have hpos : 0 < p.rest.length := by rw [hp.rest_eq]; simp
    cases m with
    | zero => exact ⟨fun _ h => by omega, fun _ h => by omega, fun _ h => by omega,
        fun _ _ h => by omega, fun _ h => by omega, fun _ h => by omega⟩
    | succ m => exact ⟨nodes_congr_succ ih hp open_, partBlock_congr_succ ih hp open_,
        ifBlock_congr_succ ih hp open_, fun _ => branch_congr_succ ih hp open_,
        otherwise_congr_succ ih hp open_, strayBranches_congr_succ ih hp open_⟩

/-- **Fuel of bodies**: any two amounts that suffice for the tokens ahead give the same. -/
theorem nodes_congr {n m : Nat} (open_ : List Block) (hp : p.Live)
    (hn : 4 * p.rest.length + 1 ≤ n) (hm : 4 * p.rest.length + 1 ≤ m) :
    (nodes n open_).on p = (nodes m open_).on p :=
  (bodiesAgree n m p open_ hp).1 hn hm

end Stencil.Template
