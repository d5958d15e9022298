import Stencil.Proofs.Template.Constructs
import Stencil.Proofs.Template.Soundness

/-!
What bodies and blocks come to, whether a fault is found in them or not.

For every function of the parser that reads bodies, what it finds accounts for the tokens that it
passes over, the trees that it keeps are proper, and if it finds no fault, the tokens are these
trees, with their places. All three are carried through one induction on the fuel, where this
suffices for the tokens ahead.
-/

namespace Stencil.Template

open Grammar

variable {α β : Type} {p q : Progress} {ts us : List Token} {ds es : List Diagnostic}

/-! ### Readings that meet what is said of them -/

namespace Reading.Meets

variable {D : List Token → List Diagnostic → α → Prop} {E : List Token → List Diagnostic → β → Prop}

lemma pure {a : α} (h : D [] [] a) : (Pure.pure a : Reading α).Meets p D :=
  ⟨[], [], .refl p, h⟩

lemma bind {x : Reading α} {f : α → Reading β} (hx : x.Meets p D)
    (hf : ∀ a ts ds q, Passes p ts ds q → D ts ds a →
      (f a).Meets q fun us es b => E (ts ++ us) (es ++ ds) b) :
    (x >>= f : Reading β).Meets p E := by
  obtain ⟨ts, ds, hpass, hd⟩ := hx
  obtain ⟨us, es, hpass', he⟩ := hf _ ts ds _ hpass hd
  exact ⟨ts ++ us, es ++ ds, hpass.trans hpass', he⟩

lemma mono {x : Reading α} {D' : List Token → List Diagnostic → α → Prop} (h : x.Meets p D)
    (hD : ∀ ts ds a, D ts ds a → D' ts ds a) : x.Meets p D' := by
  obtain ⟨ts, ds, hpass, hd⟩ := h
  exact ⟨ts, ds, hpass, hD ts ds _ hd⟩

/-- Looking at the progress without changing it. -/
lemma look {x : Reading α} {f : α → Reading β} {a : α} (hx : x.on p = (a, p))
    (h : (f a).Meets p E) : (x >>= f : Reading β).Meets p E := by
  unfold Reading.Meets
  rw [Reading.on_bind, hx]
  exact h

/-- Passing over the current token first. -/
lemma advance_bind {f : Token → Reading β} (hp : p.Live) (hk : p.current.kind ≠ .endOfInput)
    (h : (f p.current).Meets p.advance fun us es b => E (p.current :: us) es b) :
    (Template.advance >>= f : Reading β).Meets p E := by
  obtain ⟨us, es, hpass, he⟩ := h
  refine ⟨p.current :: us, es, ?_, he⟩
  have hboth := (Passes.advance hp hk).trans hpass
  rwa [List.append_nil] at hboth

lemma recorded {problem : Problem} {start : Position} {f : Unit → Reading α}
    (h : (f ()).Meets (p.record problem start) fun us es a => D us (es ++ [⟨problem, start⟩]) a) :
    (record problem start >>= f : Reading α).Meets p D := by
  obtain ⟨us, es, hpass, hd⟩ := h
  exact ⟨us, _, (Passes.record problem start p).trans hpass, hd⟩

/-- What a reading accounts for and what it gives without a fault, put together. -/
lemma of_accounts {x : Reading α} {P : α → Prop} {F : List Token → α → Prop}
    (h : x.Accounts p P) (k : x.Gives p F) : x.Meets p fun ts ds a => Account ts ds ∧
      ((∀ t ∈ ts, t.Worded) → P a) ∧ (ds = [] → F ts a) := by
  obtain ⟨ts, ds, hpass, haccount, ha⟩ := h
  obtain ⟨us, es, hmoves, hf⟩ := k
  obtain ⟨rfl, rfl⟩ := Passes.unique hpass.toMoves hmoves
  exact ⟨ts, ds, hpass, haccount, ha, hf⟩

lemma gives {x : Reading α} {F : List Token → α → Prop} (h : x.Meets p D)
    (hF : ∀ ts a, D ts [] a → F ts a) : x.Gives p F := by
  obtain ⟨ts, ds, hpass, hd⟩ := h
  exact ⟨ts, ds, hpass.toMoves, fun hds => hF ts _ (hds ▸ hd)⟩

lemma takes {x : Reading α} {F : List Token → α → Prop} (h : x.Meets p D)
    (hne : ∀ ts ds a, D ts ds a → ts ≠ []) (hF : ∀ ts a, D ts [] a → F ts a) :
    x.Takes p F := by
  obtain ⟨ts, ds, hpass, hd⟩ := h
  exact ⟨ts, ds, hne ts ds _ hd, hpass.toMoves, fun hds => hF ts _ (hds ▸ hd)⟩

end Reading.Meets

/-! ### Bodies and blocks -/

/-- What a body is read from and what is found in it. -/
structure IsBody (ts : List Token) (ds : List Diagnostic) (ns : List Node) : Prop where
  account : Account ts ds
  proper : (∀ t ∈ ts, t.Worded) → Node.AllProper ns
  placed : ds = [] → ∀ a b, Placed.Nodes Placed.Anywhere a ts ns b

/-- What one item of a body is read from, the token `t` first. -/
structure IsItem (t : Token) (ts : List Token) (ds : List Diagnostic) (o : Option Node) :
    Prop where
  first : ∃ us, ts = t :: us
  account : Account ts ds
  proper : (∀ t ∈ ts, t.Worded) → Node.AllProper o.toList
  placed : ds = [] → ∃ n, o = some n ∧ Placed.OneNode Placed.Anywhere ts n

/-- What a branch is read from behind its directive `d`, for which its block accounts. -/
structure IsBranch (name : String) (d : Token) (us : List Token) (ds : List Diagnostic)
    (o : Option Node) : Prop where
  account : Account us ds
  proper : (∀ t ∈ us, t.Worded) → Node.AllProper o.toList
  placed : ds = [] → ∃ n, o = some n ∧ Placed.Branch name d us n

/-- What the branches behind a body are read from. -/
structure IsElse (ts : List Token) (ds : List Diagnostic) (o : Option (List Node)) : Prop where
  account : Account ts ds
  proper : (∀ t ∈ ts, t.Worded) → ∀ es ∈ o, Node.AllProper es
  placed : ds = [] → ∃ es, o = some es ∧ ∀ a b, Placed.Else Placed.Anywhere a ts es b

/-- What branches behind the last one are read from: without a fault, there are none. -/
structure IsStray (ts : List Token) (ds : List Diagnostic) (stray : Bool) : Prop where
  account : Account ts ds
  placed : ds = [] → ts = [] ∧ stray = false

/-- What bodies and blocks meet when the fuel suffices for the tokens ahead. -/
structure BodiesMeet (n : Nat) : Prop where
  nodes {p : Progress} (open_ : List Block) (hp : p.Live) (hn : 4 * p.rest.length + 1 ≤ n) :
    (nodes n open_).Meets p IsBody
  partBlock {p : Progress} (open_ : List Block) (hp : p.Live) (hn : 4 * p.rest.length ≤ n)
    (hd : Directive "SECTION" p.current) : (partBlock n open_).Meets p (IsItem p.current)
  ifBlock {p : Progress} (open_ : List Block) (hp : p.Live) (hn : 4 * p.rest.length ≤ n)
    (hd : Directive "IF" p.current) : (ifBlock n open_).Meets p (IsItem p.current)
  branch {p : Progress} {name : String} (open_ : List Block) (hp : p.Live)
    (hn : 4 * p.rest.length ≤ n + 1) (hd : Directive name p.current) :
    (branch n open_).Meets p fun ts ds o =>
      ∃ us, ts = p.current :: us ∧ IsBranch name p.current us ds o
  otherwise {p : Progress} (open_ : List Block) (hp : p.Live) (hn : 4 * p.rest.length ≤ n) :
    (otherwise n open_).Meets p IsElse
  strayBranches {p : Progress} (open_ : List Block) (hp : p.Live)
    (hn : 4 * p.rest.length + 1 ≤ n) : (strayBranches n open_).Meets p IsStray

lemma directive_of_isAtDirective {names : List String} {t : Token}
    (h : (t.kind == .directive && names.contains t.text) = true) :
    t.kind = .directive ∧ t.text ∈ names := by
  simpa using h

lemma opens_of_directive {t : Token} {b : Block} (h : Directive b.openerName t) :
    t.opens b = true := Token.opens_iff.mpr h

lemma closes_of_directive {t : Token} {b : Block} (h : Directive b.closerName t) :
    t.closes b = true := Token.closes_iff.mpr h

/-- Directives between branches open and close nothing. -/
lemma neutral_of_directive {name : String} {t : Token} (h : Directive name t)
    (hn : name ∈ ["ELSE", "ELSE_IF", "IMPORT", "INCLUDE"]) : t.Neutral := by
  refine Token.neutral_of_text h.1 fun b => ?_
  rw [h.2]
  simp only [List.mem_cons, List.not_mem_nil, or_false] at hn
  rcases hn with rfl | rfl | rfl | rfl <;> cases b <;> decide

lemma not_opens_of_isCloser {t : Token} (h : isCloser t.text = true) (b : Block) :
    t.opens b = false := by
  refine Token.opens_eq_false fun ht => ?_
  rw [ht] at h
  cases b <;> simp [isCloser, closers, Block.openerName] at h

/-- What directives that are not known to the parser are called. -/
lemma neutral_of_unknown {t : Token} (hk : t.kind = .directive) (hc : isCloser t.text = false)
    (hif : t.text ≠ "IF") (hpart : t.text ≠ "SECTION") : t.Neutral := by
  refine Token.neutral_of_text hk fun b => ⟨?_, fun ht => ?_⟩
  · cases b
    · exact hif
    · exact hpart
  · rw [ht] at hc
    cases b <;> simp [isCloser, closers, Block.closerName] at hc

/-- Passing over a directive that is not read, and accounting for what is behind it. -/
lemma skipDirective_meets (hp : p.Live) (hk : p.current.kind ≠ .endOfInput) :
    skipDirective.Meets p fun ts ds _ => ∃ us, ts = p.current :: us ∧ Account us ds := by
  unfold skipDirective
  have hclose : isPlain .directiveClose = true := rfl
  refine .advance_bind hp hk ?_
  split
  · obtain ⟨us, es, hpass, haccount, -⟩ := Reading.Accounts.recover hclose p.advance
    exact ⟨us, es, hpass, us, rfl, haccount⟩
  · exact .pure ⟨[], rfl, .nil⟩

/-- A directive that is not read is a fault, and is accounted for if it is with this. -/
lemma skipped_meets {problem : Problem} {start : Position} (hp : p.Live)
    (hk : p.current.kind ≠ .endOfInput) (h : Account [p.current] [⟨problem, start⟩]) :
    Reading.Meets (do record problem start; skipDirective; return none) p
      (IsItem p.current) := by
  refine .recorded ((skipDirective_meets (p := p.record problem start) hp hk).bind
    fun _ ts ds q _ hs => ?_)
  obtain ⟨us, rfl, haccount⟩ := hs
  refine .pure ⟨⟨us ++ [], rfl⟩, ?_, fun _ => Node.allProper_nil, fun hds => by simp at hds⟩
  simpa using h.append haccount

/-- A node without bodies. -/
lemma isItem_of_takes {x : Reading (Option Node)}
    (h : x.Accounts p fun o => ∀ n ∈ o, Node.AllProper [n]) (k : x.TakesPlaced p) :
    x.Meets p (IsItem p.current) := by
  obtain ⟨ts, ds, hpass, haccount, ha⟩ := h
  obtain ⟨us, es, hne, hmoves, hf⟩ := k
  obtain ⟨rfl, rfl⟩ := Passes.unique hpass.toMoves hmoves
  obtain ⟨t, us, rfl⟩ := List.exists_cons_of_ne_nil hne
  have hfirst : p.current = t := by rw [Progress.current, hpass.rest]; rfl
  refine ⟨t :: us, ds, hpass, ⟨us, by rw [hfirst]⟩, haccount, fun hw => ?_, hf⟩
  cases ho : (x.on p).1 with
  | none => exact Node.allProper_nil
  | some n => exact ha hw n ho

lemma IsBody.nil : IsBody [] [] [] :=
  ⟨.nil, fun _ => Node.allProper_nil, fun _ _ _ => .nil trivial⟩

lemma IsBody.cons {t : Token} {o : Option Node} {ns : List Node} (h : IsItem t ts ds o)
    (k : IsBody us es ns) : IsBody (ts ++ us) (es ++ ds) (o.toList ++ ns) where
  account := h.account.append k.account
  proper hw := by
    obtain ⟨hts, hus⟩ := List.forall_mem_append.mp hw
    exact Node.allProper_append.mpr ⟨h.proper hts, k.proper hus⟩
  placed hds a b := by
    obtain ⟨hes, hds⟩ := List.append_eq_nil_iff.mp hds
    obtain ⟨n, rfl, hn⟩ := h.placed hds
    exact .cons trivial hn (k.placed hes _ _)

/-- What a branch comes to is proper when all that it needs is. -/
lemma allProper_conditional? {condition : Option Condition} {ns : List Node}
    {e : Option (List Node)} (hc : ∀ c ∈ condition, c.AllProper) (hns : Node.AllProper ns)
    (he : ∀ es ∈ e, Node.AllProper es) (s : Span) :
    Node.AllProper (conditional? condition ns e s).toList := by
  unfold conditional?
  split
  · split
    · exact Node.allProper_nil
    · rename_i c es hne
      refine Node.allProper_singleton ⟨by simpa using hne, hc c rfl⟩ ?_
      exact Node.allProper_append.mpr ⟨hns, he es rfl⟩
  · exact Node.allProper_nil

section

variable {n : Nat} (ih : BodiesMeet n) (hp : p.Live) (open_ : List Block)

include ih hp

/-- What a body reads from a token on that does not end it. -/
lemma item_meets (hn : 4 * p.rest.length ≤ n) (hne : p.current.kind ≠ .endOfInput) :
    (item n open_ p.current).Meets p (IsItem p.current) := by
  have plain (h : isPlain p.current.kind = true) (problem : Problem)
      (hlocal : problem.isLocal = true) :
      Reading.Meets (do record problem p.current.start; let _ ← advance; return none) p
        (IsItem p.current) := by
    refine .recorded (.advance_bind (p := p.record _ _) hp hne (.pure ?_))
    refine ⟨⟨[], rfl⟩, ?_, fun _ => Node.allProper_nil, fun hds => by simp at hds⟩
    exact .append (.fault hlocal) (.token (neutral_of_isPlain h))
  unfold item
  cases hk : p.current.kind
  case text =>
    refine .advance_bind hp hne (.pure ⟨⟨[], rfl⟩, ?_, fun _ => ?_, fun _ => ⟨_, rfl, ?_⟩⟩)
    · exact .token (neutral_of_isPlain (by rw [hk]; rfl))
    · exact Node.allProper_leaf trivial rfl
    · refine .leaf ?_ trivial rfl
      simpa [Node.unplaced] using OneNode.text hk
  case slotOpen => exact isItem_of_takes (slot_accounts hp hk) (slot_takesPlaced hp hk)
  case operator =>
    exact isItem_of_takes (contextNode_accounts hp hk) (contextNode_takesPlaced hp hk)
  case error =>
    refine .advance_bind hp hne ?_
    refine Reading.Meets.recorded (p := p.advance) (.pure ?_)
    exact ⟨⟨[], rfl⟩, .error hk, fun _ => Node.allProper_nil, fun hds => by simp at hds⟩
  case directive =>
    dsimp only
    split
    · rename_i hc
      exact skipped_meets hp hne (.stray hk (not_opens_of_isCloser hc) rfl)
    rename_i hc
    split
    · rename_i hif
      exact ih.ifBlock open_ hp hn ⟨hk, by simpa using hif⟩
    rename_i hif
    split
    · rename_i hpart
      exact ih.partBlock open_ hp hn ⟨hk, by simpa using hpart⟩
    rename_i hpart
    split
    · rename_i href
      have href : p.current.text = "IMPORT" ∨ p.current.text = "INCLUDE" := by simpa using href
      have hneutral : p.current.Neutral := by
        rcases href with h | h <;> exact neutral_of_directive ⟨hk, h⟩ (by simp)
      exact isItem_of_takes (reference_accounts hp hne hneutral) (reference_takesPlaced hp hk href)
    · have hneutral := neutral_of_unknown hk (by simpa using hc) (by simpa using hif)
        (by simpa using hpart)
      exact skipped_meets hp hne (.append (.fault rfl) (.token hneutral))
  case endOfInput => exact absurd hk hne
  all_goals exact plain (by rw [hk]; rfl) _ rfl

lemma nodes_meets_succ (hn : 4 * p.rest.length + 1 ≤ n + 1) :
    (nodes (n + 1) open_).Meets p IsBody := by
  rw [nodes_succ]
  refine .look (on_current _) ?_
  split
  · exact .pure .nil
  · rename_i hends
    refine (item_meets ih hp open_ (by omega) (kind_of_endsBody_ne hends)).bind
      fun o ts ds q hpass ho => ?_
    have hlength := hpass.length
    obtain ⟨us, hus⟩ := ho.first
    rw [hus, List.length_cons] at hlength
    refine (ih.nodes open_ (hpass.live hp) (by omega)).bind fun ns us es r _ hns => .pure ?_
    rw [List.append_nil, List.nil_append]
    exact .cons ho hns

lemma partBlock_meets_succ (hn : 4 * p.rest.length ≤ n + 1)
    (hd : Directive "SECTION" p.current) :
    (partBlock (n + 1) open_).Meets p (IsItem p.current) := by
  have hne : p.current.kind ≠ .endOfInput := by simp [hd.1]
  have ho : p.current.opens .part = true := opens_of_directive (b := .part) hd
  have ha := Passes.advance hp hne
  have hlength := ha.length
  rw [List.length_singleton] at hlength
  unfold partBlock
  refine .advance_bind hp hne ?_
  have hclose : isPlain .directiveClose = true := rfl
  have hname := Reading.Meets.of_accounts
    (.orSkipTo hclose (directiveArgument_accounts (ha.live hp) p.current))
    (.orSkipTo (by decide) (directiveArgument_yields (ha.live hp) p.current))
  refine hname.bind fun name ts ds q hq h => ?_
  obtain ⟨haccount, -, hplaced⟩ := h
  have hlength' := hq.length
  refine (ih.nodes (.part :: open_) (hq.live (ha.live hp)) (by omega)).bind
    fun ns us es r hr hns => ?_
  have hboth : Account (ts ++ us) (es ++ ds) := haccount.append hns.account
  refine .look (on_isAtDirective _ _) ?_
  split
  · rename_i h
    obtain ⟨hk, hc⟩ := directive_of_isAtDirective h
    have hend : Directive "END_SECTION" r.current := ⟨hk, by simpa using hc⟩
    have hcl : r.current.closes .part = true := closes_of_directive (b := .part) hend
    refine .advance_bind (hr.live (hq.live (ha.live hp))) (by simp [hk]) (.pure ?_)
    refine ⟨⟨_, rfl⟩, ?_, fun hw => ?_, fun hds => ?_⟩
    · simpa using Account.closed ho hboth hcl
    · have hworded : ∀ t ∈ us, t.Worded := fun t ht => hw t (by simp [ht])
      cases name with
      | none => exact Node.allProper_nil
      | some a => exact Node.allProper_singleton trivial (hns.proper hworded)
    · obtain ⟨hes, hds⟩ : es = [] ∧ ds = [] := by simpa using hds
      obtain ⟨a, rfl, hnamed, hs, rfl⟩ := hplaced hds
      refine ⟨_, rfl, ?_⟩
      simpa using Placed.OneNode.part (hnamed.partHead hd) (hns.placed hes _ _) hend
  · refine .recorded (.pure ⟨⟨_, rfl⟩, ?_, fun _ => Node.allProper_nil, fun hds => by simp at hds⟩)
    simpa using Account.unclosed ho hboth

lemma otherwise_meets_succ (hn : 4 * p.rest.length ≤ n + 1) :
    (otherwise (n + 1) open_).Meets p IsElse := by
  unfold otherwise
  refine .look (on_isAtDirective _ _) ?_
  split
  · rename_i h
    obtain ⟨hk, hc⟩ := directive_of_isAtDirective h
    have hd : Directive "ELSE_IF" p.current := ⟨hk, by simpa using hc⟩
    refine (ih.branch open_ hp hn hd).bind fun o ts ds q _ ho => ?_
    obtain ⟨us, rfl, ho⟩ := ho
    refine .pure ⟨?_, fun hw es hes => ?_, fun hds => ?_⟩
    · have hneutral : p.current.Neutral := neutral_of_directive hd (by simp)
      simpa using Account.append (.token hneutral) ho.account
    · have hworded : ∀ t ∈ us, t.Worded := fun t ht => hw t (by simp [ht])
      obtain ⟨m, rfl, rfl⟩ := Option.map_eq_some_iff.mp hes
      exact ho.proper hworded
    · obtain ⟨m, rfl, hbranch⟩ := ho.placed hds
      refine ⟨[m], rfl, fun a b => ?_⟩
      rw [List.append_nil]
      cases hbranch with
      | mk hh hbody helse =>
        exact .elseIf trivial hh (hbody _ p.current.stop) (helse _ _) rfl trivial
  refine .look (on_isAtDirective _ _) ?_
  split
  · rename_i h
    obtain ⟨hk, hc⟩ := directive_of_isAtDirective h
    have hd : Directive "ELSE" p.current := ⟨hk, by simpa using hc⟩
    have ha := Passes.advance hp (by simp [hk])
    have hlength := ha.length
    rw [List.length_singleton] at hlength
    refine .advance_bind hp (by simp [hk]) ?_
    refine (ih.nodes (.conditional :: open_) (ha.live hp) (by omega)).bind
      fun ns us es r _ hns => ?_
    refine .pure ⟨?_, fun hw es hes => ?_, fun hds => ?_⟩
    · have hneutral : p.current.Neutral := neutral_of_directive hd (by simp)
      simpa using Account.append (.token hneutral) hns.account
    · obtain rfl := Option.some.inj hes
      exact hns.proper fun t ht => hw t (by simp [ht])
    · refine ⟨ns, rfl, fun a b => ?_⟩
      rw [List.append_nil]
      exact .otherwise trivial hd (hns.placed hds _ _)
  · refine .pure ⟨.nil, fun _ es hes => ?_, fun _ => ⟨[], rfl, fun _ _ => .absent trivial⟩⟩
    obtain rfl := Option.some.inj hes
    exact Node.allProper_nil

/-- The branches behind a body, which close off the tokens `ts` of the branch before them. -/
lemma elseOf_meets (name : String) {d : Token} {condition : Option Condition} {hs : List Token}
    {ns : List Node} {fs : List Diagnostic} (hn : 4 * p.rest.length ≤ n)
    (hlast : p.previous = (hs ++ ts).getLastD d) (haccount : Account (hs ++ ts) fs)
    (hc : (∀ t ∈ hs, t.Worded) → ∀ c ∈ condition, c.AllProper)
    (hns : (∀ t ∈ ts, t.Worded) → Node.AllProper ns)
    (hclean : fs = [] → ∃ c bracket us, condition = some c ∧ hs = us ++ [bracket] ∧
      Head name (d :: (us ++ [bracket])) c.unplaced ∧ ns ≠ [] ∧
      ∀ a b, Placed.Nodes Placed.Anywhere a ts ns b) :
    Reading.Meets (do
      let elseBranch ← otherwise n open_
      return conditional? condition ns elseBranch ⟨d.start, (← previous).stop⟩) p
      fun us es o => IsBranch name d (hs ++ (ts ++ us)) (es ++ fs) o := by
  refine (ih.otherwise open_ hp hn).bind fun e us es q hq he => .look (on_previous _) (.pure ?_)
  refine ⟨?_, fun hw => ?_, fun hds => ?_⟩
  · simpa using haccount.append he.account
  · refine allProper_conditional? (hc fun t ht => ?_) (hns fun t ht => ?_)
      (he.proper fun t ht => ?_) _
    all_goals exact hw t (by simp [ht])
  · obtain ⟨hes, hfs⟩ : es = [] ∧ fs = [] := by simpa using hds
    obtain ⟨c, bracket, vs, rfl, rfl, hhead, hne, hbody⟩ := hclean hfs
    obtain ⟨es', rfl, helse⟩ := he.placed hes
    obtain ⟨m, ms, rfl⟩ := List.exists_cons_of_ne_nil hne
    have hstop : q.previous = (vs ++ [bracket] ++ (ts ++ us)).getLastD d := by
      rw [hq.previous, hlast, ← List.append_assoc, getLastD_append _ us]
    refine ⟨_, rfl, ?_⟩
    rw [List.append_nil, hstop]
    exact .mk hhead hbody helse

lemma branch_meets_succ {name : String} (hn : 4 * p.rest.length ≤ n + 2)
    (hd : Directive name p.current) : (branch (n + 1) open_).Meets p fun ts ds o =>
      ∃ us, ts = p.current :: us ∧ IsBranch name p.current us ds o := by
  have hne : p.current.kind ≠ .endOfInput := by simp [hd.1]
  have ha := Passes.advance hp hne
  have hlength := ha.length
  rw [List.length_singleton] at hlength
  unfold branch
  refine .advance_bind hp hne ?_
  have hcondition := Reading.Meets.of_accounts (directiveCondition_accounts (ha.live hp) p.current)
    (directiveCondition_gives (ha.live hp) p.current)
  refine hcondition.bind fun condition hs ds q hq h => ?_
  obtain ⟨haccount, hproper, hclean⟩ := h
  have hlength' := hq.length
  refine (ih.nodes (.conditional :: open_) (hq.live (ha.live hp)) (by omega)).bind
    fun ns ts es r hr hns => ?_
  have hlength'' := hr.length
  have hpass := ha.trans (hq.trans hr)
  have hlast : r.previous = (hs ++ ts).getLastD p.current := by
    rw [hpass.previous, getLastD_append]
    rfl
  have hbound : 4 * r.rest.length ≤ n := by omega
  have hlive := hr.live (hq.live (ha.live hp))
  have hboth : Account (hs ++ ts) (es ++ ds) := haccount.append hns.account
  split
  · -- an empty body is one more fault
    have hempty : Account (hs ++ ts)
        (⟨.emptyBody (describe p.current), p.current.start⟩ :: (es ++ ds)) := by
      have hfault : Account [] [⟨.emptyBody (describe p.current), p.current.start⟩] := .fault rfl
      simpa using hboth.append hfault
    refine .recorded ((elseOf_meets (p := r.record _ _) ih hlive open_ name hbound hlast hempty
      hproper hns.proper fun hfs => by simp at hfs).mono fun us fs o h => ⟨_, rfl, ?_⟩)
    simpa using h
  · rename_i hbody
    refine (elseOf_meets ih hlive open_ name hbound hlast hboth hproper hns.proper
      fun hfs => ?_).mono fun us fs o h => ⟨_, rfl, ?_⟩
    · obtain ⟨hes, hds⟩ : es = [] ∧ ds = [] := by simpa using hfs
      obtain ⟨c, us, bracket, rfl, rfl, hor, hbracket⟩ := hclean hds
      exact ⟨c, bracket, us, rfl, rfl, .mk hd hor hbracket, by simpa using hbody, hns.placed hes⟩
    · simpa using h

lemma strayBranches_meets_succ (hn : 4 * p.rest.length + 1 ≤ n + 1) :
    (strayBranches (n + 1) open_).Meets p IsStray := by
  unfold strayBranches
  refine .look (on_isAtDirective _ _) ?_
  split
  · rename_i h
    obtain ⟨hk, ht⟩ := directive_of_isAtDirective h
    have hne : p.current.kind ≠ .endOfInput := by simp [hk]
    have hcloser : isCloser p.current.text = true := by
      simp only [List.mem_cons, List.not_mem_nil, or_false] at ht
      rcases ht with ht | ht <;> rw [ht] <;> rfl
    have hstray : Account [p.current] [⟨.afterElse (describe p.current), p.current.start⟩] :=
      .stray hk (not_opens_of_isCloser hcloser) rfl
    refine .look (on_current _) (.recorded ?_)
    refine (skipDirective_meets (p := p.record _ _) hp hne).bind fun _ ts ds q hq hs => ?_
    obtain ⟨ts, rfl, haccount⟩ := hs
    have hlength := hq.length
    rw [Progress.rest_record, List.length_cons] at hlength
    have hlive := hq.live (p := p.record _ _) hp
    refine (ih.nodes (.conditional :: open_) hlive (by omega)).bind fun _ us es r hr hns => ?_
    have hlength' := hr.length
    refine (ih.strayBranches open_ (hr.live hlive) (by omega)).bind fun _ vs fs s _ hmore => ?_
    refine .pure ⟨?_, fun hds => by simp at hds⟩
    simpa using hstray.append (haccount.append (hns.account.append hmore.account))
  · exact .pure ⟨.nil, fun _ => ⟨rfl, rfl⟩⟩

lemma ifBlock_meets_succ (hn : 4 * p.rest.length ≤ n + 1) (hd : Directive "IF" p.current) :
    (ifBlock (n + 1) open_).Meets p (IsItem p.current) := by
  have ho : p.current.opens .conditional = true := opens_of_directive (b := .conditional) hd
  unfold ifBlock
  refine .look (on_current _) ?_
  refine (ih.branch open_ hp hn hd).bind fun o ts ds q hq h => ?_
  obtain ⟨ts, rfl, hbranch⟩ := h
  have hlength := hq.length
  rw [List.length_cons] at hlength
  refine (ih.strayBranches open_ (hq.live hp) (by omega)).bind fun stray us es r hr hstray => ?_
  have hboth : Account (ts ++ us) (es ++ ds) := hbranch.account.append hstray.account
  refine .look (on_isAtDirective _ _) ?_
  split
  · rename_i h
    obtain ⟨hk, hc⟩ := directive_of_isAtDirective h
    have hend : Directive "END_IF" r.current := ⟨hk, by simpa using hc⟩
    have hcl : r.current.closes .conditional = true := closes_of_directive (b := .conditional) hend
    refine .advance_bind (hr.live (hq.live hp)) (by simp [hk]) (.pure ?_)
    refine ⟨⟨_, rfl⟩, ?_, fun hw => ?_, fun hds => ?_⟩
    · simpa using Account.closed ho hboth hcl
    · have hworded : ∀ t ∈ ts, t.Worded := fun t ht => hw t (by simp [ht])
      split
      · exact Node.allProper_nil
      · cases o with
        | none => exact Node.allProper_nil
        | some m => exact Node.allProper_withSpan (hbranch.proper hworded)
    · obtain ⟨hes, hds⟩ : es = [] ∧ ds = [] := by simpa using hds
      obtain ⟨rfl, rfl⟩ := hstray.placed hes
      obtain ⟨m, rfl, hplaced⟩ := hbranch.placed hds
      refine ⟨_, rfl, ?_⟩
      cases hplaced with
      | mk hh hbody helse =>
        simpa [Node.withSpan] using
          Placed.OneNode.conditional hh (hbody _ p.current.stop) (helse _ _) hend
  · refine .recorded (.pure ⟨⟨_, rfl⟩, ?_, fun _ => Node.allProper_nil, fun hds => by simp at hds⟩)
    simpa using Account.unclosed ho hboth

end

/-- **Bodies and blocks**: with fuel for the tokens ahead, everything is accounted for. -/
lemma bodiesMeet (n : Nat) : BodiesMeet n := by
  induction n with
  | zero =>
    have hpos {p : Progress} (hp : p.Live) : 0 < p.rest.length := by rw [hp.rest_eq]; simp
    constructor
    all_goals
      intros
      rename Progress.Live _ => hp
      have := hpos hp
      omega
  | succ n ih =>
    exact {
      nodes := fun open_ hp => nodes_meets_succ ih hp open_
      partBlock := fun open_ hp => partBlock_meets_succ ih hp open_
      ifBlock := fun open_ hp => ifBlock_meets_succ ih hp open_
      branch := fun open_ hp => branch_meets_succ ih hp open_
      otherwise := fun open_ hp => otherwise_meets_succ ih hp open_
      strayBranches := fun open_ hp => strayBranches_meets_succ ih hp open_ }

lemma item_takesPlaced (n : Nat) (hp : p.Live) (open_ : List Block) (hn : 4 * p.rest.length ≤ n)
    (hne : p.current.kind ≠ .endOfInput) : (item n open_ p.current).TakesPlaced p := by
  refine (item_meets (bodiesMeet n) hp open_ hn hne).takes (fun ts ds o h => ?_)
    fun ts o h => h.placed rfl
  obtain ⟨us, rfl⟩ := h.first
  exact List.cons_ne_nil _ _

lemma nodes_gives (n : Nat) (hp : p.Live) (open_ : List Block)
    (hn : 4 * p.rest.length + 1 ≤ n) :
    (nodes n open_).Gives p fun ts ns => ∀ a b, Placed.Nodes Placed.Anywhere a ts ns b :=
  ((bodiesMeet n).nodes open_ hp hn).gives fun _ _ h => h.placed rfl

lemma branch_takes (n : Nat) {name : String} (hp : p.Live) (open_ : List Block)
    (hn : 4 * p.rest.length ≤ n + 1) (hd : Directive name p.current) :
    (branch n open_).Takes p fun _ _ => True := by
  refine ((bodiesMeet n).branch open_ hp hn hd).takes (fun ts ds o h => ?_) fun _ _ _ => trivial
  obtain ⟨us, rfl, -⟩ := h
  exact List.cons_ne_nil _ _

end Stencil.Template
