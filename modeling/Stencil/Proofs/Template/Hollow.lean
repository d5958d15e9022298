import Stencil.Proofs.Template.Located
import Stencil.Proofs.Template.Reports

/-!
Bodies from which nothing is kept.

A body is told to be empty when no node of it is kept, and this is not the same as an empty body: a
construct with a fault of its own is read to no node. So a fault about an empty body says that
everything between the brackets of its directive and what ends the body is lost, one construct
after the other, and each of them has told a fault of its own, where one of its tokens starts.
-/

namespace Stencil

namespace Template

open Source Grammar

variable {α β : Type} {p q : Progress} {ts us rest : List Token} {ds es : List Diagnostic}
  {d : Diagnostic} {open_ : List Block}

/-- The tokens `ts`, with `rest` behind them, are one item of a body that is read to no node, and
its faults are `ds`. -/
structure Lost (open_ : List Block) (ts rest : List Token) (ds : List Diagnostic) : Prop where
  read : ∃ n p q, p.rest = ts ++ rest ∧ 4 * p.rest.length ≤ n ∧ endsBody open_ p.current = false ∧
    (item n open_ p.current).on p = (none, q) ∧ Passes p ts ds q
  told : ds ≠ []
  stands : ∀ d ∈ ds, d.StandsAmong ts

/-- The tokens are a body up to what ends it, and nothing of it is kept. -/
inductive Dropped (open_ : List Block) : List Token → List Token → List Diagnostic → Prop
  | nil {rest : List Token} (hends : ∃ t ∈ rest.head?, endsBody open_ t = true) :
      Dropped open_ [] rest []
  | cons {ts us rest : List Token} {ds es : List Diagnostic}
      (h : Lost open_ ts (us ++ rest) ds) (hs : Dropped open_ us rest es) :
      Dropped open_ (ts ++ us) rest (es ++ ds)

/-- The fault says that the body of a branch is empty, and nothing of this body is kept: its faults
are among those given. -/
def Hollow (ts : List Token) (ds : List Diagnostic) (d : Diagnostic) : Prop :=
  ∃ before t head body behind open_ es, ts = before ++ t :: (head ++ (body ++ behind)) ∧
    (Directive "IF" t ∨ Directive "ELSE_IF" t) ∧
    d = ⟨.emptyBody (describe t), t.start⟩ ∧ Extent .directiveClose head ∧
    Dropped (.conditional :: open_) body behind es ∧ ∀ e ∈ es, e ∈ ds

/-- The faults stand among the tokens passed over, and what they tell of empty bodies is told of
bodies from which nothing is kept. -/
structure Tells (rest ts : List Token) (ds : List Diagnostic) : Prop where
  stands : ∀ d ∈ ds, d.StandsAmong ts
  hollow : ∀ d ∈ ds, d.problem.code = .emptyBody → Hollow rest ds d

lemma Hollow.mono (h : Hollow us es d) (hts : ∃ vs, ts = vs ++ us) (hds : ∀ e ∈ es, e ∈ ds) :
    Hollow ts ds d := by
  obtain ⟨before, t, head, body, behind, open_, fs, rfl, h⟩ := h
  obtain ⟨vs, rfl⟩ := hts
  obtain ⟨ht, hd, hhead, hbody, hfs⟩ := h
  exact ⟨vs ++ before, t, head, body, behind, open_, fs, by rw [List.append_assoc], ht, hd, hhead,
    hbody, fun e he => hds e (hfs e he)⟩

namespace Tells

lemma nil : Tells rest ts [] where
  stands := List.forall_mem_nil _
  hollow := List.forall_mem_nil _

lemma of_told (h : Told ts ds) : Tells rest ts ds :=
  ⟨fun d hd => (h d hd).2, fun d hd hc => absurd hc (h d hd).1⟩

lemma append (hpass : Passes p ts ds q) (h : Tells p.rest ts ds) (k : Tells q.rest us es) :
    Tells p.rest (ts ++ us) (es ++ ds) where
  stands := List.forall_mem_append.mpr
    ⟨fun d hd => standsAmong_mono (k.stands d hd) fun _ => List.mem_append_right _,
      fun d hd => standsAmong_mono (h.stands d hd) fun _ => List.mem_append_left _⟩
  hollow := List.forall_mem_append.mpr
    ⟨fun d hd hc => (k.hollow d hd hc).mono ⟨ts, hpass.rest⟩ fun _ => List.mem_append_left _,
      fun d hd hc => (h.hollow d hd hc).mono ⟨[], rfl⟩ fun _ => List.mem_append_right _⟩

/-- The same with more tokens passed over. -/
lemma more (h : Tells rest ts ds) (hts : ∀ t ∈ ts, t ∈ us) : Tells rest us ds :=
  ⟨fun d hd => standsAmong_mono (h.stands d hd) hts, h.hollow⟩

/-- One more fault. -/
lemma cons (h : Tells rest ts ds) (hstands : d.StandsAmong ts)
    (hhollow : d.problem.code = .emptyBody → Hollow rest ds d) : Tells rest ts (d :: ds) where
  stands := List.forall_mem_cons.mpr ⟨hstands, h.stands⟩
  hollow := by
    have hmono {e : Diagnostic} (he : Hollow rest ds e) : Hollow rest (d :: ds) e :=
      he.mono ⟨[], rfl⟩ fun _ => List.mem_cons_of_mem _
    exact List.forall_mem_cons.mpr
      ⟨fun hc => hmono (hhollow hc), fun e he hc => hmono (h.hollow e he hc)⟩

/-- One more fault, which is not about an empty body. -/
lemma fault (h : Tells rest ts ds) (hd : d.TellsOf ts) : Tells rest ts (d :: ds) :=
  h.cons hd.2 fun hc => absurd hc hd.1

end Tells

/-- Two things said of the same reading. -/
lemma Reading.Meets.and {x : Reading α} {D E : List Token → List Diagnostic → α → Prop}
    (h : x.Meets p D) (k : x.Meets p E) : x.Meets p fun ts ds a => D ts ds a ∧ E ts ds a := by
  obtain ⟨ts, ds, hpass, hd⟩ := h
  obtain ⟨us, es, hpass', he⟩ := k
  obtain ⟨rfl, rfl⟩ := Passes.unique hpass.toMoves hpass'.toMoves
  exact ⟨ts, ds, hpass, hd, he⟩

/-- What bodies and blocks tell when the fuel suffices for the tokens ahead. -/
structure BodiesTell (n : Nat) : Prop where
  nodes {p : Progress} (open_ : List Block) (hp : p.Live) (hg : Guarded p.rest)
    (hn : 4 * p.rest.length + 1 ≤ n) : (nodes n open_).Meets p fun ts ds ns =>
      Tells p.rest ts ds ∧ (ns = [] → ∃ rest, p.rest = ts ++ rest ∧ Dropped open_ ts rest ds)
  partBlock {p : Progress} (open_ : List Block) (hp : p.Live) (hg : Guarded p.rest)
    (hn : 4 * p.rest.length ≤ n) (hd : Directive "SECTION" p.current) :
    (partBlock n open_).Meets p fun ts ds _ => Tells p.rest ts ds
  ifBlock {p : Progress} (open_ : List Block) (hp : p.Live) (hg : Guarded p.rest)
    (hn : 4 * p.rest.length ≤ n) (hd : Directive "IF" p.current) :
    (ifBlock n open_).Meets p fun ts ds _ => Tells p.rest ts ds
  branch {p : Progress} (open_ : List Block) (hp : p.Live) (hg : Guarded p.rest)
    (hn : 4 * p.rest.length ≤ n + 1)
    (hd : Directive "IF" p.current ∨ Directive "ELSE_IF" p.current) :
    (branch n open_).Meets p fun ts ds _ => p.current ∈ ts ∧ Tells p.rest ts ds
  otherwise {p : Progress} (open_ : List Block) (hp : p.Live) (hg : Guarded p.rest)
    (hn : 4 * p.rest.length ≤ n) : (otherwise n open_).Meets p fun ts ds _ => Tells p.rest ts ds
  strayBranches {p : Progress} (open_ : List Block) (hp : p.Live) (hg : Guarded p.rest)
    (hn : 4 * p.rest.length + 1 ≤ n) :
    (strayBranches n open_).Meets p fun ts ds _ => Tells p.rest ts ds

lemma Passes.guarded (h : Passes p ts ds q) (hg : Guarded p.rest) : Guarded q.rest := by
  rw [h.rest] at hg
  exact hg.of_append

/-- A directive that is not read. -/
lemma skipped_told {problem : Problem} (hp : p.Live) (hcode : problem.code ≠ .emptyBody)
    (hk : p.current.kind = .directive) :
    Reading.Meets (do record problem p.current.start; skipDirective; return none) p
      fun ts ds (_ : Option Node) => Told ts ds := by
  refine .recorded ((skipDirective_told (p := p.record _ _) hp hk).bind fun _ ts ds q _ h => ?_)
  obtain ⟨⟨us, rfl⟩, htold⟩ := h
  refine .pure (List.forall_mem_append.mpr ⟨by simpa [Told] using htold, ?_⟩)
  exact List.forall_mem_singleton.mpr
    (tellsOf_of_mem hcode List.mem_cons_self (by simp [hk]) (by simp [hk]))

section

variable {n : Nat} (ih : BodiesTell n) (hp : p.Live) (hg : Guarded p.rest) (open_ : List Block)

include ih hp hg

lemma item_tells (hn : 4 * p.rest.length ≤ n) (hne : p.current.kind ≠ .endOfInput) :
    (item n open_ p.current).Meets p fun ts ds _ => Tells p.rest ts ds := by
  have leaf {x : Reading (Option Node)} (h : x.Meets p fun ts ds _ => Told ts ds) :
      x.Meets p fun ts ds _ => Tells p.rest ts ds := h.mono fun _ _ _ => .of_told
  have plain (h : p.current.kind.isInner = true) (problem : Problem)
      (hcode : problem.code ≠ .emptyBody) :
      Reading.Meets (do record problem p.current.start; let _ ← advance; return none) p
        fun ts ds (_ : Option Node) => Told ts ds := by
    refine .recorded (.advance_bind (p := p.record _ _) hp hne (.pure ?_))
    exact List.forall_mem_singleton.mpr
      (tellsOf_of_mem hcode List.mem_cons_self (ne_of_isInner h).1 hne)
  unfold item
  cases hk : p.current.kind
  case text => exact .advance_bind hp hne (.pure .nil)
  case slotOpen => exact leaf (slot_told hp hg hk)
  case operator => exact leaf (contextNode_told hp hg hk)
  case error =>
    refine leaf (.advance_bind hp hne (.recorded (p := p.advance) (.pure ?_)))
    exact List.forall_mem_singleton.mpr
      (tellsOf_of_mem (code_lexical_ne _) List.mem_cons_self (by simp [hk]) hne)
  case directive =>
    dsimp only
    split
    · exact leaf (skipped_told hp nofun hk)
    split
    · rename_i hif
      exact ih.ifBlock open_ hp hg hn ⟨hk, by simpa using hif⟩
    split
    · rename_i hpart
      exact ih.partBlock open_ hp hg hn ⟨hk, by simpa using hpart⟩
    split
    · rename_i href
      exact leaf (reference_told hp hg hk (by simpa using href))
    · exact leaf (skipped_told hp nofun hk)
  case endOfInput => exact absurd hk hne
  all_goals exact leaf (plain (by rw [hk]; rfl) _ nofun)

/-- An item that is read to no node is lost: its faults are its own. -/
lemma item_lost (hn : 4 * p.rest.length ≤ n) (hends : endsBody open_ p.current ≠ true) :
    (item n open_ p.current).Meets p fun ts ds o => ts ≠ [] ∧ Tells p.rest ts ds ∧
      (o = none → ∀ rest, p.rest = ts ++ rest → Lost open_ ts rest ds) := by
  have hne := kind_of_endsBody_ne hends
  obtain ⟨ts, ds, hpass, htells, hitem⟩ := (item_tells ih hp hg open_ hn hne).and
    (item_meets (bodiesMeet n) hp open_ hn hne)
  obtain ⟨us, hus⟩ := hitem.first
  refine ⟨ts, ds, hpass, hus ▸ List.cons_ne_nil _ _, htells, fun hnone rest hrest => ?_⟩
  refine ⟨⟨n, p, _, hrest, hn, by simpa using hends, ?_, hpass⟩, fun hds => ?_, htells.stands⟩
  · rw [← hnone]
  · obtain ⟨m, hm, -⟩ := hitem.placed hds
    rw [hnone] at hm
    cases hm

lemma nodes_tells_succ (hn : 4 * p.rest.length + 1 ≤ n + 1) :
    (nodes (n + 1) open_).Meets p fun ts ds ns => Tells p.rest ts ds ∧
      (ns = [] → ∃ rest, p.rest = ts ++ rest ∧ Dropped open_ ts rest ds) := by
  rw [nodes_succ]
  refine .look (on_current _) ?_
  split
  · rename_i hends
    refine .pure ⟨.of_told nofun, fun _ => ⟨p.rest, rfl, .nil ⟨p.current, ?_, hends⟩⟩⟩
    rw [hp.rest_eq]
    exact rfl
  · rename_i hends
    refine (item_lost ih hp hg open_ (by omega) hends).bind fun o ts ds q hpass ho => ?_
    obtain ⟨hne, htells, hlost⟩ := ho
    have hlength := hpass.length
    have hpos := List.length_pos_iff.mpr hne
    refine (ih.nodes open_ (hpass.live hp) (hpass.guarded hg) (by omega)).bind
      fun ns us es r _ hns => .pure ?_
    rw [List.append_nil, List.nil_append]
    refine ⟨htells.append hpass hns.1, fun hnil => ?_⟩
    -- nothing is kept only if the item is lost and nothing is kept behind it
    obtain ⟨ho, hns'⟩ := List.append_eq_nil_iff.mp hnil
    obtain ⟨rest, hrest, hdropped⟩ := hns.2 hns'
    have hall : p.rest = ts ++ (us ++ rest) := by rw [hpass.rest, hrest]
    refine ⟨rest, by rw [hall, List.append_assoc], .cons (hlost ?_ _ hall) hdropped⟩
    simpa using ho

lemma partBlock_tells_succ (hn : 4 * p.rest.length ≤ n + 1)
    (hd : Directive "SECTION" p.current) :
    (partBlock (n + 1) open_).Meets p fun ts ds _ => Tells p.rest ts ds := by
  have hne : p.current.kind ≠ .endOfInput := by simp [hd.1]
  have hopen : (p.current.lexeme, p.current.text) ∉ closerNames := by simp [closerNames, hd.2]
  have ha := Passes.advance hp hne
  have hlength := ha.length
  rw [List.length_singleton] at hlength
  unfold partBlock
  refine .advance_bind hp hne ?_
  refine (directiveArgument_told hp hg hd.1 hopen _).bind fun name ts ds q hq h => ?_
  have hhead := ha.trans hq
  have hlength' := hq.length
  refine (ih.nodes (.part :: open_) (hhead.live hp) (hhead.guarded hg) (by omega)).bind
    fun ns us es r hr hns => ?_
  have hboth : Tells p.rest (p.current :: (ts ++ us)) (es ++ ds) := by
    simpa using Tells.append hhead (.of_told (by simpa using h)) hns.1
  refine .look (on_isAtDirective _ _) ?_
  split
  · rename_i hend
    obtain ⟨hk, -⟩ := directive_of_isAtDirective hend
    refine .advance_bind (hr.live (hhead.live hp)) (by simp [hk]) (.pure ?_)
    simpa using hboth.more fun t ht => List.mem_append_left [r.current] ht
  · have hfault : Diagnostic.TellsOf (p.current :: (ts ++ us))
        ⟨.unclosed .part, p.current.start⟩ :=
      tellsOf_of_mem (by decide) List.mem_cons_self (by simp [hd.1]) hne
    refine .recorded (.pure ?_)
    simpa using hboth.fault hfault

lemma otherwise_tells_succ (hn : 4 * p.rest.length ≤ n + 1) :
    (otherwise (n + 1) open_).Meets p fun ts ds _ => Tells p.rest ts ds := by
  unfold otherwise
  refine .look (on_isAtDirective _ _) ?_
  split
  · rename_i h
    obtain ⟨hk, hc⟩ := directive_of_isAtDirective h
    refine (ih.branch open_ hp hg hn (.inr ⟨hk, by simpa using hc⟩)).bind fun o ts ds q _ ho => ?_
    exact .pure (by simpa using ho.2)
  refine .look (on_isAtDirective _ _) ?_
  split
  · rename_i h
    obtain ⟨hk, -⟩ := directive_of_isAtDirective h
    have ha := Passes.advance hp (by simp [hk])
    have hlength := ha.length
    rw [List.length_singleton] at hlength
    refine .advance_bind hp (by simp [hk]) ?_
    refine (ih.nodes (.conditional :: open_) (ha.live hp) (ha.guarded hg) (by omega)).bind
      fun ns us es r _ hns => .pure ?_
    simpa using Tells.append ha .nil hns.1
  · exact .pure .nil

/-- The branches behind a body, of which the tokens `ts` are passed over already. -/
lemma elseOf_tells {condition : Option Condition} {ns : List Node} {start : Position}
    (hpass : Passes q ts ds p) (htells : Tells q.rest ts ds) (hn : 4 * p.rest.length ≤ n) :
    Reading.Meets (do
      let elseBranch ← otherwise n open_
      return conditional? condition ns elseBranch ⟨start, (← previous).stop⟩) p
      fun us es _ => Tells q.rest (ts ++ us) (es ++ ds) := by
  refine (ih.otherwise open_ hp hg hn).bind fun e us es r _ he => .look (on_previous _) (.pure ?_)
  simpa using htells.append hpass he

lemma branch_tells_succ (hn : 4 * p.rest.length ≤ n + 2)
    (hd : Directive "IF" p.current ∨ Directive "ELSE_IF" p.current) :
    (branch (n + 1) open_).Meets p fun ts ds _ => p.current ∈ ts ∧ Tells p.rest ts ds := by
  have hk : p.current.kind = .directive := by rcases hd with hd | hd <;> exact hd.1
  have hne : p.current.kind ≠ .endOfInput := by simp [hk]
  have hopen : (p.current.lexeme, p.current.text) ∉ closerNames := by
    rcases hd with hd | hd <;> simp [closerNames, hd.2]
  have ha := Passes.advance hp hne
  have hlength := ha.length
  rw [List.length_singleton] at hlength
  unfold branch
  refine .advance_bind hp hne ?_
  refine (directiveCondition_told hp hg hk hopen).bind fun condition hs ds q hq h => ?_
  obtain ⟨htold, hextent⟩ := h
  have hhead := ha.trans hq
  have hlength' := hq.length
  refine (ih.nodes (.conditional :: open_) (hhead.live hp) (hhead.guarded hg) (by omega)).bind
    fun ns ts es r hr hns => ?_
  have hpass := hhead.trans hr
  have hlength'' := hr.length
  have hlive := hpass.live hp
  have hbound : 4 * r.rest.length ≤ n := by omega
  have htells : Tells p.rest ([p.current] ++ hs ++ ts) (es ++ (ds ++ [])) :=
    Tells.append hhead (.of_told (by simpa using htold)) hns.1
  split
  · -- an empty body is one more fault
    rename_i hempty
    obtain ⟨rest, hrest, hdropped⟩ := hns.2 (by simpa using hempty)
    have hall : p.rest = p.current :: (hs ++ (ts ++ rest)) := by
      rw [hhead.rest, hrest, List.singleton_append, List.cons_append]
    have hhollow : Hollow p.rest (es ++ (ds ++ []))
        ⟨.emptyBody (describe p.current), p.current.start⟩ :=
      ⟨[], p.current, hs, ts, rest, open_, es, hall, hd, rfl, hextent, hdropped,
        fun e he => List.mem_append_left _ he⟩
    have hstands : Diagnostic.StandsAmong ([p.current] ++ hs ++ ts)
        ⟨.emptyBody (describe p.current), p.current.start⟩ :=
      ⟨p.current, by simp, by simp [hk], hne, rfl⟩
    have hrecord := hpass.trans (Passes.record (.emptyBody (describe p.current)) p.current.start r)
    rw [List.append_nil] at hrecord
    refine .recorded ((elseOf_tells (p := r.record _ _) ih hlive (hpass.guarded hg) open_ hrecord
      (htells.cons hstands fun _ => hhollow) hbound).mono
      fun us fs _ h => ⟨by simp, by simpa using h⟩)
  · refine (elseOf_tells ih hlive (hpass.guarded hg) open_ hpass htells hbound).mono
      fun us fs _ h => ⟨by simp, by simpa using h⟩

lemma strayBranches_tells_succ (hn : 4 * p.rest.length + 1 ≤ n + 1) :
    (strayBranches (n + 1) open_).Meets p fun ts ds _ => Tells p.rest ts ds := by
  unfold strayBranches
  refine .look (on_isAtDirective _ _) ?_
  split
  · rename_i h
    obtain ⟨hk, -⟩ := directive_of_isAtDirective h
    have hne : p.current.kind ≠ .endOfInput := by simp [hk]
    have hrecord := Passes.record (.afterElse (describe p.current)) p.current.start p
    refine .look (on_current _) (.recorded ?_)
    refine (skipDirective_told (p := p.record _ _) hp hk).bind fun _ ts ds q hq h => ?_
    obtain ⟨⟨ts, rfl⟩, htold⟩ := h
    have hskip := hrecord.trans hq
    have hlength := hskip.length
    rw [List.nil_append, List.length_cons] at hlength
    have hfault : Diagnostic.TellsOf (p.current :: ts)
        ⟨.afterElse (describe p.current), p.current.start⟩ :=
      tellsOf_of_mem (by simp [Problem.code]) List.mem_cons_self (by simp [hk]) hne
    have hboth : Tells p.rest (p.current :: ts) (ds ++ [_]) :=
      .of_told (List.forall_mem_append.mpr ⟨htold, List.forall_mem_singleton.mpr hfault⟩)
    refine (ih.nodes (.conditional :: open_) (hskip.live hp) (hskip.guarded hg) (by omega)).bind
      fun _ us es r hr hns => ?_
    have hbody := hskip.trans hr
    have hlength' := hr.length
    have hthree := Tells.append hskip hboth hns.1
    refine (ih.strayBranches open_ (hbody.live hp) (hbody.guarded hg) (by omega)).bind
      fun _ vs fs s _ hmore => .pure ?_
    simpa using hthree.append hbody hmore
  · exact .pure .nil

lemma ifBlock_tells_succ (hn : 4 * p.rest.length ≤ n + 1) (hd : Directive "IF" p.current) :
    (ifBlock (n + 1) open_).Meets p fun ts ds _ => Tells p.rest ts ds := by
  unfold ifBlock
  refine .look (on_current _) ?_
  refine (ih.branch open_ hp hg hn (.inl hd)).bind fun o ts ds q hq h => ?_
  obtain ⟨hmem, htells⟩ := h
  have hlength := hq.length
  have hpos := List.length_pos_of_mem hmem
  refine (ih.strayBranches open_ (hq.live hp) (hq.guarded hg) (by omega)).bind
    fun stray us es r hr hstray => ?_
  have hboth : Tells p.rest (ts ++ us) (es ++ ds) := htells.append hq hstray
  refine .look (on_isAtDirective _ _) ?_
  split
  · rename_i h
    obtain ⟨hk, -⟩ := directive_of_isAtDirective h
    refine .advance_bind (hr.live (hq.live hp)) (by simp [hk]) (.pure ?_)
    simpa using hboth.more fun t ht => List.mem_append_left [r.current] ht
  · have hfault : Diagnostic.TellsOf (ts ++ us) ⟨.unclosed .conditional, p.current.start⟩ :=
      tellsOf_of_mem (by decide) (List.mem_append_left _ hmem) (by simp [hd.1]) (by simp [hd.1])
    refine .recorded (.pure ?_)
    simpa using hboth.fault hfault

end

/-- **What bodies tell**: with fuel for the tokens ahead, every fault stands among them, and one
about an empty body is about a body from which nothing is kept. -/
lemma bodiesTell (n : Nat) : BodiesTell n := by
  induction n with
  | zero =>
    have hpos {p : Progress} (hp : p.Live) : 0 < p.rest.length := by rw [hp.rest_eq]; simp
    constructor
    all_goals
      intros
      rename Progress.Live _ => hp
      have := hpos hp
      omega
  | succ n ih =>
    exact {
      nodes := fun open_ hp hg => nodes_tells_succ ih hp hg open_
      partBlock := fun open_ hp hg => partBlock_tells_succ ih hp hg open_
      ifBlock := fun open_ hp hg => ifBlock_tells_succ ih hp hg open_
      branch := fun open_ hp hg => branch_tells_succ ih hp hg open_
      otherwise := fun open_ hp hg => otherwise_tells_succ ih hp hg open_
      strayBranches := fun open_ hp hg => strayBranches_tells_succ ih hp hg open_ }

end Template

/-! ### Sources -/

open Source Template

/-- What is found in a source stands among its tokens, and what is told of empty bodies is told of
bodies from which nothing is kept. -/
lemma parse_tells (source : String) :
    Tells (tokenize source) (tokenize source) (parse source).errors := by
  obtain ⟨us, e, heq, he, -⟩ := tokenize_shape source
  have hp : (Progress.atStart (tokenize source)).Live := ⟨e, by simp [Progress.atStart, heq], he⟩
  have hn : 4 * (Progress.atStart (tokenize source)).rest.length + 1 ≤
      4 * (tokenize source).length + 4 := by
    simp [Progress.atStart]
  obtain ⟨ts, ds, hpass, htells, -⟩ := (bodiesTell _).nodes [] hp (tokenize_guarded source) hn
  change Passes _ ts ds (wholeOn (tokenize source)).2 at hpass
  have hfound : (wholeOn (tokenize source)).2.found = ds :=
    hpass.found.trans (List.append_nil ds)
  have hrest : tokenize source = ts ++ (wholeOn (tokenize source)).2.rest := hpass.rest
  have herrors : ∀ d, d ∈ (parse source).errors ↔ d ∈ ds := by
    intro d
    unfold parse
    rw [errors_parseTokens, hfound, List.mem_mergeSort, List.mem_reverse]
  have hmem : ∀ t ∈ ts, t ∈ tokenize source := by
    intro t ht
    rw [hrest]
    exact List.mem_append_left _ ht
  refine ⟨fun d hd => ?_, fun d hd hcode => ?_⟩
  · exact standsAmong_mono (htells.stands d ((herrors d).mp hd)) hmem
  · exact (htells.hollow d ((herrors d).mp hd) hcode).mono ⟨[], rfl⟩ fun e => (herrors e).mpr

/-- **Empty bodies**: a source is told that a body is empty only where nothing is kept between the
bracket behind the condition of an `IF` or an `ELSE IF` and what ends its body: there are no tokens,
or each construct that they make up is read to no node, and has told a fault of its own. -/
theorem parse_hollow (source : String) (d : Diagnostic) (hd : d ∈ (parse source).errors)
    (hcode : d.problem.code = .emptyBody) : Hollow (tokenize source) (parse source).errors d :=
  (parse_tells source).hollow d hd hcode

/-- A body that is told to be empty, of a slot that is told to lack its name. -/
theorem parse_hollow_slot :
    (parse "[#IF x]\x7b\x7b\x7d\x7d[END IF]").errors =
      [⟨.emptyBody "[#IF]", ⟨0, 1, 1⟩⟩,
        ⟨.expected "variable name after '\x7b\x7b'", ⟨9, 1, 10⟩⟩] ∧
      Hollow (tokenize "[#IF x]\x7b\x7b\x7d\x7d[END IF]")
        (parse "[#IF x]\x7b\x7b\x7d\x7d[END IF]").errors
        ⟨.emptyBody "[#IF]", ⟨0, 1, 1⟩⟩ := by
  have herrors : (parse "[#IF x]\x7b\x7b\x7d\x7d[END IF]").errors =
      [⟨.emptyBody "[#IF]", ⟨0, 1, 1⟩⟩,
        ⟨.expected "variable name after '\x7b\x7b'", ⟨9, 1, 10⟩⟩] := by
    have hfound : (wholeOn (tokenize "[#IF x]\x7b\x7b\x7d\x7d[END IF]")).2.found =
        [⟨.emptyBody "[#IF]", ⟨0, 1, 1⟩⟩,
          ⟨.expected "variable name after '\x7b\x7b'", ⟨9, 1, 10⟩⟩] := by
      with_unfolding_all rfl
    rw [parse, errors_parseTokens, hfound]
    simp [List.mergeSort, List.MergeSort.Internal.splitInTwo]
  refine ⟨herrors, parse_hollow _ _ ?_ rfl⟩
  rw [herrors]
  exact List.mem_cons_self

end Stencil
