import Stencil.Proofs.Source.Layout
import Stencil.Proofs.Source.Stages
import Stencil.Proofs.Template.Reports

/-!
The nodes of a source without faults lie side by side.

The tokens of such a source lead from stage to stage (`Source.Stage`), and in plain text the next
one starts where the last one ended. Along the derivation of a body the stages tell where each node
ends and what has to start there: the next node, or the directive that ends the body. A closing
directive may be written with a mark, such as `[#END_IF]`, and then it waits for a bracket; but no
bracket can follow, so there is none in such a source.
-/

namespace Stencil

open Source

namespace Span

/-- The stretch of a source that a span is about. -/
def slice (s : Span) (source : List Char) : List Char :=
  (source.drop s.start.offset).take (s.stop.offset - s.start.offset)

@[simp] lemma slice_self (a : Position) (source : List Char) : slice ⟨a, a⟩ source = [] := by
  simp [slice]

lemma slice_append {a b c : Position} (hab : a.offset ≤ b.offset) (hbc : b.offset ≤ c.offset)
    (source : List Char) :
    slice ⟨a, b⟩ source ++ slice ⟨b, c⟩ source = slice ⟨a, c⟩ source := by
  have hsplit : c.offset - a.offset = (b.offset - a.offset) + (c.offset - b.offset) := by omega
  have hdrop : source.drop b.offset = (source.drop a.offset).drop (b.offset - a.offset) := by
    rw [List.drop_drop]
    congr 1
    omega
  simp only [slice]
  rw [hsplit, List.take_add, hdrop]

end Span

lemma Token.Marks.slice {source : List Char} {t : Token} (h : t.Marks source) :
    t.lexeme.toList = t.span.slice source := by
  have hstop : t.stop.offset = t.start.offset + t.lexeme.toList.length :=
    Position.advance_offset _ _
  have hlength : t.stop.offset - t.start.offset = t.lexeme.length := by
    rw [hstop, Nat.add_sub_cancel_left, String.length_toList]
  rw [h.lexeme, Span.slice, span, hlength]

namespace Template

open Grammar Stage

variable {ts us : List Token} {s s' : Stage} {a b : Position}

/-! ### Inside constructs -/

lemma Grammar.HintPart.staysInside {h : Option Hint} (hh : HintPart ts h) :
    ∀ t ∈ ts, Stage.staysInside t.kind = true := by
  cases hh with
  | absent => simp
  | given hc hw => simp [hc, hw, Stage.staysInside]

lemma Grammar.DefaultPart.staysInside {d : Option String} (hd : DefaultPart ts d) :
    ∀ t ∈ ts, Stage.staysInside t.kind = true := by
  cases hd with
  | absent => simp
  | given hm hv => rcases hv with hv | hv | hv <;> simp [hm, hv, Stage.staysInside]

lemma Grammar.Literals.staysInside {ss : List String} (h : Literals ts ss) :
    ∀ t ∈ ts, Stage.staysInside t.kind = true := by
  induction h with
  | nil => simp
  | cons hc hs _ ih =>
    refine List.forall_mem_cons.mpr ⟨by rw [hc]; rfl, List.forall_mem_cons.mpr ⟨?_, ih⟩⟩
    rw [hs]
    rfl

lemma Grammar.Enclosed.staysInside {arg : Argument} (h : Enclosed ts arg) :
    ∀ t ∈ ts, Stage.staysInside t.kind = true := by
  cases h with
  | nothing => simp
  | raw hk => simp [hk, Stage.staysInside]
  | literal hk => simp [hk, Stage.staysInside]
  | literals hk h =>
    refine List.forall_mem_cons.mpr ⟨?_, h.staysInside⟩
    rw [hk]
    rfl

/-- A construct in plain text: what opens it, what keeps it open, and what closes it. -/
inductive Construct : List Token → Prop
  | mk {o c : Token} {ts : List Token} (ho : o.kind = .slotOpen ∨ o.kind = .operator)
      (h : ∀ t ∈ ts, staysInside t.kind = true)
      (hc : c.kind = .slotClose ∨ c.kind = .rightParen) : Construct (o :: (ts ++ [c]))

lemma Construct.ne_directiveClose (h : Construct ts) : ∀ t ∈ ts, t.kind ≠ .directiveClose := by
  obtain ⟨ho, h, hc⟩ := h
  refine List.forall_mem_cons.mpr ⟨?_, List.forall_mem_append.mpr ⟨fun t ht hk => ?_, ?_⟩⟩
  · rcases ho with ho | ho <;> simp [ho]
  · have hstays := h t ht
    rw [hk] at hstays
    cases hstays
  · exact List.forall_mem_singleton.mpr (by rcases hc with hc | hc <;> simp [hc])

lemma Grammar.Reference.construct {path : String} (h : Reference ts path) : Construct ts := by
  obtain ⟨hk, -, @⟨paren, _, _, _, hl, _, h, hr⟩, -⟩ := h
  have hfirst : Stage.staysInside paren.kind = true := by rw [hl]; rfl
  exact .mk (.inr hk) (List.forall_mem_cons.mpr ⟨hfirst, h.staysInside⟩) (.inr hr)

/-- How a node without bodies is written: as a text, a construct, or a directive. -/
lemma leaf_cases {n : Node} (h : OneNode ts n.unplaced) (hn : Placed.IsLeaf n) :
    (∃ t, ts = [t] ∧ t.kind = .text) ∨ Construct ts ∨
      ∃ d bracket hs, ts = d :: (hs ++ [bracket]) ∧ d.kind = .directive ∧
        bracket.kind = .directiveClose := by
  cases n with
  | text content s =>
    rw [Node.unplaced] at h
    cases h with
    | text hk => exact .inl ⟨_, rfl, hk⟩
  | slot name hint d s =>
    rw [Node.unplaced] at h
    cases h with
    | @slot _ word _ _ _ _ _ ho hword hh hd hc =>
      have hfirst : staysInside word.kind = true := by rw [hword]; rfl
      have hinside := List.forall_mem_append.mpr ⟨hh.staysInside, hd.staysInside⟩
      have hslot := Construct.mk (.inl ho) (List.forall_mem_cons.mpr ⟨hfirst, hinside⟩) (.inl hc)
      exact .inr (.inl (by simpa using hslot))
  | context path s =>
    rw [Node.unplaced] at h
    cases h with
    | context h => exact .inr (.inl h.construct)
  | imported path s =>
    rw [Node.unplaced] at h
    cases h with
    | imported hd _ hc => exact .inr (.inr ⟨_, _, [_], rfl, hd.1, hc⟩)
  | included path s =>
    rw [Node.unplaced] at h
    cases h with
    | included hd _ hc => exact .inr (.inr ⟨_, _, [_], rfl, hd.1, hc⟩)
  | conditional c t e s => exact hn.elim
  | part name ns s => exact hn.elim

/-- From plain text a node without bodies leads back to plain text, where it ends. -/
lemma leaf_run {t : Token} {n : Node} (h : OneNode (t :: ts) n.unplaced) (hn : Placed.IsLeaf n)
    (hrun : (text a).run (t :: ts) = some s) :
    t.start = a ∧ s = text (ts.getLastD t).stop := by
  obtain ⟨s₁, hafter, -⟩ := run_cons_eq_some.mp hrun
  have hstart := start_of_after hafter
  have htext : ∃ b, s = text b := by
    rcases leaf_cases h hn with ⟨u, hu, hk⟩ | hc | ⟨d, bracket, hs, hd, -, hb⟩
    · obtain ⟨rfl, rfl⟩ := List.cons.inj hu
      rw [run_cons, after_text hstart hk] at hrun
      exact ⟨t.stop, (Option.some.inj hrun).symm⟩
    · obtain ⟨ho, hinside, hclose⟩ := hc
      rw [run_cons, after_opening hstart ho, Option.bind_some, run_append,
        run_construct hinside, Option.bind_some, run_cons] at hrun
      rename_i c _
      refine ⟨c.stop, ?_⟩
      rcases hclose with hclose | hclose <;> simpa [after, hclose, eq_comm] using hrun
    · rw [hd] at hrun
      exact ⟨bracket.stop, (of_run_head hb hrun).2⟩
  obtain ⟨b, rfl⟩ := htext
  have hstop := stop_of_run (List.cons_ne_nil t ts) t hrun
  rw [List.getLastD_cons] at hstop
  exact ⟨hstart, by rw [hstop]⟩

/-! ### What cannot follow an open directive -/

lemma Grammar.PartHead.ends {d bracket : Token} {hs : List Token} {name : String}
    (h : PartHead (d :: (hs ++ [bracket])) name) :
    d.kind = .directive ∧ bracket.kind = .directiveClose := by
  have hlast (us : List Token) {c : Token} (heq : hs ++ [bracket] = us ++ [c]) : c = bracket :=
    (List.append_inj' heq rfl).2 |> List.cons.inj |>.1.symm
  generalize hts : d :: (hs ++ [bracket]) = ts at h
  cases h with
  | @plain d' n c hd _ hc =>
    obtain ⟨rfl, htail⟩ := List.cons.inj hts
    obtain rfl := hlast [n] htail
    exact ⟨hd.1, hc⟩
  | @keyed d' k e n c hd _ _ _ _ hc =>
    obtain ⟨rfl, htail⟩ := List.cons.inj hts
    obtain rfl := hlast [k, e, n] htail
    exact ⟨hd.1, hc⟩

lemma Grammar.Head.ends {d bracket : Token} {hs : List Token} {name : String} {c : Condition}
    (h : Head name (d :: (hs ++ [bracket])) c) :
    d.kind = .directive ∧ bracket.kind = .directiveClose := by
  generalize hts : d :: (hs ++ [bracket]) = ts at h
  obtain ⟨hd, -, hc⟩ := h
  obtain ⟨rfl, htail⟩ := List.cons.inj hts
  obtain ⟨-, hbracket⟩ := List.append_inj' htail rfl
  obtain ⟨rfl, -⟩ := List.cons.inj hbracket
  exact ⟨hd.1, hc⟩

namespace Placed

variable {Joins : Position → Position → Prop}

lemma not_run_directive {t : Token} (hk : t.kind = .directive) :
    directive.run (t :: ts) ≠ some s := by
  intro h
  obtain ⟨s₁, hafter, -⟩ := run_cons_eq_some.mp h
  rw [after_directive_of_kind (.inl hk)] at hafter
  cases hafter

/-- Inside a directive that is still open a node leaves it open. -/
lemma OneNode.stuck {n : Node} (h : OneNode Joins ts n) (hrun : directive.run ts = some s) :
    s = directive := by
  cases h with
  | leaf h hn _ =>
    rcases leaf_cases h hn with ⟨u, hu, hk⟩ | hc | ⟨d, bracket, hs, hd, hk, -⟩
    · obtain ⟨rfl, rfl⟩ := List.cons.inj hu
      rw [run_cons, after_directive_of_kind (.inr (.inl hk))] at hrun
      cases hrun
    · exact run_directive hc.ne_directiveClose hrun
    · rw [hd] at hrun
      exact absurd hrun (not_run_directive hk)
  | part hh _ _ => exact absurd hrun (not_run_directive hh.ends.1)
  | conditional hh _ _ _ => exact absurd hrun (not_run_directive hh.ends.1)

lemma Nodes.stuck {ns : List Node} (h : Nodes Joins a ts ns b)
    (hrun : directive.run ts = some s) : s = directive := by
  induction ns generalizing a ts with
  | nil =>
    cases h
    exact (Option.some.inj hrun).symm
  | cons n ns ih =>
    cases h with
    | cons _ h hs =>
      obtain ⟨s₁, hfirst, hrest⟩ := run_append_eq_some.mp hrun
      obtain rfl := h.stuck hfirst
      exact ih hs hrest

/-! ### Joints -/

/-- The token ends a body: it closes it, continues it by another branch, or ends the input. -/
def EndsBody (z : Token) : Prop := z.kind = .directive ∨ z.kind = .endOfInput

lemma not_after_directive {z : Token} (hz : EndsBody z) : directive.after z ≠ some s := by
  rw [after_directive_of_kind (hz.imp_right .inr)]
  exact nofun

/-- The branches behind a body begin with a directive, as does what closes them. -/
lemma Else.first {es : List Node} (h : Else Joins a us es b) {z : Token}
    (hz : z.kind = .directive) : ∃ u vs, us ++ [z] = u :: vs ∧ u.kind = .directive := by
  cases h with
  | absent => exact ⟨z, [], rfl, hz⟩
  | otherwise _ hd _ => exact ⟨_, _, rfl, hd.1⟩
  | elseIf _ hh _ _ _ _ => exact ⟨_, _, rfl, hh.ends.1⟩

mutual

/-- Read from plain text, a node starts there, and is closed to its end or left open. -/
lemma OneNode.tight : ∀ {ts : List Token} {n : Node}, OneNode Joins ts n →
    ∀ {a : Position} {s : Stage}, (text a).run ts = some s → n.span.start = a ∧
      (s = directive ∨ s = text n.span.stop ∧ OneNode (· = ·) ts n)
  | _, _, .leaf h hn hs, a, s, hrun => by
    obtain ⟨hstart, hstop⟩ := leaf_run h hn hrun
    rw [hs]
    exact ⟨hstart, .inr ⟨hstop, .leaf h hn hs⟩⟩
  | _, _, .part hh h hc, a, s, hrun => by
    obtain ⟨s₁, hhead, hrest⟩ := run_append_eq_some.mp hrun
    obtain ⟨hstart, rfl⟩ := of_run_head hh.ends.2 hhead
    obtain ⟨s₂, hbody, hclose⟩ := run_append_eq_some.mp hrest
    obtain ⟨s₃, hafter, hnil⟩ := run_cons_eq_some.mp hclose
    obtain rfl := Option.some.inj hnil
    obtain ⟨rfl, hnodes⟩ := h.tight hbody hafter (.inl hc.1)
    refine ⟨hstart, (of_after_directive hc.1 hafter).2.imp_right fun hs => ⟨hs, ?_⟩⟩
    exact .part hh hnodes hc
  | _, _, .conditional hh h he hc, a, s, hrun => by
    obtain ⟨s₁, hhead, hrest⟩ := run_append_eq_some.mp hrun
    obtain ⟨hstart, rfl⟩ := of_run_head hh.ends.2 hhead
    obtain ⟨s₂, hbody, helse⟩ := run_append_eq_some.mp hrest
    obtain ⟨u, vs, hfirst, hu⟩ := he.first hc.1
    rw [hfirst] at helse
    obtain ⟨_, hafter', -⟩ := run_cons_eq_some.mp helse
    obtain ⟨rfl, hnodes⟩ := h.tight hbody hafter' (.inl hu)
    rw [← hfirst] at helse
    obtain ⟨s₃, hbranches, hclose⟩ := run_append_eq_some.mp helse
    obtain ⟨s₄, hafter, hnil⟩ := run_cons_eq_some.mp hclose
    obtain rfl := Option.some.inj hnil
    obtain ⟨rfl, helse'⟩ := he.tight hbranches hafter hc.1
    refine ⟨hstart, (of_after_directive hc.1 hafter).2.imp_right fun hs => ⟨hs, ?_⟩⟩
    exact .conditional hh hnodes helse' hc

/-- Nodes read from plain text up to a token that ends a body lie side by side up to it. -/
lemma Nodes.tight : ∀ {a₀ b₀ : Position} {ts : List Token} {ns : List Node},
    Nodes Joins a₀ ts ns b₀ → ∀ {a : Position} {s s' : Stage} {z : Token},
      (text a).run ts = some s → s.after z = some s' → EndsBody z →
      s = text z.start ∧ Nodes (· = ·) a ts ns z.start
  | _, _, _, _, .nil _, a, s, s', z, hrun, hafter, _ => by
    obtain rfl := Option.some.inj hrun
    obtain rfl := start_of_after hafter
    exact ⟨rfl, .nil rfl⟩
  | _, _, _, _, .cons _ h hs, a, s, s', z, hrun, hafter, hz => by
    obtain ⟨s₁, hfirst, hrest⟩ := run_append_eq_some.mp hrun
    obtain ⟨hstart, rfl | ⟨rfl, hnode⟩⟩ := h.tight hfirst
    · obtain rfl := hs.stuck hrest
      exact absurd hafter (not_after_directive hz)
    · obtain ⟨rfl, hnodes⟩ := hs.tight hrest hafter hz
      exact ⟨rfl, .cons hstart.symm hnode hnodes⟩

/-- Branches read from plain text up to the directive that closes them. -/
lemma Else.tight : ∀ {a₀ b₀ : Position} {us : List Token} {es : List Node},
    Else Joins a₀ us es b₀ → ∀ {a : Position} {s s' : Stage} {z : Token},
      (text a).run us = some s → s.after z = some s' → z.kind = .directive →
      s = text z.start ∧ Else (· = ·) a us es z.start
  | _, _, _, _, .absent _, a, s, s', z, hrun, hafter, _ => by
    obtain rfl := Option.some.inj hrun
    obtain rfl := start_of_after hafter
    exact ⟨rfl, .absent rfl⟩
  | _, _, _, _, .otherwise _ hd h, a, s, s', z, hrun, hafter, hz => by
    obtain ⟨s₁, hfirst, hrest⟩ := run_cons_eq_some.mp hrun
    obtain ⟨hstart, rfl | rfl⟩ := of_after_directive hd.1 hfirst
    · obtain rfl := h.stuck hrest
      exact absurd hafter (not_after_directive (.inl hz))
    · obtain ⟨rfl, hnodes⟩ := h.tight hrest hafter (.inl hz)
      exact ⟨rfl, .otherwise hstart.symm hd hnodes⟩
  | _, _, _, _, .elseIf _ hh h he hlast _, a, s, s', z, hrun, hafter, hz => by
    obtain ⟨s₁, hhead, hrest⟩ := run_append_eq_some.mp hrun
    obtain ⟨hstart, rfl⟩ := of_run_head hh.ends.2 hhead
    obtain ⟨s₂, hbody, hbranches⟩ := run_append_eq_some.mp hrest
    obtain ⟨u, vs, hfirst, hu⟩ := he.first hz
    have helse : s₂.run (u :: vs) = some s' := by
      rw [← hfirst]
      exact run_append_eq_some.mpr ⟨s, hbranches, run_cons_eq_some.mpr ⟨s', hafter, rfl⟩⟩
    obtain ⟨_, hafter', -⟩ := run_cons_eq_some.mp helse
    obtain ⟨rfl, hnodes⟩ := h.tight hbody hafter' (.inl hu)
    obtain ⟨rfl, helse'⟩ := he.tight hbranches hafter hz
    have hstop := stop_of_run (List.append_ne_nil_of_left_ne_nil (List.cons_ne_nil _ _) _) z hrun
    refine ⟨rfl, .elseIf hstart.symm hh hnodes helse' hlast ?_⟩
    rw [hlast, hstop, List.cons_append, List.getLastD_cons]

end

/-! ### Texts and slices -/

/-- A node lies from its first token to the last. -/
lemma OneNode.span_eq {n : Node} (h : OneNode Joins ts n) :
    ∃ t us, ts = t :: us ∧ n.span = ⟨t.start, (us.getLastD t).stop⟩ := by
  cases h with
  | leaf _ _ hs => exact ⟨_, _, rfl, hs⟩
  | part _ _ _ =>
    refine ⟨_, _, List.cons_append .., ?_⟩
    rw [getLastD_append, getLastD_append, Node.span]
    rfl
  | conditional _ _ _ _ =>
    refine ⟨_, _, List.cons_append .., ?_⟩
    rw [getLastD_append, getLastD_append, getLastD_append, Node.span]
    rfl

lemma OneNode.start_le_stop {n : Node} (h : OneNode Joins ts n)
    (hts : ts.Pairwise fun t u => t.start.offset < u.start.offset) :
    n.span.start.offset ≤ n.span.stop.offset := by
  obtain ⟨t, us, rfl, hs⟩ := h.span_eq
  have hlast : us.getLastD t ∈ t :: us := List.getLastD_mem_cons
  have hstop : (us.getLastD t).start.offset ≤ (us.getLastD t).stop.offset := by
    rw [Token.stop, Position.advance_offset]
    exact Nat.le_add_right _ _
  rw [hs]
  rcases List.mem_cons.mp hlast with heq | hmem
  · rwa [heq] at hstop ⊢
  · exact ((List.pairwise_cons.mp hts).1 _ hmem).le.trans hstop

/-- Nodes side by side cover the source from where they start to where they end. -/
lemma Nodes.slices {ns : List Node} (h : Nodes (· = ·) a ts ns b)
    (hts : ts.Pairwise fun t u => t.start.offset < u.start.offset) (source : List Char) :
    a.offset ≤ b.offset ∧
      ns.flatMap (·.span.slice source) = Span.slice ⟨a, b⟩ source := by
  induction ns generalizing a ts with
  | nil =>
    cases h with
    | nil hj =>
      subst hj
      exact ⟨le_rfl, (Span.slice_self a source).symm⟩
  | cons n ns ih =>
    cases h with
    | cons hj h hs =>
      subst hj
      obtain ⟨hfirst, hrest, -⟩ := List.pairwise_append.mp hts
      obtain ⟨hle, hslices⟩ := ih hs hrest
      have hspan := h.start_le_stop hfirst
      refine ⟨hspan.trans hle, ?_⟩
      rw [List.flatMap_cons, hslices]
      exact Span.slice_append hspan hle source

/-- The texts among the nodes are texts among the tokens. -/
def TextsFrom (ts : List Token) (ns : List Node) : Prop :=
  ∀ content s, .text content s ∈ Node.walk ns → ∃ t ∈ ts, content = t.lexeme ∧ s = t.span

lemma TextsFrom.mono {ns : List Node} (h : TextsFrom ts ns) (hsub : ts ⊆ us) : TextsFrom us ns := by
  intro content s hmem
  obtain ⟨t, ht, heq⟩ := h content s hmem
  exact ⟨t, hsub ht, heq⟩

lemma TextsFrom.append {ns ms : List Node} (h : TextsFrom ts ns) (h' : TextsFrom us ms) :
    TextsFrom (ts ++ us) (ns ++ ms) := by
  intro content s hmem
  rw [Node.walk_append, List.mem_append] at hmem
  rcases hmem with hmem | hmem
  · exact h.mono (List.subset_append_left ts us) content s hmem
  · exact h'.mono (List.subset_append_right ts us) content s hmem

/-- A node with bodies has the texts that are in them. -/
lemma TextsFrom.singleton {n : Node} (hn : ∀ content s, n ≠ .text content s)
    (h : TextsFrom ts n.children) : TextsFrom ts [n] := by
  intro content s hmem
  rw [Node.walk_cons, Node.walk_nil, List.append_nil, List.mem_cons] at hmem
  rcases hmem with heq | hmem
  · exact absurd heq.symm (hn content s)
  · exact h content s hmem

lemma texts_leaf {t : Token} {n : Node} (h : Grammar.OneNode (t :: ts) n.unplaced)
    (hn : IsLeaf n) (hs : n.span = ⟨t.start, (ts.getLastD t).stop⟩) : TextsFrom (t :: ts) [n] := by
  intro content s hmem
  rw [Node.walk_cons, Node.walk_nil, List.append_nil, List.mem_cons] at hmem
  rcases hmem with rfl | hmem
  · generalize heq : t :: ts = us at h
    rw [Node.unplaced] at h
    cases h with
    | text _ =>
      obtain ⟨rfl, rfl⟩ := List.cons.inj heq
      exact ⟨t, List.mem_cons_self, rfl, hs⟩
  · cases n with
    | conditional => exact hn.elim
    | part => exact hn.elim
    | _ => simp [Node.children] at hmem

mutual

lemma OneNode.texts : ∀ {ts : List Token} {n : Node}, OneNode Joins ts n → TextsFrom ts [n]
  | _, _, .leaf h hn hs => texts_leaf h hn hs
  | _, _, .part _ h _ => .singleton nofun (h.texts.mono fun t ht => by simp [ht])
  | _, _, .conditional _ h he _ => by
    refine .singleton nofun ((h.texts.append he.texts).mono fun t ht => ?_)
    rcases List.mem_append.mp ht with ht | ht <;> simp [ht]

lemma Nodes.texts : ∀ {a b : Position} {ts : List Token} {ns : List Node},
    Nodes Joins a ts ns b → TextsFrom ts ns
  | _, _, _, _, .nil _ => by simp [TextsFrom]
  | _, _, _, _, .cons _ h hs => h.texts.append hs.texts

lemma Else.texts : ∀ {a b : Position} {ts : List Token} {es : List Node},
    Else Joins a ts es b → TextsFrom ts es
  | _, _, _, _, .absent _ => by simp [TextsFrom]
  | _, _, _, _, .otherwise _ _ h => h.texts.mono (List.subset_cons_self _ _)
  | _, _, _, _, .elseIf _ _ h he _ _ => by
    refine .singleton nofun ((h.texts.append he.texts).mono fun t ht => ?_)
    rcases List.mem_append.mp ht with ht | ht <;> simp [ht]

end

end Placed

end Template

open Template

/-- **Nodes side by side**: in a source that is read without a fault the nodes of the document lie
one right behind the other from the beginning to the end of the source, those of every body from
the bracket that opens it to the directive that ends it, and an else-if up to the directive that
closes its conditional. The slices of the source at the document's nodes make up the source, and
every text is the slice at its own place. -/
theorem nodes_tile (source : String) (h : (parse source).success = true) :
    ∃ ts e, tokenize source = ts ++ [e] ∧ e.kind = .endOfInput ∧
      e.start.offset = source.length ∧
      Placed.Nodes (· = ·) .origin ts (parse source).document.children e.start ∧
      (parse source).document.children.flatMap (·.span.slice source.toList) = source.toList ∧
      ∀ content s, .text content s ∈ Node.walk (parse source).document.children →
        content.toList = s.slice source.toList := by
  obtain ⟨ts, e, ds, heq, he, -, hbody, herrors⟩ := isBody_parse source
  obtain ⟨us, c', hscan, -, hmarks, hend⟩ := tokenize_laid source
  obtain ⟨rfl, hlast⟩ := List.append_inj' (heq.symm.trans hscan) rfl
  obtain ⟨rfl, -⟩ := List.cons.inj hlast
  have hclean := clean_of_success h
  have hoffset : c'.pos.offset = source.length := by
    rw [hend, Position.offset_advance_origin, String.length_toList]
  have hordered : ts.Pairwise fun t u => t.start.offset < u.start.offset := by
    have hall : (tokenize source).filter (·.kind != .error) = tokenize source :=
      List.filter_eq_self.mpr fun t ht => by simpa using hclean t ht
    have hpairwise := tokenize_ordered source
    rw [hall, heq] at hpairwise
    exact (List.pairwise_append.mp hpairwise).1.imp And.left
  have hds : ds = [] := by
    have hnone : (parse source).errors = [] := by simpa [Parsed.success] using h
    rw [hnone] at herrors
    exact herrors.nil_eq.symm
  have hrun := run_tokenize hclean
  rw [heq] at hrun
  obtain ⟨s, hrun, hlast⟩ := Stage.run_append_eq_some.mp hrun
  obtain ⟨s', hafter, -⟩ := Stage.run_cons_eq_some.mp hlast
  obtain ⟨-, hnodes⟩ := (hbody.placed hds .origin .origin).tight hrun hafter (.inr rfl)
  obtain ⟨-, hslices⟩ := hnodes.slices hordered source.toList
  refine ⟨ts, _, heq, rfl, hoffset, hnodes, ?_, fun content s hmem => ?_⟩
  · rw [hslices, Span.slice, hoffset, ← String.length_toList]
    exact List.take_length
  · obtain ⟨t, ht, rfl, rfl⟩ := hnodes.texts content s hmem
    exact (hmarks t ht).slice

/-- A text, and a conditional with an else-if. -/
theorem nodes_tile_branches :
    (parse "Hi [#IF a]\x7b\x7bb\x7d\x7d[ELSE IF c] [END IF]").success = true ∧
      ∃ ts e, tokenize "Hi [#IF a]\x7b\x7bb\x7d\x7d[ELSE IF c] [END IF]" = ts ++ [e] ∧
        e.kind = .endOfInput ∧ e.start.offset = 35 ∧
        Placed.Nodes (· = ·) .origin ts
          [.text "Hi " ⟨⟨0, 1, 1⟩, ⟨3, 1, 4⟩⟩,
            .conditional (.ref "a" ⟨⟨8, 1, 9⟩, ⟨9, 1, 10⟩⟩)
              [.slot "b" none none ⟨⟨10, 1, 11⟩, ⟨15, 1, 16⟩⟩]
              [.conditional (.ref "c" ⟨⟨24, 1, 25⟩, ⟨25, 1, 26⟩⟩)
                [.text " " ⟨⟨26, 1, 27⟩, ⟨27, 1, 28⟩⟩] [] ⟨⟨15, 1, 16⟩, ⟨27, 1, 28⟩⟩]
              ⟨⟨3, 1, 4⟩, ⟨35, 1, 36⟩⟩] e.start := by
  have hparse : (parse "Hi [#IF a]\x7b\x7bb\x7d\x7d[ELSE IF c] [END IF]").success = true := by
    with_unfolding_all rfl
  have hchildren : (parse "Hi [#IF a]\x7b\x7bb\x7d\x7d[ELSE IF c] [END IF]").document.children =
      [.text "Hi " ⟨⟨0, 1, 1⟩, ⟨3, 1, 4⟩⟩,
        .conditional (.ref "a" ⟨⟨8, 1, 9⟩, ⟨9, 1, 10⟩⟩)
          [.slot "b" none none ⟨⟨10, 1, 11⟩, ⟨15, 1, 16⟩⟩]
          [.conditional (.ref "c" ⟨⟨24, 1, 25⟩, ⟨25, 1, 26⟩⟩)
            [.text " " ⟨⟨26, 1, 27⟩, ⟨27, 1, 28⟩⟩] [] ⟨⟨15, 1, 16⟩, ⟨27, 1, 28⟩⟩]
          ⟨⟨3, 1, 4⟩, ⟨35, 1, 36⟩⟩] := by with_unfolding_all rfl
  obtain ⟨ts, e, heq, he, hoffset, hnodes, -⟩ := nodes_tile _ hparse
  rw [hchildren] at hnodes
  exact ⟨hparse, ts, e, heq, he, hoffset, hnodes⟩

end Stencil
