import Mathlib.Data.List.Perm.Lattice
import Stencil.Proofs.Template.Reading

/-!
What becomes of the tokens of any source, valid or not.

A parse passes over every token, and what it finds wrong on the way is accounted for by the tokens
that it passes over (`Account`): an error token is told once, a directive that opens a block is
closed by one behind it or told once, and a directive that closes a block closes one or is told
once. The account says nothing of which construct is being read or recovered from, so that it can
be kept through all of them by putting accounts one behind the other.
-/

namespace Stencil

namespace Block

/-- What the directive is called that opens the block. -/
def openerName : Block → String
  | conditional => "IF"
  | part => "SECTION"

/-- What the directive is called that closes the block. -/
def closerName : Block → String
  | conditional => "END_IF"
  | part => "END_SECTION"

end Block

namespace Token

/-- The token is the directive that opens the block. -/
def opens (b : Block) (t : Token) : Bool := t.kind == .directive && t.text == b.openerName

/-- The token is the directive that closes the block. -/
def closes (b : Block) (t : Token) : Bool := t.kind == .directive && t.text == b.closerName

/-- The token is no error and neither opens nor closes a block. -/
def Neutral (t : Token) : Prop :=
  t.kind ≠ .error ∧ ∀ b, t.opens b = false ∧ t.closes b = false

variable {t : Token} {b b' : Block}

lemma neutral_of_kind (h : t.kind ≠ .error) (hd : t.kind ≠ .directive) : t.Neutral :=
  ⟨h, fun b => by simp [opens, closes, hd]⟩

lemma neutral_of_text (hk : t.kind = .directive)
    (h : ∀ b : Block, t.text ≠ b.openerName ∧ t.text ≠ b.closerName) : t.Neutral :=
  ⟨by simp [hk], fun b => by simp [opens, closes, h b]⟩

lemma opens_iff : t.opens b = true ↔ t.kind = .directive ∧ t.text = b.openerName := by
  simp [opens]

lemma closes_iff : t.closes b = true ↔ t.kind = .directive ∧ t.text = b.closerName := by
  simp [closes]

lemma opens_eq_false (h : t.text ≠ b.openerName) : t.opens b = false := by simp [opens, h]

/-- What opens one block opens no other. -/
lemma opens_of_opens (h : t.opens b = true) (b' : Block) : t.opens b' = decide (b' = b) := by
  obtain ⟨hk, ht⟩ := opens_iff.mp h
  cases b <;> cases b' <;> simp [opens, hk, ht, Block.openerName]

lemma closes_of_opens (h : t.opens b = true) (b' : Block) : t.closes b' = false := by
  obtain ⟨hk, ht⟩ := opens_iff.mp h
  cases b <;> cases b' <;> simp [closes, hk, ht, Block.openerName, Block.closerName]

/-- What closes one block closes no other. -/
lemma closes_of_closes (h : t.closes b = true) (b' : Block) : t.closes b' = decide (b' = b) := by
  obtain ⟨hk, ht⟩ := closes_iff.mp h
  cases b <;> cases b' <;> simp [closes, hk, ht, Block.closerName]

lemma opens_of_closes (h : t.closes b = true) (b' : Block) : t.opens b' = false := by
  obtain ⟨hk, ht⟩ := closes_iff.mp h
  cases b <;> cases b' <;> simp [opens, hk, ht, Block.openerName, Block.closerName]

lemma opens_of_error (h : t.kind = .error) : t.opens b = false := by simp [opens, h]

lemma closes_of_error (h : t.kind = .error) : t.closes b = false := by simp [closes, h]

end Token

/-- A fault that is neither about an error token nor about a directive that lacks its partner. -/
def Problem.isLocal (p : Problem) : Bool :=
  match p.code with
  | .lexical | .unterminated | .unclosedBlock | .unexpectedCloser => false
  | _ => true

namespace Template

/-- The faults `ds`, the newest first, account for the tokens `ts`. -/
inductive Account : List Token → List Diagnostic → Prop
  | nil : Account [] []
  | append {ts us : List Token} {ds es : List Diagnostic} (h : Account ts ds)
      (h' : Account us es) : Account (ts ++ us) (es ++ ds)
  | token {t : Token} (h : t.Neutral) : Account [t] []
  | error {t : Token} (h : t.kind = .error) : Account [t] [⟨.lexical t.text, t.start⟩]
  | fault {d : Diagnostic} (h : d.problem.isLocal = true) : Account [] [d]
  | closed {b : Block} {o c : Token} {ts : List Token} {ds : List Diagnostic}
      (ho : o.opens b = true) (h : Account ts ds) (hc : c.closes b = true) :
      Account (o :: (ts ++ [c])) ds
  | unclosed {b : Block} {o : Token} {ts : List Token} {ds : List Diagnostic}
      (ho : o.opens b = true) (h : Account ts ds) :
      Account (o :: ts) (⟨.unclosed b, o.start⟩ :: ds)
  | stray {t : Token} {problem : Problem} (hk : t.kind = .directive)
      (ho : ∀ b, t.opens b = false) (hp : problem.code = .unexpectedCloser) :
      Account [t] [⟨problem, t.start⟩]

/-- The fault is what an error token says. -/
def isLexical (d : Diagnostic) : Bool :=
  d.problem.code == .lexical || d.problem.code == .unterminated

/-- The directives of the tokens `ts` that open or close the block `b` are settled: `pairs` are
those that belong together, and all others are told among the faults `ds`, which tell of the
openers `us` that they lack a closer and of the closers `xs` that they lack an opener. -/
structure Settled (b : Block) (ts : List Token) (ds : List Diagnostic)
    (pairs : List (Token × Token)) (us xs : List Token) : Prop where
  unclosed : (ds.filter (·.problem.code == .unclosedBlock)).map (·.start) = us.map (·.start)
  unexpected : (ds.filter (·.problem.code == .unexpectedCloser)).map (·.start) = xs.map (·.start)
  told : ∀ t ∈ us ++ xs, t ∈ ts ∧ t.kind = .directive
  openers : (ts.filter (·.opens b)).Perm (pairs.map Prod.fst ++ us.filter (·.opens b))
  closers : (ts.filter (·.closes b)).Perm (pairs.map Prod.snd ++ xs.filter (·.closes b))
  ordered : ∀ q ∈ pairs, [q.1, q.2].Sublist ts

namespace Settled

variable {b : Block} {ts us xs : List Token} {ds : List Diagnostic} {pairs : List (Token × Token)}

lemma opens_of_mem (h : Settled b ts ds pairs us xs) {q : Token × Token} (hq : q ∈ pairs) :
    q.1.opens b = true := by
  have hmem := h.openers.mem_iff.mpr (List.mem_append_left _ (List.mem_map_of_mem hq))
  exact (List.mem_filter.mp hmem).2

lemma closes_of_mem (h : Settled b ts ds pairs us xs) {q : Token × Token} (hq : q ∈ pairs) :
    q.2.closes b = true := by
  have hmem := h.closers.mem_iff.mpr (List.mem_append_left _ (List.mem_map_of_mem hq))
  exact (List.mem_filter.mp hmem).2

/-- A token that is among others once is in one part of them, and there once. -/
lemma count_add_count {P : Token → Bool} {as : List Token} {t : Token}
    (h : (ts.filter P).Perm (as ++ us.filter P)) (hts : (ts.filter P).Nodup)
    (ht : t ∈ ts.filter P) : as.count t + us.count t = 1 := by
  have hone := List.count_eq_one_of_mem hts ht
  rwa [h.count_eq, List.count_append, List.count_filter (List.mem_filter.mp ht).2] at hone

/-- The openers that are not told are as many as the closers that are not told. -/
lemma balance (h : Settled b ts ds pairs us xs) :
    (ts.countP (·.opens b) : Int) - us.countP (·.opens b) =
      ts.countP (·.closes b) - xs.countP (·.closes b) := by
  have hopeners := h.openers.length_eq
  have hclosers := h.closers.length_eq
  simp only [List.length_append, List.length_map, ← List.countP_eq_length_filter]
    at hopeners hclosers
  omega

end Settled

namespace Account

/-- Two lists, each with a second part, one behind the other: the first parts, then the second. -/
lemma interchange {α : Type} (as bs cs es : List α) :
    ((as ++ bs) ++ (cs ++ es)).Perm ((as ++ cs) ++ (es ++ bs)) := by
  rw [List.append_assoc, List.append_assoc]
  refine List.Perm.append_left as ?_
  calc (bs ++ (cs ++ es)).Perm ((cs ++ es) ++ bs) := List.perm_append_comm
    _ = cs ++ (es ++ bs) := List.append_assoc ..

variable {ts : List Token} {ds : List Diagnostic} {d : Diagnostic} {t : Token} {b : Block}

lemma isLexical_eq_false (h : d.problem.isLocal = true) : isLexical d = false := by
  rw [Problem.isLocal] at h
  cases hc : d.problem.code <;> simp_all [isLexical]

lemma code_lexical (s : String) :
    (Problem.lexical s).code = .unterminated ∨ (Problem.lexical s).code = .lexical := by
  by_cases h : Problem.isUnterminated s = true <;> simp [Problem.code, h]

lemma isLexical_lexical (t : Token) : isLexical ⟨.lexical t.text, t.start⟩ = true := by
  rcases code_lexical t.text with h | h <;> simp [isLexical, h]

lemma ne_error_of_opens (h : t.opens b = true) : t.kind ≠ .error := by
  simp [(Token.opens_iff.mp h).1]

lemma ne_error_of_closes (h : t.closes b = true) : t.kind ≠ .error := by
  simp [(Token.closes_iff.mp h).1]

/-- What the error tokens say is what is told of them, once each. -/
lemma errors (h : Account ts ds) :
    ((ts.filter (·.kind == .error)).map fun t => (⟨.lexical t.text, t.start⟩ : Diagnostic)).Perm
      (ds.filter isLexical) := by
  induction h with
  | nil => exact .nil
  | append _ _ ih ih' =>
    rw [List.filter_append, List.filter_append, List.map_append]
    exact (ih.append ih').trans List.perm_append_comm
  | token h => simp [h.1]
  | @error t h => simp [h, isLexical_lexical]
  | fault h => simp [isLexical_eq_false h]
  | closed ho _ hc ih => simpa [ne_error_of_opens ho, ne_error_of_closes hc] using ih
  | unclosed ho _ ih => simpa [ne_error_of_opens ho, isLexical, Problem.code] using ih
  | stray hk _ hp => simp [hk, isLexical, hp]

/-! ### Blocks -/

lemma settled_append {us xs us' xs' vs : List Token} {es : List Diagnostic}
    {pairs pairs' : List (Token × Token)} (h : Settled b ts ds pairs us xs)
    (h' : Settled b vs es pairs' us' xs') :
    Settled b (ts ++ vs) (es ++ ds) (pairs ++ pairs') (us' ++ us) (xs' ++ xs) where
  unclosed := by
    rw [List.filter_append, List.map_append, h.unclosed, h'.unclosed, List.map_append]
  unexpected := by
    rw [List.filter_append, List.map_append, h.unexpected, h'.unexpected, List.map_append]
  told t ht := by
    have hmem : t ∈ us ++ xs ∨ t ∈ us' ++ xs' := by
      simp only [List.mem_append] at ht ⊢
      tauto
    rcases hmem with hmem | hmem
    · exact (h.told t hmem).imp_left (List.mem_append_left _)
    · exact (h'.told t hmem).imp_left (List.mem_append_right _)
  openers := by
    rw [List.filter_append, List.filter_append, List.map_append]
    exact (h.openers.append h'.openers).trans (interchange _ _ _ _)
  closers := by
    rw [List.filter_append, List.filter_append, List.map_append]
    exact (h.closers.append h'.closers).trans (interchange _ _ _ _)
  ordered q hq := by
    rcases List.mem_append.mp hq with hq | hq
    · exact (h.ordered q hq).trans (List.sublist_append_left _ _)
    · exact (h'.ordered q hq).trans (List.sublist_append_right _ _)

/-- Tokens among which no directive opens or closes the block, and faults about other things. -/
lemma settled_of_neutral (ho : ∀ t ∈ ts, t.opens b = false) (hc : ∀ t ∈ ts, t.closes b = false)
    (hu : ∀ d ∈ ds, d.problem.code ≠ .unclosedBlock)
    (hx : ∀ d ∈ ds, d.problem.code ≠ .unexpectedCloser) : Settled b ts ds [] [] [] where
  unclosed := by simpa [List.filter_eq_nil_iff] using hu
  unexpected := by simpa [List.filter_eq_nil_iff] using hx
  told := by simp
  openers := by
    have hnone : ts.filter (·.opens b) = [] := by simpa [List.filter_eq_nil_iff] using ho
    simp [hnone]
  closers := by
    have hnone : ts.filter (·.closes b) = [] := by simpa [List.filter_eq_nil_iff] using hc
    simp [hnone]
  ordered := by simp

/-- A pair more, if it is the block's. -/
lemma settled_closed {b' : Block} {o c : Token} {pairs : List (Token × Token)}
    {us xs : List Token} (ho : o.opens b' = true) (h : Settled b ts ds pairs us xs)
    (hc : c.closes b' = true) : ∃ pairs', Settled b (o :: (ts ++ [c])) ds pairs' us xs := by
  have hmem : ∀ t ∈ us ++ xs, t ∈ o :: (ts ++ [c]) ∧ t.kind = .directive := fun t ht =>
    (h.told t ht).imp_left fun hts => List.mem_cons_of_mem _ (List.mem_append_left _ hts)
  have hsub : ts.Sublist (o :: (ts ++ [c])) :=
    (List.sublist_append_left ts [c]).trans (List.sublist_cons_self ..)
  have hordered : ∀ q ∈ pairs, [q.1, q.2].Sublist (o :: (ts ++ [c])) := fun q hq =>
    (h.ordered q hq).trans hsub
  by_cases hb : b = b'
  · subst hb
    refine ⟨(o, c) :: pairs, h.unclosed, h.unexpected, hmem, ?_, ?_, ?_⟩
    · have hopens : (o :: (ts ++ [c])).filter (·.opens b) = o :: ts.filter (·.opens b) := by
        simp [ho, Token.opens_of_closes hc]
      rw [hopens]
      exact h.openers.cons o
    · have hcloses : (o :: (ts ++ [c])).filter (·.closes b) = ts.filter (·.closes b) ++ [c] := by
        simp [hc, Token.closes_of_opens ho]
      rw [hcloses]
      exact (List.perm_append_singleton c _).trans (h.closers.cons c)
    · refine List.forall_mem_cons.mpr ⟨?_, hordered⟩
      exact (List.sublist_append_right ts [c]).cons_cons o
  · refine ⟨pairs, h.unclosed, h.unexpected, hmem, ?_, ?_, hordered⟩
    · have hopens : (o :: (ts ++ [c])).filter (·.opens b) = ts.filter (·.opens b) := by
        simp [Token.opens_of_opens ho, Token.opens_of_closes hc, hb]
      rw [hopens]
      exact h.openers
    · have hcloses : (o :: (ts ++ [c])).filter (·.closes b) = ts.filter (·.closes b) := by
        simp [Token.closes_of_closes hc, Token.closes_of_opens ho, hb]
      rw [hcloses]
      exact h.closers

/-- An opener of some block that is told to lack its closer. -/
lemma settled_unclosed {b' : Block} {o : Token} {pairs : List (Token × Token)}
    {us xs : List Token} (ho : o.opens b' = true) (h : Settled b ts ds pairs us xs) :
    Settled b (o :: ts) (⟨.unclosed b', o.start⟩ :: ds) pairs (o :: us) xs where
  unclosed := by simpa [Problem.code] using h.unclosed
  unexpected := by simpa [Problem.code] using h.unexpected
  told := by
    refine List.forall_mem_cons.mpr ⟨⟨List.mem_cons_self, (Token.opens_iff.mp ho).1⟩, ?_⟩
    exact fun t ht => (h.told t ht).imp_left (List.mem_cons_of_mem _)
  openers := by
    by_cases hb : b = b'
    · subst hb
      simpa [ho] using (h.openers.cons o).trans List.perm_middle.symm
    · simpa [Token.opens_of_opens ho, hb] using h.openers
  closers := by simpa [Token.closes_of_opens ho] using h.closers
  ordered q hq := (h.ordered q hq).trans (List.sublist_cons_self ..)

/-- A directive that is told to lack an opener. -/
lemma settled_stray {problem : Problem} (hk : t.kind = .directive)
    (ho : ∀ b, t.opens b = false) (hp : problem.code = .unexpectedCloser) :
    Settled b [t] [⟨problem, t.start⟩] [] [] [t] where
  unclosed := by simp [hp]
  unexpected := by simp [hp]
  told := List.forall_mem_singleton.mpr ⟨List.mem_singleton_self t, hk⟩
  openers := by simp [ho]
  closers := by simp
  ordered := by simp

lemma settled (h : Account ts ds) (b : Block) : ∃ pairs us xs, Settled b ts ds pairs us xs := by
  induction h with
  | nil => exact ⟨[], [], [], settled_of_neutral (by simp) (by simp) (by simp) (by simp)⟩
  | append _ _ ih ih' =>
    obtain ⟨pairs, us, xs, h⟩ := ih
    obtain ⟨pairs', us', xs', h'⟩ := ih'
    exact ⟨_, _, _, settled_append h h'⟩
  | token h =>
    refine ⟨[], [], [], settled_of_neutral ?_ ?_ (by simp) (by simp)⟩
    · exact List.forall_mem_singleton.mpr (h.2 b).1
    · exact List.forall_mem_singleton.mpr (h.2 b).2
  | @error t h =>
    have hcode := code_lexical t.text
    refine ⟨[], [], [], settled_of_neutral ?_ ?_ ?_ ?_⟩
    · exact List.forall_mem_singleton.mpr (Token.opens_of_error h)
    · exact List.forall_mem_singleton.mpr (Token.closes_of_error h)
    · exact List.forall_mem_singleton.mpr (by rcases hcode with h | h <;> simp [h])
    · exact List.forall_mem_singleton.mpr (by rcases hcode with h | h <;> simp [h])
  | @fault d h =>
    have hcode : d.problem.code ≠ .unclosedBlock ∧ d.problem.code ≠ .unexpectedCloser := by
      constructor <;> intro hc <;> simp [Problem.isLocal, hc] at h
    refine ⟨[], [], [], settled_of_neutral (by simp) (by simp) ?_ ?_⟩
    · exact List.forall_mem_singleton.mpr hcode.1
    · exact List.forall_mem_singleton.mpr hcode.2
  | closed ho _ hc ih =>
    obtain ⟨pairs, us, xs, h⟩ := ih
    obtain ⟨pairs', h⟩ := settled_closed ho h hc
    exact ⟨pairs', us, xs, h⟩
  | unclosed ho _ ih =>
    obtain ⟨pairs, us, xs, h⟩ := ih
    exact ⟨pairs, _, xs, settled_unclosed ho h⟩
  | stray hk ho hp => exact ⟨[], [], _, settled_stray hk ho hp⟩

end Account

end Template

end Stencil
