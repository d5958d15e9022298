import Mathlib.Data.List.Nodup
import Stencil.Proofs.Source.Layout
import Stencil.Proofs.Template.Language

/-!
What is told of the tokens of any source, valid or not, and the trees that come of it.

The account that a parse keeps of the tokens it passes over (`Account`) covers the whole source:
error tokens are told once each, directives that open and close blocks belong together two by two
or are told once, and all that is kept in the tree is proper.
-/

namespace Stencil

open Source

namespace Template

variable {source : String} {ts us : List Token} {ds : List Diagnostic}

/-- A source is a body of all its tokens but the end of the input. -/
lemma isBody_parse (source : String) : ∃ ts e ds, tokenize source = ts ++ [e] ∧
    e.kind = .endOfInput ∧ (∀ t ∈ ts, t.Worded) ∧
    IsBody ts ds (parse source).document.children ∧ (parse source).errors.Perm ds := by
  obtain ⟨ts, e, heq, he, hts, -⟩ := tokenize_shape source
  refine ⟨ts, e, (wholeOn (ts ++ [e])).2.found, heq, he, fun t ht => ?_, ?_, ?_⟩
  · refine tokenize_worded source t ?_
    rw [heq]
    exact List.mem_append_left _ ht
  · unfold parse
    rw [heq]
    exact isBody_wholeOn he hts
  · unfold parse
    rw [errors_parseTokens, heq]
    exact (List.mergeSort_perm _ _).trans (List.reverse_perm _)

/-- The faults of a source account for its tokens. -/
lemma account_parse (source : String) :
    ∃ ds, Account (tokenize source) ds ∧ (parse source).errors.Perm ds := by
  obtain ⟨ts, e, ds, heq, he, -, hbody, herrors⟩ := isBody_parse source
  have hend : e.Neutral := Token.neutral_of_kind (by simp [he]) (by simp [he])
  refine ⟨ds, ?_, herrors⟩
  rw [heq]
  exact .append hbody.account (.token hend)

/-- A source that is read without a fault has no error tokens. -/
lemma clean_of_success (h : (parse source).success = true) : Clean (tokenize source) := by
  obtain ⟨ds, haccount, herrors⟩ := account_parse source
  have hnone : (parse source).errors = [] := by simpa [Parsed.success] using h
  rw [hnone] at herrors
  obtain rfl : ds = [] := herrors.nil_eq.symm
  have herror : (tokenize source).filter (·.kind == .error) = [] := by
    simpa using haccount.errors.length_eq
  intro t ht hk
  have hmem : t ∈ (tokenize source).filter (·.kind == .error) :=
    List.mem_filter.mpr ⟨ht, by simpa using hk⟩
  rw [herror] at hmem
  exact absurd hmem List.not_mem_nil

/-! ### Places of tokens -/

/-- How many of the faults have this code and start where one of the tokens does. -/
def toldOf (code : ProblemCode) (ds : List Diagnostic) (ts : List Token) : Nat :=
  ds.countP fun d => d.problem.code == code && ts.any (·.start == d.start)

lemma nodup_starts (source : String) :
    (((tokenize source).filter (·.kind != .error)).map (·.start)).Nodup := by
  rw [List.Nodup, List.pairwise_map]
  refine (tokenize_ordered source).imp fun hlt heq => ?_
  rw [heq] at hlt
  exact Nat.lt_irrefl _ hlt.1

/-- No two directives of a source start at the same place. -/
lemma eq_of_start_eq {t u : Token} (ht : t ∈ tokenize source) (hu : u ∈ tokenize source)
    (hkind : t.kind = .directive) (hkind' : u.kind = .directive) (h : t.start = u.start) :
    t = u := by
  refine List.inj_on_of_nodup_map (nodup_starts source) ?_ ?_ h
  · exact List.mem_filter.mpr ⟨ht, by simp [hkind]⟩
  · exact List.mem_filter.mpr ⟨hu, by simp [hkind']⟩

lemma nodup_directives {P : Token → Bool} (hP : ∀ t, P t = true → t.kind = .directive) :
    ((tokenize source).filter P).Nodup := by
  have hsame : (tokenize source).filter P =
      ((tokenize source).filter (·.kind != .error)).filter P := by
    rw [List.filter_filter]
    refine List.filter_congr fun t _ => ?_
    cases hPt : P t
    · rfl
    · simp [hP t hPt]
  rw [hsame]
  exact (nodup_starts source).of_map.filter P

/-- Where the faults of a code tell of the directives `us` of a source, those that start where one
of the directives `ws` does are as many as these among them. -/
lemma toldOf_eq {code : ProblemCode} {ws : List Token}
    (h : (ds.filter (·.problem.code == code)).map (·.start) = us.map (·.start))
    (hus : ∀ u ∈ us, u ∈ tokenize source ∧ u.kind = .directive)
    (hws : ∀ t ∈ ws, t ∈ tokenize source ∧ t.kind = .directive) :
    toldOf code ds ws = us.countP fun u => decide (u ∈ ws) := by
  have hcount : toldOf code ds ws =
      ((ds.filter (·.problem.code == code)).map (·.start)).countP fun p =>
        ws.any (·.start == p) := by
    rw [List.countP_map, List.countP_filter]
    exact List.countP_congr fun d _ => by simp [and_comm]
  rw [hcount, h, List.countP_map]
  refine List.countP_congr fun u hu => ?_
  obtain ⟨hmem, hkind⟩ := hus u hu
  simp only [Function.comp_apply, List.any_eq_true, decide_eq_true_eq, beq_iff_eq]
  constructor
  · rintro ⟨t, ht, hstart⟩
    obtain ⟨hmem', hkind'⟩ := hws t ht
    rwa [← eq_of_start_eq hmem' hmem hkind' hkind hstart]
  · exact fun hu => ⟨u, hu, rfl⟩

lemma toldOf_filter {code : ProblemCode} {P : Token → Bool}
    (h : (ds.filter (·.problem.code == code)).map (·.start) = us.map (·.start))
    (hus : ∀ u ∈ us, u ∈ tokenize source ∧ u.kind = .directive)
    (hP : ∀ t, P t = true → t.kind = .directive) :
    toldOf code ds ((tokenize source).filter P) = us.countP P := by
  rw [toldOf_eq h hus fun t ht => (List.mem_filter.mp ht).imp_right (hP t)]
  exact List.countP_congr fun u hu => by simp [(hus u hu).1]

lemma toldOf_singleton {code : ProblemCode} {t : Token}
    (h : (ds.filter (·.problem.code == code)).map (·.start) = us.map (·.start))
    (hus : ∀ u ∈ us, u ∈ tokenize source ∧ u.kind = .directive) (ht : t ∈ tokenize source)
    (hkind : t.kind = .directive) : toldOf code ds [t] = us.count t := by
  rw [toldOf_eq h hus (List.forall_mem_singleton.mpr ⟨ht, hkind⟩), List.count]
  exact List.countP_congr fun u _ => by simp

lemma toldOf_perm {code : ProblemCode} {es : List Diagnostic} (h : ds.Perm es)
    (ts : List Token) : toldOf code ds ts = toldOf code es ts := h.countP_eq _

end Template

open Template

/-- **Error tokens**: in every source what its error tokens say is told at their places, each once,
and nothing else is told as such; so a source with an error token is never read without a fault. -/
theorem lexicalErrors_perm (source : String) :
    (((parse source).errors.filter isLexical).map fun d => (some d.message, d.start)).Perm
        (((tokenize source).filter (·.kind == .error)).map fun t => (t.value, t.start)) ∧
      ∀ t ∈ tokenize source, t.kind = .error → (parse source).success = false := by
  obtain ⟨ds, haccount, herrors⟩ := account_parse source
  have hvalue : ∀ t ∈ (tokenize source).filter (·.kind == .error), some t.text = t.value := by
    intro t ht
    obtain ⟨ht, hk⟩ := List.mem_filter.mp ht
    have hsome := (tokenize_worded source t ht).error (by simpa using hk)
    obtain ⟨v, hv⟩ := Option.isSome_iff_exists.mp hsome
    rw [Token.text, hv, Option.getD_some]
  have hperm : (((parse source).errors.filter isLexical).map
      fun d => (some d.message, d.start)).Perm
        (((tokenize source).filter (·.kind == .error)).map fun t => (t.value, t.start)) := by
    have hfaults := (herrors.filter isLexical).trans haccount.errors.symm
    have hmessages := hfaults.map fun d => (some d.message, d.start)
    rw [List.map_map] at hmessages
    have hsame : ((tokenize source).filter (·.kind == .error)).map (fun t => (t.value, t.start)) =
        ((tokenize source).filter (·.kind == .error)).map fun t => (some t.text, t.start) :=
      List.map_congr_left fun t ht => by rw [hvalue t ht]
    rw [hsame]
    exact hmessages
  refine ⟨hperm, fun t ht hk => ?_⟩
  have hlength := hperm.length_eq
  rw [List.length_map, List.length_map] at hlength
  have hpos : 0 < ((tokenize source).filter (·.kind == .error)).length :=
    List.length_pos_of_mem (List.mem_filter.mpr ⟨ht, by simpa using hk⟩)
  rw [Parsed.success, List.isEmpty_eq_false_iff]
  rintro hnone
  rw [hnone] at hlength
  simp only [List.filter_nil, List.length_nil] at hlength
  omega

/-- **Blocks**: in every source the directives that open and close blocks of a kind belong together
two by two, the opener in front, but for those that are told to lack their partner: each is in one
such pair, or is told once. So those that are not told are as many of one as of the other. -/
theorem blocks_settled (source : String) (b : Block) :
    (∃ pairs : List (Token × Token),
      (∀ q ∈ pairs, [q.1, q.2].Sublist (tokenize source) ∧ q.1.opens b = true ∧
        q.2.closes b = true) ∧
      (∀ t ∈ (tokenize source).filter (·.opens b),
        (pairs.map Prod.fst).count t + toldOf .unclosedBlock (parse source).errors [t] = 1) ∧
      ∀ t ∈ (tokenize source).filter (·.closes b),
        (pairs.map Prod.snd).count t + toldOf .unexpectedCloser (parse source).errors [t] = 1) ∧
    ((tokenize source).countP (·.opens b) : Int) -
        toldOf .unclosedBlock (parse source).errors ((tokenize source).filter (·.opens b)) =
      (tokenize source).countP (·.closes b) -
        toldOf .unexpectedCloser (parse source).errors ((tokenize source).filter (·.closes b)) := by
  obtain ⟨ds, haccount, herrors⟩ := account_parse source
  obtain ⟨pairs, us, xs, h⟩ := haccount.settled b
  obtain ⟨hus, hxs⟩ := List.forall_mem_append.mp h.told
  have hopener : ∀ t : Token, t.opens b = true → t.kind = .directive := fun t ht =>
    (Token.opens_iff.mp ht).1
  have hcloser : ∀ t : Token, t.closes b = true → t.kind = .directive := fun t ht =>
    (Token.closes_iff.mp ht).1
  refine ⟨⟨pairs, fun q hq => ⟨h.ordered q hq, h.opens_of_mem hq, h.closes_of_mem hq⟩,
    fun t ht => ?_, fun t ht => ?_⟩, ?_⟩
  · obtain ⟨hmem, ho⟩ := List.mem_filter.mp ht
    rw [toldOf_perm herrors, toldOf_singleton h.unclosed hus hmem (hopener t ho)]
    exact Settled.count_add_count h.openers (nodup_directives hopener) ht
  · obtain ⟨hmem, hc⟩ := List.mem_filter.mp ht
    rw [toldOf_perm herrors, toldOf_singleton h.unexpected hxs hmem (hcloser t hc)]
    exact Settled.count_add_count h.closers (nodup_directives hcloser) ht
  · rw [toldOf_perm herrors, toldOf_perm herrors, toldOf_filter h.unclosed hus hopener,
      toldOf_filter h.unexpected hxs hcloser]
    exact h.balance

/-- **Proper trees**: whatever a source is, every node and every condition of the tree that is read
from it is proper. -/
theorem parse_proper (source : String) :
    ∀ n ∈ Node.walk (parse source).document.children, n.Proper := by
  obtain ⟨_, _, _, -, -, hworded, hbody, -⟩ := isBody_parse source
  exact hbody.proper hworded

/-- A branch of no conditional, and behind it a conditional, which is kept. -/
theorem parse_proper_stray :
    (parse "[ELSE][#IF x #in(\"a\", \"b\")]c[END IF]").success = false ∧
      (Node.conditional (.compare "x" "in" (.texts ["a", "b"]) ⟨⟨11, 1, 12⟩, ⟨26, 1, 27⟩⟩)
        [.text "c" ⟨⟨27, 1, 28⟩, ⟨28, 1, 29⟩⟩] [] ⟨⟨6, 1, 7⟩, ⟨36, 1, 37⟩⟩).Proper := by
  refine ⟨by with_unfolding_all rfl, ?_⟩
  have hchildren : (parse "[ELSE][#IF x #in(\"a\", \"b\")]c[END IF]").document.children =
      [.conditional (.compare "x" "in" (.texts ["a", "b"]) ⟨⟨11, 1, 12⟩, ⟨26, 1, 27⟩⟩)
        [.text "c" ⟨⟨27, 1, 28⟩, ⟨28, 1, 29⟩⟩] [] ⟨⟨6, 1, 7⟩, ⟨36, 1, 37⟩⟩] := by
    with_unfolding_all rfl
  refine parse_proper "[ELSE][#IF x #in(\"a\", \"b\")]c[END IF]" _ ?_
  rw [hchildren, Node.walk_cons]
  exact List.mem_cons_self

end Stencil
