import Mathlib.Tactic.Common
import Stencil.Proofs.Source.Boundary
import Stencil.Proofs.Template.Closing
import Stencil.Proofs.Template.Reports

/-!
Two sources one behind the other: where the first is read without a fault and does not end with
plain text, the second is read as if it stood alone, valid or not, and nothing of either changes
but the places of the second.

The tokens of the first are those it has alone, and what is behind them are the moved tokens of
the second. Without a fault each item of the first ends with its own tokens, so that reading
comes to the second with no block open; and there it forgets what it has read before.
-/

namespace Stencil

namespace Template

open Source

variable {α β : Type} {p : Progress}

/-! ### What was read before -/

/-- The reading is the same whatever token was read last. -/
def Reading.Forgets (r : Reading α) (p : Progress) : Prop :=
  ∀ t, r.on { p with previous := t } = r.on p

lemma Progress.Live.current_with (hp : p.Live) (t : Token) :
    ({ p with previous := t } : Progress).current = p.current := by
  obtain ⟨e, he, -⟩ := hp
  unfold Progress.current
  cases hrest : p.rest with
  | nil => rw [hrest] at he; cases he
  | cons u us => rfl

namespace Reading.Forgets

lemma bind {x : Reading α} {f : α → Reading β} (hx : x.Forgets p) :
    (x >>= f : Reading β).Forgets p := by
  intro t
  rw [Reading.on_bind, Reading.on_bind, hx t]

/-- Looking at the next token. -/
lemma look {f : Token → Reading α} (hp : p.Live) (h : (f p.current).Forgets p) :
    (current >>= f : Reading α).Forgets p := by
  intro t
  rw [Reading.on_bind, on_current, hp.current_with t]
  exact h t

lemma recorded {problem : Problem} {start : Position} {f : Unit → Reading α}
    (h : (f ()).Forgets (p.record problem start)) : (record problem start >>= f).Forgets p := h

/-- A token that is not the end is the one read last behind it. -/
lemma advance (hp : p.Live) (hk : p.current.kind ≠ .endOfInput) :
    Template.advance.Forgets p := by
  intro t
  have hcurrent := hp.current_with t
  have hrest := hp.rest_eq
  rw [on_advance, on_advance, hcurrent, Progress.advance_of_rest hrest hk,
    Progress.advance_of_rest (p := { p with previous := t }) hrest hk]

lemma skipDirective (hp : p.Live) (hk : p.current.kind ≠ .endOfInput) :
    Template.skipDirective.Forgets p :=
  (advance hp hk).bind

end Reading.Forgets

/-- Every item begins with a token that is passed over. -/
lemma item_forgets (n : Nat) (open_ : List Block) (hp : p.Live)
    (hk : p.current.kind ≠ .endOfInput) : (item (n + 2) open_ p.current).Forgets p := by
  have first := Reading.Forgets.advance hp hk
  have hif : (ifBlock (n + 2) open_).Forgets p := by
    have hbranch : (branch (n + 1) open_).Forgets p := first.bind
    exact .look hp hbranch.bind
  unfold item
  cases p.current.kind
  case text => exact first.bind
  case slotOpen => exact first.bind
  case operator => exact first.bind
  case error => exact first.bind
  case directive =>
    dsimp only
    split
    · exact .recorded (.bind (.skipDirective (p := p.record _ _) hp hk))
    split
    · exact hif
    split
    · exact first.bind
    split
    · exact first.bind
    · exact .recorded (.bind (.skipDirective (p := p.record _ _) hp hk))
  all_goals exact .recorded (.bind (.advance (p := p.record _ _) hp hk))

/-- A body comes to the same whatever token was read last. -/
lemma nodes_forgets (n : Nat) (open_ : List Block) (hp : p.Live) (t : Token) :
    ((nodes (n + 3) open_).on { p with previous := t }).1 = ((nodes (n + 3) open_).on p).1 ∧
      ((nodes (n + 3) open_).on { p with previous := t }).2.found =
        ((nodes (n + 3) open_).on p).2.found := by
  have hcurrent := hp.current_with t
  by_cases hends : endsBody open_ p.current = true
  · rw [on_nodes_of_ends hends, on_nodes_of_ends (hcurrent ▸ hends)]
    exact ⟨rfl, rfl⟩
  · rw [on_nodes_of_item hends, on_nodes_of_item (hcurrent ▸ hends), hcurrent,
      item_forgets n open_ hp (kind_of_endsBody_ne hends) t]
    exact ⟨rfl, rfl⟩

/-! ### Moved tokens -/

/-- A list of tokens with an end of the input is read as it is from the start, whatever was
read before, with any fuel that suffices. -/
lemma nodes_wholeOn {us : List Token} (hus : ∃ t ∈ us, t.kind = .endOfInput) (last : Token)
    {k : Nat} (hk : 4 * us.length + 1 ≤ k) :
    ((nodes k []).on ⟨last, us, []⟩).1 = (wholeOn us).1 ∧
      ((nodes k []).on ⟨last, us, []⟩).2.found = (wholeOn us).2.found := by
  have hp : Progress.Live ⟨last, us, []⟩ := hus
  rw [nodes_congr [] hp hk (m := 4 * us.length + 4) (Nat.add_le_add_left (by decide) _)]
  exact nodes_forgets (4 * us.length + 1) [] (p := .atStart us) hus last

lemma wholeOn_shift {us : List Token} (hus : ∃ t ∈ us, t.kind = .endOfInput) (q : Position) :
    (wholeOn (us.map (·.shift q))).1 = Node.shiftAll q (wholeOn us).1 ∧
      (wholeOn (us.map (·.shift q))).2.found = (wholeOn us).2.found.map (·.shift q) := by
  have hmoved : ∃ t ∈ us.map (·.shift q), t.kind = .endOfInput := by
    obtain ⟨t, ht, hk⟩ := hus
    exact ⟨_, List.mem_map_of_mem ht, hk⟩
  let S : Setting := ⟨q, [], []⟩
  let start : Progress := .atStart us
  obtain ⟨ts, ds, k, hs, hk⟩ := (bodiesMirror S (4 * us.length + 4)).nodes [] start hus
  have hlength : k ≤ us.length := by
    have hmoves : us.length = ts.length + _ := hs.moves.length
    have hrest := congrArg List.length (hs.moves.live hus).rest_eq
    rw [List.length_cons] at hrest
    omega
  have ha : Alike S us start ⟨start.previous.shift q, us.map (·.shift q), []⟩ :=
    ⟨rfl, (List.append_nil us).symm, (List.append_nil _).symm, rfl, hmoved⟩
  obtain ⟨hres, vs, -, hq⟩ := hs.alike us _ ha hlength
  obtain ⟨hchildren, hfound⟩ := nodes_wholeOn hmoved (start.previous.shift q)
    (k := 4 * us.length + 4) (by rw [List.length_map]; omega)
  rw [← hchildren, ← hfound]
  exact ⟨hres, hq.found⟩

/-! ### From one source to the next -/

/-- What a piece of reading and one behind it find is nothing, so that neither finds anything. -/
lemma clean_of_moves {q r : Progress} {ts us : List Token} {ds es : List Diagnostic}
    (h : Moves p ts ds q) (k : Moves q us es r) (hr : r.found = p.found) : ds = [] ∧ es = [] :=
  (List.append_eq_nil_iff.mp ((h.trans k).clean_iff.mpr hr)).symm

/-- An item that is read without a fault, as is what stands behind it, is read as the same with
other tokens in the place of the end, and is left behind in both. -/
lemma item_continue {S : Setting} {e : Token} (he : e.kind = .endOfInput) (hS : S.tail = [e])
    (n : Nat) {us : List Token} {p' : Progress} (ha : Alike S us p p')
    (hk : p.current.kind ≠ .endOfInput) (hclean : ((nodes (n + 2) []).on p).2.found = p.found) :
    let r := (item (n + 1) [] p.current).on p
    let r' := (item (n + 1) [] (p.current.shift S.place)).on p'
    r'.1 = r.1.map (·.shift S.place) ∧ r'.2.found = p'.found ∧
      ((nodes (n + 1) []).on r.2).2.found = r.2.found ∧
      ∃ ts vs, ts ≠ [] ∧ us = ts ++ vs ∧ Alike S vs r.2 r'.2 := by
  have hp : p.Live := ⟨e, by rw [ha.rest, hS]; simp, he⟩
  obtain ⟨ts, ds, k, hs, -, hcloses⟩ := item_closes (S := S) n [] hp hk
  have hq := hs.moves.live hp
  obtain ⟨_, es, _, hrest, -⟩ := (bodiesMirror S (n + 1)).nodes [] _ hq
  rw [on_nodes_of_item (by simp [endsBody, hk])] at hclean
  obtain ⟨hds, hes⟩ := clean_of_moves hs.moves hrest.moves hclean
  obtain ⟨hne, hle⟩ := hcloses hds
  have hlength : ts.length ≤ us.length := by
    have hmoves := hs.moves.length
    rw [hq.rest_eq, ha.rest, hS] at hmoves
    simp only [List.length_append, List.length_cons, List.length_nil] at hmoves
    omega
  obtain ⟨hres, vs, hvs, hq'⟩ := hs.alike us p' ha (hle.trans hlength)
  refine ⟨hres, ?_, hrest.moves.clean_iff.mp hes, ts, vs, hne, hvs, hq'⟩
  rw [hq'.found, ha.found, hs.moves.clean_iff.mp hds]

/-- **Reading goes on**: with other tokens in the place of the end, what was read without a fault
up to there is read as before, and then what these tokens are. -/
lemma nodes_continue {S : Setting} {e : Token} (he : e.kind = .endOfInput) (hS : S.tail = [e])
    (n : Nat) {us : List Token} {p' : Progress} (ha : Alike S us p p')
    (hus : ∀ t ∈ us, t.kind ≠ .endOfInput) (hn : 4 * (us.length + S.tail'.length) + 1 ≤ n)
    (hclean : ((nodes n []).on p).2.found = p.found) :
    ∃ last k, 4 * S.tail'.length + 1 ≤ k ∧ (nodes n []).on p' =
      (Node.shiftAll S.place ((nodes n []).on p).1 ++
        ((nodes k []).on ⟨last, S.tail', p'.found⟩).1,
        ((nodes k []).on ⟨last, S.tail', p'.found⟩).2) := by
  induction n generalizing p p' us with
  | zero => omega
  | succ n ih =>
    rcases us with _ | ⟨u, us⟩
    · -- the end of the first list
      have hends : endsBody [] p.current = true := by
        rw [Progress.current, ha.rest, hS]
        simp [endsBody, he]
      have hrest : p' = ⟨p'.previous, S.tail', p'.found⟩ := by
        have := ha.rest'
        rw [List.map_nil, List.nil_append] at this
        rw [← this]
      refine ⟨p'.previous, n + 1, by simpa using hn, ?_⟩
      rw [on_nodes_of_ends hends, ← hrest]
      rfl
    · have hcurrent : p.current = u := by rw [Progress.current, ha.rest]; rfl
      have hcurrent' := ha.current (Nat.le_add_left 1 us.length)
      have hk : p.current.kind ≠ .endOfInput := hcurrent ▸ hus u (List.mem_cons_self ..)
      have step {q : Progress} (hq : q.current.kind ≠ .endOfInput) :=
        on_nodes_of_item (show endsBody [] q.current ≠ true by simp [endsBody, hq]) n
      obtain ⟨m, rfl⟩ : ∃ m, n = m + 1 := ⟨n - 1, by simp at hn; omega⟩
      obtain ⟨hres, hfound, hclean', ts, vs, hne, hvs, hq⟩ := item_continue he hS m ha hk hclean
      have hshorter : vs.length < (u :: us).length := by
        rw [hvs, List.length_append]
        have := List.length_pos_iff.mpr hne
        omega
      obtain ⟨last, k, hk', hih⟩ := ih hq
        (fun t ht => hus t (hvs ▸ List.mem_append_right ts ht)) (by omega) hclean'
      rw [hfound] at hih
      refine ⟨last, k, hk', ?_⟩
      have hnode (o : Option Node) (ns : List Node) : (o.map (·.shift S.place)).toList ++
          Node.shiftAll S.place ns = Node.shiftAll S.place (o.toList ++ ns) := by
        cases o <;> rfl
      rw [step hk, step (by rw [hcurrent']; exact hk), hcurrent', hres, hih, ← hnode,
        List.append_assoc]

/-- Tokens without a fault up to their end, and others in the place of the end. -/
lemma wholeOn_append {ts zs : List Token} {e : Token} (he : e.kind = .endOfInput)
    (hts : ∀ t ∈ ts, t.kind ≠ .endOfInput) (hzs : ∃ t ∈ zs, t.kind = .endOfInput)
    (hclean : (wholeOn (ts ++ [e])).2.found = []) :
    (wholeOn (ts ++ zs)).1 = (wholeOn (ts ++ [e])).1 ++ (wholeOn zs).1 ∧
      (wholeOn (ts ++ zs)).2.found = (wholeOn zs).2.found := by
  let S : Setting := ⟨.origin, [e], zs⟩
  let start : Progress := .atStart (ts ++ zs)
  have hlive : start.Live := by
    obtain ⟨t, ht, hk⟩ := hzs
    exact ⟨t, List.mem_append_right ts ht, hk⟩
  have hsame : ts.map (·.shift .origin) = ts := by
    rw [List.map_congr_left fun t _ => Token.origin_shift t, List.map_id']
  have ha : Alike S ts ⟨start.previous, ts ++ [e], []⟩ start :=
    ⟨(Token.origin_shift _).symm, rfl, congrArg (· ++ zs) hsame.symm, rfl, hlive⟩
  have hpos : 1 ≤ zs.length := by
    obtain ⟨t, ht, -⟩ := hzs
    exact List.length_pos_of_mem ht
  have hend : ∃ t ∈ ts ++ [e], t.kind = .endOfInput := ⟨e, by simp, he⟩
  obtain ⟨hfirst, hfound⟩ := nodes_wholeOn hend start.previous (k := 4 * (ts ++ zs).length + 4)
    (by simp only [List.length_append, List.length_singleton]; omega)
  obtain ⟨last, k, hk, hwhole⟩ := nodes_continue he rfl _ ha hts
    (show 4 * (ts.length + zs.length) + 1 ≤ _ by rw [List.length_append]; omega)
    (hfound.trans hclean)
  obtain ⟨hrest, hrest'⟩ := nodes_wholeOn hzs last hk
  change wholeOn (ts ++ zs) = _ at hwhole
  rw [hwhole, ← hfirst, ← hrest, ← hrest', Node.origin_shiftAll]
  exact ⟨rfl, rfl⟩

/-! ### Sources -/

/-- Moved faults come in the same order. -/
lemma errors_of_shift {tokens us : List Token} {q : Position}
    (h : (wholeOn us).2.found = (wholeOn tokens).2.found.map (·.shift q)) :
    (parseTokens us).errors = (parseTokens tokens).errors.map (·.shift q) := by
  rw [errors_parseTokens, errors_parseTokens, h, ← List.map_reverse]
  refine (List.map_mergeSort fun a _ b _ => ?_).symm
  simp only [Diagnostic.shift, Position.shift, Nat.add_le_add_iff_left]

end Template

open Template Source

/-- **Two sources one behind the other**, the first without a fault and not ending with plain text:
the nodes of both, and the faults of the second, moved. -/
theorem parse_append (s₁ s₂ : String) (h : (parse s₁).success = true)
    (hlast : ∀ t ∈ (tokenize s₁).dropLast.getLast?, t.kind ≠ .text) :
    (parse (s₁ ++ s₂)).document.children = (parse s₁).document.children ++
        (parse s₂).document.children.map (Node.shift (Position.origin.advance s₁.toList)) ∧
      (parse (s₁ ++ s₂)).errors =
        (parse s₂).errors.map (Diagnostic.shift (Position.origin.advance s₁.toList)) := by
  have htokens := tokenize_append (clean_of_success h) hlast s₂
  obtain ⟨ts, e, hfirst, he, hts, -⟩ := tokenize_shape s₁
  obtain ⟨us, f, hsecond, hf, -⟩ := tokenize_shape s₂
  have hmem : f ∈ tokenize s₂ := by simp [hsecond]
  unfold parse at h ⊢
  rw [hfirst] at h htokens ⊢
  rw [List.dropLast_concat] at htokens
  obtain ⟨hchildren, hfound⟩ := wholeOn_append he hts
    ⟨f.shift _, List.mem_map_of_mem hmem, hf⟩ ((success_parseTokens _).mp h)
  obtain ⟨hmoved, hmoved'⟩ := wholeOn_shift ⟨f, hmem, hf⟩ (Position.origin.advance s₁.toList)
  rw [htokens]
  refine ⟨?_, errors_of_shift (hfound.trans hmoved')⟩
  rw [children_parseTokens, children_parseTokens, children_parseTokens, hchildren, hmoved,
    Node.shiftAll_eq_map]

/-- A slot, and behind it text and a directive that is never closed. -/
theorem parse_append_unclosed :
    (parse "\x7b\x7ba\x7d\x7d").success = true ∧
      (∀ t ∈ (tokenize "\x7b\x7ba\x7d\x7d").dropLast.getLast?, t.kind ≠ .text) ∧
      (parse ("\x7b\x7ba\x7d\x7d" ++ "x[#IF a]")).document.children =
        [.slot "a" none none ⟨⟨0, 1, 1⟩, ⟨5, 1, 6⟩⟩, .text "x" ⟨⟨5, 1, 6⟩, ⟨6, 1, 7⟩⟩] ∧
      (parse ("\x7b\x7ba\x7d\x7d" ++ "x[#IF a]")).errors =
        [⟨.emptyBody "[#IF]", ⟨6, 1, 7⟩⟩, ⟨.unclosed .conditional, ⟨6, 1, 7⟩⟩] := by
  have h : (parse "\x7b\x7ba\x7d\x7d").success = true := by with_unfolding_all rfl
  have hlast : ∀ t ∈ (tokenize "\x7b\x7ba\x7d\x7d").dropLast.getLast?, t.kind ≠ .text := by
    decide +kernel
  obtain ⟨hchildren, herrors⟩ := parse_append "\x7b\x7ba\x7d\x7d" "x[#IF a]" h hlast
  refine ⟨h, hlast, hchildren.trans ?_, herrors.trans ?_⟩
  · with_unfolding_all rfl
  · have hfound : (wholeOn (tokenize "x[#IF a]")).2.found =
        [⟨.unclosed .conditional, ⟨1, 1, 2⟩⟩, ⟨.emptyBody "[#IF]", ⟨1, 1, 2⟩⟩] := by
      with_unfolding_all rfl
    rw [parse, errors_parseTokens, hfound, List.mergeSort_of_pairwise (by simp)]
    rfl

end Stencil
