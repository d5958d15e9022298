import Stencil.Proofs.Source.Tokens
import Stencil.Proofs.Template.Bodies
import Stencil.Proofs.Template.Completeness

/-!
The language that the parser accepts: the grammar derives a source exactly when reading it finds
no fault, and the tree read is the one derived.

What is left over the two directions is the end: reading a whole document stops at the end of
the input and nowhere before, so that the derivation covers every token.
-/

namespace Stencil.Template

open Grammar

variable {α β : Type} {p : Progress}

/-! ### Reading up to the end -/

/-- The reading stops at the end of the input. -/
def Reading.Ends (r : Reading α) (p : Progress) : Prop := (r.on p).2.current.kind = .endOfInput

namespace Reading.Ends

/-- Looking at the progress without changing it. -/
lemma look {x : Reading α} {f : α → Reading β} {a : α} (hx : x.on p = (a, p))
    (h : (f a).Ends p) : (x >>= f : Reading β).Ends p := by
  unfold Reading.Ends
  rw [Reading.on_bind, hx]
  exact h

/-- Behind something that passed over a token. -/
lemma behind {D : List Token → α → Prop} {x : Reading α} {f : α → Reading β} (hx : x.Takes p D)
    (hp : p.Live)
    (hf : ∀ a (q : Progress), q.Live → q.rest.length < p.rest.length → (f a).Ends q) :
    (x >>= f : Reading β).Ends p := by
  obtain ⟨ts, ds, hne, hm, -⟩ := hx
  have hlt : (x.on p).2.rest.length < p.rest.length := by
    rw [hm.length]
    have := List.length_pos_iff.mpr hne
    omega
  exact hf _ _ (hm.live hp) hlt

end Reading.Ends

/-- A body within no block is read to the end of the input. -/
lemma nodes_ends (n : Nat) (hp : p.Live) (hn : 4 * p.rest.length + 1 ≤ n) :
    (nodes n []).Ends p := by
  induction n generalizing p with
  | zero => omega
  | succ n ih =>
    rw [nodes_succ]
    refine .look (on_current _) ?_
    split
    · rename_i hends
      change p.current.kind = .endOfInput
      simpa [endsBody] using hends
    · rename_i hends
      have hitem := item_takesPlaced n hp [] (by omega) (kind_of_endsBody_ne hends)
      exact .behind hitem hp fun _ q hq hl => ih (p := q) hq (by omega)

/-! ### Sources -/

/-- The progress of a parse at its start. -/
def Progress.atStart (tokens : List Token) : Progress :=
  ⟨tokens.headD ⟨.endOfInput, "", .origin, none⟩, tokens, []⟩

/-- What the whole source was read as, and the progress in the end. -/
def wholeOn (tokens : List Token) : List Node × Progress :=
  (nodes (4 * tokens.length + 4) []).on (.atStart tokens)

lemma children_parseTokens (tokens : List Token) :
    (parseTokens tokens).document.children = (wholeOn tokens).1 := rfl

lemma errors_parseTokens (tokens : List Token) : (parseTokens tokens).errors =
    (wholeOn tokens).2.found.reverse.mergeSort fun a b => a.start.offset ≤ b.start.offset := rfl

lemma success_parseTokens (tokens : List Token) :
    (parseTokens tokens).success = true ↔ (wholeOn tokens).2.found = [] := by
  rw [Parsed.success, errors_parseTokens, List.isEmpty_iff, ← List.length_eq_zero_iff,
    List.length_mergeSort, List.length_reverse, List.length_eq_zero_iff]

/-- An end of the input behind some tokens comes right behind those that are no such end. -/
lemma eq_of_append_end {ts us vs : List Token} {e f : Token} (hf : f.kind = .endOfInput)
    (hts : ∀ t ∈ ts, t.kind ≠ .endOfInput) (hus : ∀ t ∈ us, t.kind ≠ .endOfInput)
    (he : e.kind = .endOfInput) (h : ts ++ [e] = us ++ f :: vs) : us = ts := by
  induction ts generalizing us with
  | nil =>
    cases us with
    | nil => rfl
    | cons u us =>
      obtain ⟨rfl, -⟩ := List.cons.inj h
      exact absurd he (hus e (by simp))
  | cons t ts ih =>
    cases us with
    | nil =>
      obtain ⟨rfl, -⟩ := List.cons.inj h
      exact absurd hf (hts t (by simp))
    | cons u us =>
      obtain ⟨rfl, h'⟩ := List.cons.inj h
      rw [ih (fun v hv => hts v (by simp [hv])) (fun v hv => hus v (by simp [hv])) h']

/-- A whole document is a body of all tokens but the end of the input. -/
lemma isBody_wholeOn {ts : List Token} {e : Token} (he : e.kind = .endOfInput)
    (hts : ∀ t ∈ ts, t.kind ≠ .endOfInput) :
    IsBody ts (wholeOn (ts ++ [e])).2.found (wholeOn (ts ++ [e])).1 := by
  have hp : (Progress.atStart (ts ++ [e])).Live := ⟨e, by simp [Progress.atStart], he⟩
  have hn : 4 * (Progress.atStart (ts ++ [e])).rest.length + 1 ≤ 4 * (ts ++ [e]).length + 4 := by
    simp [Progress.atStart]
  obtain ⟨us, ds, hpass, hbody⟩ := (bodiesMeet _).nodes [] hp hn
  have hend := nodes_ends _ hp hn
  have hlive := hpass.live hp
  change Passes _ us ds (wholeOn (ts ++ [e])).2 at hpass
  change (wholeOn (ts ++ [e])).2.current.kind = .endOfInput at hend
  change (wholeOn (ts ++ [e])).2.Live at hlive
  have hfound : (wholeOn (ts ++ [e])).2.found = ds :=
    hpass.found.trans (List.append_nil ds)
  have hrest := hpass.rest
  rw [hlive.rest_eq] at hrest
  obtain rfl := eq_of_append_end hend hts hpass.inside he hrest
  rw [hfound]
  exact hbody

/-- What is read without a fault is derived, up to the end of the input. -/
lemma derives_of_success {ts : List Token} {e : Token} (he : e.kind = .endOfInput)
    (hts : ∀ t ∈ ts, t.kind ≠ .endOfInput) (h : (parseTokens (ts ++ [e])).success = true) :
    Derives (ts ++ [e]) (Node.unplacedAll (parseTokens (ts ++ [e])).document.children) := by
  have hbody := isBody_wholeOn he hts
  have hplaced := hbody.placed ((success_parseTokens _).mp h) .origin .origin
  exact .mk hplaced.unplaced he

/-- What is derived is read without a fault, as it is derived. -/
lemma success_of_derives {tokens : List Token} {ns : List Node} (h : Derives tokens ns) :
    (parseTokens tokens).success = true ∧
      Node.unplacedAll (parseTokens tokens).document.children = ns := by
  obtain ⟨hns, he⟩ := h
  rename_i ts e
  have hn : 4 * ts.length + 1 ≤ 4 * (ts ++ [e]).length + 4 := by
    simp
    omega
  obtain ⟨ns', last, hr, hns⟩ := (bodiesRead _).nodes (z := []) hns hn (.inl he)
    (Progress.atStart (ts ++ [e])).previous []
  change wholeOn (ts ++ [e]) = _ at hr
  rw [success_parseTokens, children_parseTokens, hr]
  exact ⟨rfl, hns⟩

lemma derives_of_parse {source : String} (h : (parse source).success = true) :
    Derives (tokenize source) (Node.unplacedAll (parse source).document.children) := by
  obtain ⟨ts, e, heq, he, hts, -⟩ := Source.tokenize_shape source
  unfold parse at h ⊢
  rw [heq] at h ⊢
  exact derives_of_success he hts h

/-- **Soundness and completeness**: a source is read without a fault exactly when the grammar
derives its tokens, and then the tree read is, places aside, the tree of every derivation. -/
theorem parse_iff_derives (source : String) :
    ((parse source).success = true ↔ ∃ ns, Derives (tokenize source) ns) ∧
      ∀ ns, Derives (tokenize source) ns → (parse source).document.unplaced.children = ns := by
  refine ⟨⟨fun h => ⟨_, derives_of_parse h⟩, ?_⟩, fun ns h => (success_of_derives h).2⟩
  rintro ⟨ns, h⟩
  exact (success_of_derives h).1

end Stencil.Template
