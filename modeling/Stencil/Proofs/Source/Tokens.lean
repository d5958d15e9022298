import Mathlib.Data.List.Chain
import Mathlib.Tactic.Common
import Stencil.Source.Tokens

/-!
What the tokens of a source are like.

Every step of the scanning machine is lawful: it finds at least one token and no end of the
input, takes a character for every directive, and names what it reads in a slot by a key.
A scan is then a list of lawful tokens, closed by the end of the input.
-/

namespace Stencil.Source

/-- The text starts as the first key of a variable path does. -/
def IsName (s : String) : Prop := ∃ c cs, s.toList = c :: cs ∧ (isNameStart c || c == '@') = true

/-- What a mode reports if it is never closed are errors. -/
def Mode.Faulty : Mode → Prop
  | .text => True
  | .directive t => t.kind = .error
  | .slot t i | .quoted t i => t.kind = .error ∧ ∀ u ∈ i, u.kind = .error

def Mode.isSlot : Mode → Bool
  | .slot .. => true
  | _ => false

lemma Mode.faulty_around {i : Option Token} (h : ∀ u ∈ i, u.kind = .error) :
    (Mode.around i).Faulty := by
  cases i with
  | none => trivial
  | some t => exact h t rfl

/-- What a step from `mode`, with `n` characters before it, may find and leave. -/
structure Step.Lawful (mode : Mode) (n : Nat) (s : Step) : Prop where
  faulty : s.mode.Faulty
  found : s.tokens ≠ []
  inside : ∀ t ∈ s.tokens, t.kind ≠ .endOfInput
  directives : s.tokens.countP (·.kind == .directive) + s.cursor.rest.length ≤ n
  named : mode.isSlot = true → ∀ t ∈ s.tokens, t.kind = .identifier → IsName t.text
  opens : ∀ t ∈ s.tokens, t.kind = .slotOpen → s.tokens = [t] ∧ s.mode.isSlot = true

/-- A token of none of the kinds that a step has to answer for. -/
def Plain (t : Token) : Prop :=
  t.kind ≠ .endOfInput ∧ t.kind ≠ .directive ∧ t.kind ≠ .identifier ∧ t.kind ≠ .slotOpen

/-! ### Lawful steps -/

variable {m mode : Mode} {c : Cursor} {n : Nat}

lemma Cursor.length_after_le (c : Cursor) (w : List Char) :
    (c.after w).rest.length ≤ c.rest.length := by
  rw [Cursor.length_after]
  omega

lemma lawful_of_plain {s : Step} (hf : s.mode.Faulty) (hne : s.tokens ≠ [])
    (ht : ∀ t ∈ s.tokens, Plain t) (hl : s.cursor.rest.length ≤ n) : s.Lawful m n where
  faulty := hf
  found := hne
  inside t h := (ht t h).1
  directives := by
    have : s.tokens.countP (·.kind == .directive) = 0 :=
      List.countP_eq_zero.mpr fun t h => by simpa using (ht t h).2.1
    omega
  named _ t h hk := absurd hk (ht t h).2.2.1
  opens t h hk := absurd hk (ht t h).2.2.2

lemma lawful_one_plain {kind : TokenKind} {w : List Char} {value : Option (List Char)}
    (hf : mode.Faulty) (hk : Plain (c.token kind w value)) :
    (Step.one c mode kind w value).Lawful m c.rest.length :=
  lawful_of_plain hf (List.cons_ne_nil _ _) (by simpa [Step.one] using hk)
    (Cursor.length_after_le _ _)

lemma lawful_stay {error : Token} (hf : mode.Faulty) (he : error.kind = .error) :
    (Step.stay c mode error).Lawful m c.rest.length :=
  lawful_of_plain hf (List.cons_ne_nil _ _) (by simp [Step.stay, Plain, he]) (Nat.le_refl _)

lemma lawful_reject {ch : Char} {message : String} (hf : mode.Faulty) :
    (Step.reject c mode ch message).Lawful m c.rest.length :=
  lawful_of_plain hf (List.cons_ne_nil _ _) (by simp [Step.reject, Plain, Cursor.fault])
    (Cursor.length_after_le _ _)

/-- An identifier in a slot is a name; elsewhere it may be any word. -/
lemma lawful_identifier {w : List Char} (hf : mode.Faulty)
    (hn : m.isSlot = true → IsName (String.ofList w)) :
    (Step.one c mode .identifier w (some w)).Lawful m c.rest.length where
  faulty := hf
  found := List.cons_ne_nil _ _
  inside t h := by
    obtain rfl : t = _ := by simpa [Step.one] using h
    simp [Cursor.token]
  directives := by
    have := c.length_after_le w
    simpa [Step.one, Cursor.token]
  named hm t h _ := by
    obtain rfl : t = _ := by simpa [Step.one] using h
    exact hn hm
  opens t h hk := by
    obtain rfl : t = _ := by simpa [Step.one] using h
    simp [Cursor.token] at hk

lemma lawful_slotOpen {w : List Char} (hf : mode.Faulty) (hm : mode.isSlot = true) :
    (Step.one c mode .slotOpen w).Lawful m c.rest.length where
  faulty := hf
  found := List.cons_ne_nil _ _
  inside t h := by
    obtain rfl : t = _ := by simpa [Step.one] using h
    simp [Cursor.token]
  directives := by
    have := c.length_after_le w
    simpa [Step.one, Cursor.token]
  named _ t h hk := by
    obtain rfl : t = _ := by simpa [Step.one] using h
    simp [Cursor.token] at hk
  opens t h _ := by
    obtain rfl : t = _ := by simpa [Step.one] using h
    exact ⟨rfl, hm⟩

/-- A directive pays with a character of its own. -/
lemma lawful_directive {w : List Char} {value : Option (List Char)} (hf : mode.Faulty)
    (hc : 0 < c.rest.length) (hw : 0 < w.length) :
    (Step.one c mode .directive w value).Lawful m c.rest.length where
  faulty := hf
  found := List.cons_ne_nil _ _
  inside t h := by
    obtain rfl : t = _ := by simpa [Step.one] using h
    simp [Cursor.token]
  directives := by
    have := c.length_after w
    simp only [Step.one, Cursor.token, List.countP_singleton, beq_self_eq_true, if_pos]
    omega
  named _ t h hk := by
    obtain rfl : t = _ := by simpa [Step.one] using h
    simp [Cursor.token] at hk
  opens t h hk := by
    obtain rfl : t = _ := by simpa [Step.one] using h
    simp [Cursor.token] at hk

lemma isName_of_identifier? {cs w : List Char} (h : identifier? cs = some w) :
    IsName (String.ofList w) := by
  unfold identifier? at h
  split at h
  · split at h
    · rename_i c cs hc
      obtain rfl := Option.some.inj h
      exact ⟨c, _, String.toList_ofList, hc⟩
    · simp at h
  · simp at h

lemma lawful_literalStep {onError : Mode} {q : Char} {cs : List Char} (hf : mode.Faulty)
    (he : onError.Faulty) : (literalStep c mode onError q cs).Lawful m c.rest.length := by
  unfold literalStep
  dsimp only
  split
  · exact lawful_one_plain hf (by simp [Plain, Cursor.token])
  · exact lawful_of_plain he (List.cons_ne_nil _ _) (by simp [Plain, Cursor.fault])
      (Cursor.length_after_le _ _)

lemma lawful_argumentStep {before : List Token} {paren : Cursor} {i : Option Token}
    (hi : ∀ u ∈ i, u.kind = .error) (hne : before ≠ []) (hb : ∀ t ∈ before, Plain t) :
    (argumentStep before paren i).Lawful m paren.rest.length := by
  have h1 := paren.length_after_le ['(']
  have h2 := (paren.after ['(']).length_skipBlanks_le
  have hq : (Mode.quoted (unclosedArguments paren) i).Faulty := ⟨rfl, hi⟩
  unfold argumentStep
  dsimp only
  split
  · exact lawful_of_plain hq hne hb (by dsimp only; omega)
  · exact lawful_of_plain hq hne hb (by dsimp only; omega)
  · split
    · refine lawful_of_plain (Mode.faulty_around hi) (by simp [hne]) ?_ ?_
      · intro t ht
        simp only [List.mem_append, List.mem_singleton] at ht
        rcases ht with (ht | ht) | rfl
        · exact hb t ht
        · split at ht
          · simp at ht
          · obtain rfl : t = _ := by simpa using ht
            simp [Plain, Cursor.token]
        · simp [Plain, Cursor.token]
      · simp only [Cursor.length_after] at *
        omega
    · refine lawful_of_plain (Mode.faulty_around hi) (by simp [hne]) ?_ ?_
      · intro t ht
        rcases List.mem_append.mp ht with ht | ht
        · exact hb t ht
        · obtain rfl : t = _ := by simpa using ht
          simp [Plain, unclosedArguments, Cursor.fault]
      · simp only [Cursor.length_after] at *
        omega

/-- An argument without quotes that is closed. -/
lemma argumentStep_raw {before : List Token} {paren c : Cursor} {w cs : List Char}
    (hc : (paren.after ['(']).skipBlanks = c) (hquote : ∀ d ∈ c.rest.head?, d ≠ '"' ∧ d ≠ '\'')
    (hw : rawArgument 0 c.rest = w) (hclose : (c.after w).rest = ')' :: cs) (i : Option Token) :
    argumentStep before paren i =
      ⟨before ++ (if (Text.trimBlanks w).isEmpty then []
          else [c.token .argument w (some (Text.trimBlanks w))]) ++
          [(c.after w).token .rightParen [')']],
        .around i, (c.after w).after [')']⟩ := by
  unfold argumentStep
  simp only [hc, hw, hclose]
  split
  · rename_i heq
    exact absurd rfl (hquote '"' (by rw [heq]; rfl)).1
  · rename_i heq
    exact absurd rfl (hquote '\'' (by rw [heq]; rfl)).2
  · rfl

lemma lawful_operatorStep {i : Option Token} {w : List Char} (hi : ∀ u ∈ i, u.kind = .error) :
    (operatorStep c i w).Lawful m c.rest.length := by
  unfold operatorStep
  dsimp only
  split
  · have h := c.length_after_le w
    obtain ⟨h1, h2, h3, h4, h5, h6⟩ : (argumentStep [c.token .operator w (some (w.drop 1)),
        (c.after w).token .leftParen ['(']] (c.after w) i).Lawful m (c.after w).rest.length :=
      lawful_argumentStep hi (List.cons_ne_nil _ _) (by simp [Plain, Cursor.token])
    exact ⟨h1, h2, h3, by omega, h5, h6⟩
  · exact lawful_of_plain (Mode.faulty_around hi) (List.cons_ne_nil _ _)
      (by simp [Plain, Cursor.token]) (Cursor.length_after_le _ _)

lemma lawful_textStep (hc : c.rest ≠ []) : (textStep c).Lawful .text c.rest.length := by
  have h0 : 0 < c.rest.length := List.length_pos_iff.mpr hc
  have hf : (Mode.directive (unclosedDirective c)).Faulty := rfl
  unfold textStep
  split
  · exact lawful_one_plain trivial (by simp [Plain, Cursor.token])
  · exact lawful_slotOpen ⟨rfl, by simp⟩ rfl
  · rename_i hopen
    exact lawful_directive hf h0 (directiveHead_length (beginsDirective_of_opening? hopen))
  · exact lawful_directive hf h0 (by decide)
  · rename_i hopen
    exact lawful_directive trivial h0 (closer_length_of_opening? hopen)
  · exact lawful_operatorStep (by simp)

lemma lawful_slotStep {t : Token} {i : Option Token} (hf : (Mode.slot t i).Faulty) :
    (slotStep t i c).Lawful (.slot t i) c.rest.length := by
  unfold slotStep
  dsimp only
  have ha := Mode.faulty_around hf.2
  split
  · exact lawful_stay ha hf.1
  split
  · exact lawful_one_plain ha (by simp [Plain, Cursor.token])
  split
  · exact lawful_stay ha hf.1
  split
  · exact lawful_one_plain hf (by simp [Plain, Cursor.token])
  split
  · exact lawful_one_plain hf (by simp [Plain, Cursor.token])
  split
  · exact lawful_literalStep hf hf
  split
  · exact lawful_one_plain hf (by simp [Plain, Cursor.token])
  split
  · exact lawful_identifier hf fun _ => isName_of_identifier? (by assumption)
  · exact lawful_reject hf

lemma plain_of_mark? {ch : Char} {kind : TokenKind} {w : List Char} (h : mark? ch = some kind) :
    Plain (c.token kind w) := by
  unfold mark? at h
  split at h <;> cases h <;> simp [Plain, Cursor.token]

lemma lawful_directiveStep {t : Token} (ht : t.kind = .error) :
    (directiveStep t c).Lawful (.directive t) c.rest.length := by
  have hf : (Mode.directive t).Faulty := ht
  unfold directiveStep
  dsimp only
  split
  · exact lawful_stay trivial ht
  split
  · exact lawful_stay trivial ht
  split
  · exact lawful_one_plain trivial (by simp [Plain, Cursor.token])
  split
  · exact lawful_slotOpen ⟨rfl, by simpa using ht⟩ rfl
  split
  · split
    · exact lawful_operatorStep (by simpa using ht)
    · exact lawful_reject hf
  split
  · exact lawful_one_plain hf (plain_of_mark? (by assumption))
  split
  · exact lawful_literalStep hf hf
  split
  · exact lawful_one_plain hf (by simp [Plain, Cursor.token])
  split
  · exact lawful_identifier hf (by simp [Mode.isSlot])
  split
  · exact lawful_identifier hf (by simp [Mode.isSlot])
  · exact lawful_reject hf

lemma lawful_quotedStep {t : Token} {i : Option Token} (hf : (Mode.quoted t i).Faulty) :
    (quotedStep t i c).Lawful (.quoted t i) c.rest.length := by
  unfold quotedStep
  dsimp only
  have ha := Mode.faulty_around hf.2
  split
  · exact lawful_stay ha hf.1
  split
  · exact lawful_one_plain ha (by simp [Plain, Cursor.token])
  split
  · exact lawful_one_plain hf (by simp [Plain, Cursor.token])
  split
  · exact lawful_literalStep hf ha
  · exact lawful_stay ha hf.1

lemma Step.Lawful.mono {s : Step} {k : Nat} (h : s.Lawful m n) (hn : n ≤ k) : s.Lawful m k :=
  ⟨h.faulty, h.found, h.inside, Nat.le_trans h.directives hn, h.named, h.opens⟩

/-- Every step of the machine is lawful. -/
lemma lawful_step (hm : mode.Faulty) (h : finished mode c = false) :
    (step mode c).Lawful mode c.rest.length := by
  have hb := c.length_skipBlanks_le
  cases mode with
  | text => exact lawful_textStep (by simpa [finished] using h)
  | directive t => exact (lawful_directiveStep hm).mono hb
  | slot t i => exact (lawful_slotStep hm).mono hb
  | quoted t i => exact (lawful_quotedStep hm).mono hb

/-! ### Lawful scans -/

/-- What stands first in a slot, if it is an identifier, is a name. -/
def NamesSlot (a b : Token) : Prop := a.kind = .slotOpen → b.kind = .identifier → IsName b.text

lemma scan_finished (h : finished mode c = true) :
    scan mode c = [⟨.endOfInput, "", c.pos, none⟩] := by
  rw [scan, dif_pos h]

lemma scan_unfinished (h : finished mode c = false) :
    scan mode c = (step mode c).tokens ++ scan (step mode c).mode (step mode c).cursor := by
  rw [scan, dif_neg (by simp [h])]

/-- A step that finds one token. -/
lemma scan_step {mode' : Mode} {c' : Cursor} {t : Token} (hf : finished mode c = false)
    (h : step mode c = ⟨[t], mode', c'⟩) : scan mode c = t :: scan mode' c' := by
  rw [scan_unfinished hf, h, List.singleton_append]

/-- A scan ends with the end of the input, which is nowhere else, and has no more directives
than characters. -/
lemma scan_shape (mode : Mode) (c : Cursor) (hm : mode.Faulty) :
    ∃ ts e, scan mode c = ts ++ [e] ∧ e.kind = .endOfInput ∧ (∀ t ∈ ts, t.kind ≠ .endOfInput) ∧
      ts.countP (·.kind == .directive) ≤ c.rest.length := by
  induction mode, c using scan.induct with
  | case1 mode c h => exact ⟨[], _, scan_finished h, rfl, by simp, by simp⟩
  | case2 mode c h s ih =>
    have h : finished mode c = false := by simpa using h
    have hs : s.Lawful mode c.rest.length := lawful_step hm h
    obtain ⟨ts, e, heq, he, hts, hcount⟩ := ih hs.faulty
    refine ⟨s.tokens ++ ts, e, ?_, he, fun t ht => ?_, ?_⟩
    · rw [scan_unfinished h, List.append_assoc, ← heq]
    · rcases List.mem_append.mp ht with ht | ht
      · exact hs.inside t ht
      · exact hts t ht
    · have := hs.directives
      rw [List.countP_append]
      omega

/-- In a scan names stand first in slots, also in the slot that the scan starts in. -/
lemma scan_namesSlot (mode : Mode) (c : Cursor) (hm : mode.Faulty) :
    (scan mode c).IsChain NamesSlot ∧
      (mode.isSlot = true → ∀ t ∈ (scan mode c).head?, t.kind = .identifier → IsName t.text) := by
  induction mode, c using scan.induct with
  | case1 mode c h => simp [scan_finished h]
  | case2 mode c h s ih =>
    have h : finished mode c = false := by simpa using h
    have hs : s.Lawful mode c.rest.length := lawful_step hm h
    obtain ⟨hchain, hhead⟩ := ih hs.faulty
    rw [scan_unfinished h]
    have hinner : s.tokens.IsChain NamesSlot := by
      -- an opening brace is the only token of its step
      by_cases ho : ∃ t ∈ s.tokens, t.kind = .slotOpen
      · obtain ⟨t, ht, hk⟩ := ho
        rw [(hs.opens t ht hk).1]
        exact .singleton t
      · exact List.Pairwise.isChain (List.pairwise_of_forall_mem_list
          fun a ha b _ hk => absurd ⟨a, ha, hk⟩ ho)
    refine ⟨hinner.append hchain fun a ha b hb hk => ?_, fun hslot t ht => ?_⟩
    · exact hhead (hs.opens a (List.mem_of_mem_getLast? ha) hk).2 b hb
    · obtain ⟨u, us, hu⟩ := List.exists_cons_of_ne_nil hs.found
      obtain rfl : u = t := by
        change t ∈ (s.tokens ++ scan s.mode s.cursor).head? at ht
        simpa [hu] using ht
      exact hs.named hslot u (by simp [hu])

/-- The tokens of a source: a body without an end, and the end of the input. -/
theorem tokenize_shape (source : String) : ∃ ts e, tokenize source = ts ++ [e] ∧
    e.kind = .endOfInput ∧ (∀ t ∈ ts, t.kind ≠ .endOfInput) ∧
    ts.countP (·.kind == .directive) ≤ source.length := by
  obtain ⟨ts, e, h⟩ := scan_shape .text ⟨.origin, source.toList⟩ trivial
  exact ⟨ts, e, by simpa [tokenize, String.length_toList] using h⟩

theorem tokenize_namesSlot (source : String) : (tokenize source).IsChain NamesSlot :=
  (scan_namesSlot .text _ trivial).1

/-- There are no more directives than characters. -/
lemma countP_directive_tokenize (source : String) :
    (tokenize source).countP (·.kind == .directive) ≤ source.length := by
  obtain ⟨ts, e, heq, he, -, hcount⟩ := tokenize_shape source
  rw [heq, List.countP_append, List.countP_singleton, he]
  exact hcount

end Stencil.Source
