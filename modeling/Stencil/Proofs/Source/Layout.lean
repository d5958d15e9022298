import Mathlib.Data.List.TakeWhile
import Stencil.Proofs.Source.Boundary
import Stencil.Proofs.Source.Place

/-!
Where the tokens of a source lie in it.

The scanning machine lays its tokens out along the source: each takes the characters at the
cursor, blanks are left out between them, and only an error may swallow what stands there. An
error reports characters that were passed earlier, or stand at the cursor, so a mode that keeps
one for later keeps a stretch of the source (`Reports`). One step keeps to this
(`traces_step`), and so does the whole scan (`scan_laid`).
-/

namespace Stencil

open Text (isBlank)

/-! ### Stretches of a source -/

namespace Token

/-- The token is a stretch of the source, at its place. -/
def Marks (source : List Char) (t : Token) : Prop :=
  ∃ u v, source = u ++ t.lexeme.toList ++ v ∧ t.start = Position.origin.advance u

variable {source : List Char} {t : Token}

lemma Marks.lexeme (h : t.Marks source) :
    t.lexeme.toList = (source.drop t.start.offset).take t.lexeme.length := by
  obtain ⟨u, v, hsource, hstart⟩ := h
  rw [hstart, Position.offset_advance_origin, hsource, List.append_assoc, List.drop_left,
    ← String.length_toList, List.take_left]

lemma Marks.start (h : t.Marks source) : t.start = .located source t.start.offset ∧
    t.start = Position.origin.advance (source.take t.start.offset) := by
  obtain ⟨u, v, hsource, hstart⟩ := h
  have hoffset : t.start.offset = u.length := by rw [hstart, Position.offset_advance_origin]
  rw [hoffset, hsource, List.append_assoc, Position.located_append, List.take_left]
  exact ⟨hstart, hstart⟩

lemma Marks.stop (h : t.Marks source) : t.stop = .located source t.stopOffset := by
  obtain ⟨u, v, hsource, hstart⟩ := h
  have hoffset : t.stopOffset = (u ++ t.lexeme.toList).length := by
    rw [stopOffset, hstart, Position.offset_advance_origin, List.length_append,
      String.length_toList]
  rw [hoffset, hsource, Position.located_append, Position.advance_append, ← hstart]
  rfl

end Token

namespace Source

variable {source w : List Char} {m mode : Mode} {c c' : Cursor} {t : Token} {i : Option Token}
  {ts us : List Token}

/-! ### Cursors in a source -/

/-- The cursor stands in the source. -/
def Cursor.Stands (source : List Char) (c : Cursor) : Prop :=
  ∃ u, source = u ++ c.rest ∧ c.pos = Position.origin.advance u

lemma Cursor.Stands.after (h : c.Stands source) (hw : w <+: c.rest) :
    (c.after w).Stands source := by
  obtain ⟨u, hu, hpos⟩ := h
  refine ⟨u ++ w, ?_, ?_⟩
  · rw [List.append_assoc, ← c.rest_after hw, hu]
  · rw [Position.advance_append, ← hpos]
    rfl

/-- What stands at a cursor is a stretch of the source. -/
lemma Cursor.Stands.marks (h : c.Stands source) (hw : w <+: c.rest) (hstart : t.start = c.pos)
    (hlexeme : t.lexeme = String.ofList w) : t.Marks source := by
  obtain ⟨u, hu, hpos⟩ := h
  refine ⟨u, (c.after w).rest, ?_, hstart.trans hpos⟩
  rw [hlexeme, String.toList_ofList, List.append_assoc, ← c.rest_after hw, hu]

/-- An error about a stretch of the source. -/
def Reports (source : List Char) (t : Token) : Prop := t.kind = .error ∧ t.Marks source

lemma Cursor.Stands.fault (h : c.Stands source) (hw : w <+: c.rest) (message : String) :
    Reports source (c.fault w message) := ⟨rfl, h.marks hw rfl rfl⟩

/-- What a mode keeps for later are errors about the source. -/
def Mode.Reports (source : List Char) : Mode → Prop
  | .text => True
  | .directive t => Source.Reports source t
  | .slot t i | .quoted t i => Source.Reports source t ∧ ∀ u ∈ i, Source.Reports source u

lemma Mode.reports_around (h : ∀ u ∈ i, Source.Reports source u) :
    (Mode.around i).Reports source := by
  cases i with
  | none => trivial
  | some t => exact h t rfl

/-! ### Tokens along a source -/

/-- Tokens from one cursor to another. Only behind an error may other characters than blanks be
left out. -/
inductive Laid (source : List Char) : Cursor → List Token → Cursor → Prop
  | done (c : Cursor) : Laid source c [] c
  | blanks {c c' : Cursor} {w : List Char} {ts : List Token} (hw : w <+: c.rest)
      (hblank : ∀ ch ∈ w, isBlank ch = true) (rest : Laid source (c.after w) ts c') :
      Laid source c ts c'
  | token {c c' : Cursor} {w : List Char} {t : Token} {ts : List Token} (hw : w <+: c.rest)
      (hne : w ≠ []) (hkind : t.kind ≠ .error) (hstart : t.start = c.pos)
      (hlexeme : t.lexeme = String.ofList w) (rest : Laid source (c.after w) ts c') :
      Laid source c (t :: ts) c'
  | error {c c' : Cursor} {w : List Char} {t : Token} {ts : List Token} (hw : w <+: c.rest)
      (ht : Reports source t) (rest : Laid source (c.after w) ts c') : Laid source c (t :: ts) c'

namespace Laid

lemma append (h : Laid source c ts c') {c'' : Cursor} (h' : Laid source c' us c'') :
    Laid source c (ts ++ us) c'' := by
  induction h with
  | done => exact h'
  | blanks hw hblank _ ih => exact .blanks hw hblank (ih h')
  | token hw hne hkind hstart hlexeme _ ih => exact .token hw hne hkind hstart hlexeme (ih h')
  | error hw ht _ ih => exact .error hw ht (ih h')

lemma skipBlanks (h : Laid source c.skipBlanks ts c') : Laid source c ts c' :=
  .blanks (List.takeWhile_prefix _) (fun _ hch => List.mem_takeWhile_imp hch) h

lemma stands (h : Laid source c ts c') (hc : c.Stands source) : c'.Stands source := by
  induction h with
  | done => exact hc
  | blanks hw _ _ ih => exact ih (hc.after hw)
  | token hw _ _ _ _ _ ih => exact ih (hc.after hw)
  | error hw _ _ ih => exact ih (hc.after hw)

lemma marks (h : Laid source c ts c') (hc : c.Stands source) : ∀ t ∈ ts, t.Marks source := by
  induction h with
  | done => exact nofun
  | blanks hw _ _ ih => exact ih (hc.after hw)
  | token hw _ _ hstart hlexeme _ ih =>
    exact List.forall_mem_cons.mpr ⟨hc.marks hw hstart hlexeme, ih (hc.after hw)⟩
  | error hw ht _ ih => exact List.forall_mem_cons.mpr ⟨ht.2, ih (hc.after hw)⟩

end Laid

/-! ### Steps -/

/-- The step lays its tokens out, up to the cursor that it leaves. -/
structure Step.Traces (source : List Char) (c : Cursor) (s : Step) : Prop where
  laid : Laid source c s.tokens s.cursor
  reports : s.mode.Reports source

lemma Step.Traces.one {kind : TokenKind} {value : Option (List Char)} (hw : w <+: c.rest)
    (hne : w ≠ []) (hkind : kind ≠ .error) (hm : mode.Reports source) :
    (Step.one c mode kind w value).Traces source c :=
  ⟨.token hw hne hkind rfl rfl (.done _), hm⟩

lemma Step.Traces.stay (ht : Reports source t) (hm : mode.Reports source) :
    (Step.stay c mode t).Traces source c :=
  ⟨.error List.nil_prefix ht (.done _), hm⟩

lemma Step.Traces.reject {ch : Char} {cs : List Char} {message : String}
    (hc : c.Stands source) (h : c.rest = ch :: cs) (hm : mode.Reports source) :
    (Step.reject c mode ch message).Traces source c := by
  have hw : [ch] <+: c.rest := h ▸ ⟨cs, rfl⟩
  exact ⟨.error hw (hc.fault hw _) (.done _), hm⟩

lemma Step.Traces.literal {onError : Mode} {q : Char} {cs : List Char} (hc : c.Stands source)
    (h : c.rest = q :: cs) (hm : mode.Reports source) (he : onError.Reports source) :
    (literalStep c mode onError q cs).Traces source c := by
  have hw : q :: (literalTail q cs).taken <+: c.rest := by
    rw [h]
    exact List.cons_prefix_cons.mpr ⟨rfl, literalTail_isPrefix q cs⟩
  unfold literalStep
  dsimp only
  split
  · exact .one hw (List.cons_ne_nil _ _) nofun hm
  · exact ⟨.error hw (hc.fault (h ▸ ⟨cs, rfl⟩) _) (.done _), he⟩

lemma Step.Traces.blanks {s : Step} (h : s.Traces source c.skipBlanks) : s.Traces source c :=
  ⟨h.laid.skipBlanks, h.reports⟩

lemma Cursor.Stands.skipBlanks (h : c.Stands source) : c.skipBlanks.Stands source :=
  h.after (List.takeWhile_prefix _)

lemma forall_isBlank_of_trimBlanks {cs : List Char} (h : Text.trimBlanks cs = []) :
    ∀ ch ∈ cs, isBlank ch = true := by
  rw [Text.trimBlanks, List.reverse_eq_nil_iff, List.dropWhile_eq_nil_iff] at h
  intro ch hch
  rw [← List.takeWhile_append_dropWhile (p := isBlank) (l := cs)] at hch
  rcases List.mem_append.mp hch with hch | hch
  · exact List.mem_takeWhile_imp hch
  · exact h ch (List.mem_reverse.mpr hch)

/-- The parenthesis stands behind the tokens that were found before. -/
lemma traces_argumentStep {before : List Token} {paren : Cursor} (hp : ['('] <+: paren.rest)
    (hparen : paren.Stands source) (hbefore : Laid source c before (paren.after ['(']))
    (hi : ∀ u ∈ i, Reports source u) : (argumentStep before paren i).Traces source c := by
  have hunclosed : Reports source (unclosedArguments paren) := hparen.fault hp _
  have haround := Mode.reports_around hi
  obtain ⟨d, hd⟩ : ∃ d, (paren.after ['(']).skipBlanks = d := ⟨_, rfl⟩
  have hlead : Laid source c before d := by
    have hskip : Laid source (paren.after ['(']) [] d := .skipBlanks (hd ▸ .done _)
    simpa using hbefore.append hskip
  unfold argumentStep
  simp only [hd]
  split
  · exact ⟨hlead, hunclosed, hi⟩
  · exact ⟨hlead, hunclosed, hi⟩
  have hraw := rawArgument_isPrefix 0 d.rest
  split
  · rename_i cs hclose
    have hright : [')'] <+: (d.after (rawArgument 0 d.rest)).rest := hclose ▸ ⟨cs, rfl⟩
    refine ⟨?_, haround⟩
    rw [List.append_assoc]
    refine hlead.append (Laid.append ?_
      (.token hright (List.cons_ne_nil _ _) nofun rfl rfl (.done _)))
    split
    · rename_i hblank
      exact .blanks hraw (forall_isBlank_of_trimBlanks (by simpa using hblank)) (.done _)
    · rename_i hblank
      refine .token hraw (fun hnil => hblank ?_) nofun rfl rfl (.done _)
      rw [hnil]
      rfl
  · refine ⟨hlead.append (.error hraw hunclosed (.done _)), haround⟩

lemma traces_operatorStep (hc : c.Stands source) (hw : w <+: c.rest) (hne : w ≠ [])
    (hi : ∀ u ∈ i, Reports source u) : (operatorStep c i w).Traces source c := by
  unfold operatorStep
  dsimp only
  split
  · rename_i cs hp
    have hparen : ['('] <+: (c.after w).rest := hp ▸ ⟨cs, rfl⟩
    refine traces_argumentStep hparen (hc.after hw) ?_ hi
    exact .token hw hne nofun rfl rfl (.token hparen (List.cons_ne_nil _ _) nofun rfl rfl (.done _))
  · exact ⟨.token hw hne nofun rfl rfl (.done _), Mode.reports_around hi⟩

lemma ne_nil_of_length {w : List Char} (h : 0 < w.length) : w ≠ [] := List.length_pos_iff.mp h

lemma Reports.slot (hc : c.Stands source) (h : ['\x7b', '\x7b'] <+: c.rest) :
    Reports source (unclosedSlot c) := hc.fault h _

lemma Reports.directive (hc : c.Stands source) : Reports source (unclosedDirective c) :=
  hc.fault (List.take_prefix _ _) _

lemma traces_textStep (hc : c.Stands source) (hne : c.rest ≠ []) :
    (textStep c).Traces source c := by
  have hdirective : (Mode.directive (unclosedDirective c)).Reports source := Reports.directive hc
  unfold textStep
  split
  · rename_i h
    exact .one (plainRun_isPrefix _) (ne_nil_of_length (plainRun_length hne h)) nofun trivial
  · rename_i h
    cases opens_of_opening? h with
    | slot h => exact .one h (List.cons_ne_nil _ _) nofun ⟨.slot hc h, nofun⟩
  · rename_i h
    have hlength := directiveHead_length (beginsDirective_of_opening? h)
    exact .one (directiveHead_isPrefix _) (ne_nil_of_length hlength) nofun hdirective
  · rename_i h
    cases opens_of_opening? h with
    | elseIf h => exact .one ⟨_, h.symm⟩ (by decide) nofun hdirective
  · rename_i h
    have hlength := closer_length_of_opening? h
    cases opens_of_opening? h with
    | closer _ h => exact .one h (ne_nil_of_length hlength) nofun trivial
  · rename_i h
    cases opens_of_opening? h with
    | context h =>
      exact traces_operatorStep hc (List.IsPrefix.trans ⟨['('], rfl⟩ h) (by decide) nofun

lemma traces_slotStep (hc : c.Stands source) (hm : (Mode.slot t i).Reports source) :
    (slotStep t i c).Traces source c := by
  have haround := Mode.reports_around hm.2
  unfold slotStep
  dsimp only
  split
  · exact .stay hm.1 haround
  rename_i ch cs hrest
  have hone : [ch] <+: c.rest := hrest ▸ ⟨cs, rfl⟩
  split
  · rename_i h
    exact .one (begins_iff.mp h) (List.cons_ne_nil _ _) nofun haround
  split
  · exact .stay hm.1 haround
  split
  · rename_i h
    exact .one (begins_iff.mp h) (List.cons_ne_nil _ _) nofun hm
  split
  · exact .one hone (List.cons_ne_nil _ _) nofun hm
  split
  · exact .literal hc hrest hm hm
  split
  · rename_i h
    exact .one (number?_isPrefix h) (ne_nil_of_length (number?_length h)) nofun hm
  split
  · rename_i h
    exact .one (identifier?_isPrefix h) (ne_nil_of_length (identifier?_length h)) nofun hm
  · exact .reject hc hrest hm

lemma ne_error_of_mark? {ch : Char} {kind : TokenKind} (h : mark? ch = some kind) :
    kind ≠ .error := by
  unfold mark? at h
  split at h <;> cases h <;> nofun

lemma traces_directiveStep (hc : c.Stands source) (ht : Reports source t) :
    (directiveStep t c).Traces source c := by
  have hm : (Mode.directive t).Reports source := ht
  unfold directiveStep
  dsimp only
  split
  · exact .stay ht trivial
  rename_i ch cs hrest
  have hone : [ch] <+: c.rest := hrest ▸ ⟨cs, rfl⟩
  split
  · exact .stay ht trivial
  split
  · exact .one hone (List.cons_ne_nil _ _) nofun trivial
  split
  · rename_i h
    exact .one (begins_iff.mp h) (List.cons_ne_nil _ _) nofun
      ⟨.slot hc (begins_iff.mp h), fun _ hu => Option.some.inj hu ▸ ht⟩
  split
  · split
    · rename_i h
      exact traces_operatorStep hc (operator?_isPrefix h) (ne_nil_of_length (operator?_length h))
        fun _ hu => Option.some.inj hu ▸ ht
    · exact .reject hc hrest hm
  split
  · rename_i h
    exact .one hone (List.cons_ne_nil _ _) (ne_error_of_mark? h) hm
  split
  · exact .literal hc hrest hm hm
  split
  · rename_i h
    exact .one (number?_isPrefix h) (ne_nil_of_length (number?_length h)) nofun hm
  split
  · rename_i h
    exact .one (identifier?_isPrefix h) (ne_nil_of_length (identifier?_length h)) nofun hm
  split
  · rename_i h
    exact .one (pathWord?_isPrefix h) (ne_nil_of_length (pathWord?_length h)) nofun hm
  · exact .reject hc hrest hm

lemma traces_quotedStep (hc : c.Stands source) (hm : (Mode.quoted t i).Reports source) :
    (quotedStep t i c).Traces source c := by
  have haround := Mode.reports_around hm.2
  unfold quotedStep
  dsimp only
  split
  · exact .stay hm.1 haround
  rename_i ch cs hrest
  have hone : [ch] <+: c.rest := hrest ▸ ⟨cs, rfl⟩
  split
  · exact .one hone (List.cons_ne_nil _ _) nofun haround
  split
  · exact .one hone (List.cons_ne_nil _ _) nofun hm
  split
  · exact .literal hc hrest hm haround
  · exact .stay hm.1 haround

/-- Every step lays its tokens out along the source. -/
lemma traces_step (hc : c.Stands source) (hm : m.Reports source) (h : finished m c = false) :
    (step m c).Traces source c := by
  cases m with
  | text => exact traces_textStep hc (by simpa [finished] using h)
  | directive t => exact .blanks (traces_directiveStep hc.skipBlanks hm)
  | slot t i => exact .blanks (traces_slotStep hc.skipBlanks hm)
  | quoted t i => exact .blanks (traces_quotedStep hc.skipBlanks hm)

/-- A scan lays its tokens out up to the end of the source, which it marks. -/
lemma scan_laid (hc : c.Stands source) (hm : m.Reports source) :
    ∃ ts c', scan m c = ts ++ [⟨.endOfInput, "", c'.pos, none⟩] ∧ Laid source c ts c' ∧
      c'.rest = [] := by
  induction m, c using scan.induct with
  | case1 m c h =>
    refine ⟨[], c, scan_finished h, .done c, ?_⟩
    cases m with
    | text => simpa [finished] using h
    | _ => simp [finished] at h
  | case2 m c h s ih =>
    have h : finished m c = false := by simpa using h
    have hs : s.Traces source c := traces_step hc hm h
    obtain ⟨ts, c', hscan, hlaid, hrest⟩ := ih (hs.laid.stands hc) hs.reports
    refine ⟨s.tokens ++ ts, c', ?_, hs.laid.append hlaid, hrest⟩
    rw [scan_unfinished h, hscan, List.append_assoc]

/-! ### Order and gaps -/

/-- All characters of the source from one offset to another are blank. -/
def BlankBetween (source : List Char) (a b : Nat) : Prop :=
  ∀ k ch, a ≤ k → k < b → source[k]? = some ch → isBlank ch = true

lemma BlankBetween.self (source : List Char) (a : Nat) : BlankBetween source a a :=
  fun _ _ ha hb => absurd hb (Nat.not_lt.mpr ha)

lemma BlankBetween.trans {a b d : Nat} (h : BlankBetween source a b)
    (h' : BlankBetween source b d) : BlankBetween source a d := by
  intro k ch ha hd hk
  by_cases hb : k < b
  · exact h k ch ha hb hk
  · exact h' k ch (Nat.le_of_not_lt hb) hd hk

lemma Cursor.offset_after (c : Cursor) (w : List Char) :
    (c.after w).pos.offset = c.pos.offset + w.length := Position.advance_offset _ _

lemma Cursor.Stands.blankBetween (h : c.Stands source) (hw : w <+: c.rest)
    (hblank : ∀ ch ∈ w, isBlank ch = true) :
    BlankBetween source c.pos.offset (c.after w).pos.offset := by
  obtain ⟨u, hu, hpos⟩ := h
  obtain ⟨v, hv⟩ := hw
  have hoffset : c.pos.offset = u.length := by rw [hpos, Position.offset_advance_origin]
  intro k ch ha hb hk
  rw [c.offset_after] at hb
  rw [hu, ← hv, List.getElem?_append_right (by omega), List.getElem?_append_left (by omega)] at hk
  exact hblank ch (List.mem_of_getElem? hk)

namespace Laid

lemma offset_le (h : Laid source c ts c') : c.pos.offset ≤ c'.pos.offset := by
  induction h with
  | done => exact Nat.le_refl _
  | blanks _ _ _ ih | token _ _ _ _ _ _ ih | error _ _ _ ih =>
    rw [Cursor.offset_after] at ih
    omega

/-- The tokens that are no errors lie between the two cursors, one behind the other. -/
lemma ordered (h : Laid source c ts c') :
    (∀ t ∈ ts, t.kind ≠ .error → c.pos.offset ≤ t.start.offset ∧
      t.start.offset < t.stopOffset ∧ t.stopOffset ≤ c'.pos.offset) ∧
    (ts.filter (·.kind != .error)).Pairwise fun a b =>
      a.start.offset < b.start.offset ∧ a.stopOffset ≤ b.start.offset := by
  induction h with
  | done => simp
  | @blanks c c' w ts hw _ _ ih =>
    rw [c.offset_after] at ih
    exact ⟨fun t ht hk => (ih.1 t ht hk).imp_left Nat.le_of_add_right_le, ih.2⟩
  | @error c c' w t ts hw ht _ ih =>
    rw [c.offset_after] at ih
    refine ⟨List.forall_mem_cons.mpr ⟨fun hk => absurd ht.1 hk, fun t ht hk => ?_⟩, ?_⟩
    · exact (ih.1 t ht hk).imp_left Nat.le_of_add_right_le
    · rw [List.filter_cons_of_neg (by simp [ht.1])]
      exact ih.2
  | @token c c' w t ts hw hne hkind hstart hlexeme rest ih =>
    have hle := rest.offset_le
    have hlength : 0 < w.length := List.length_pos_iff.mpr hne
    have hstop : t.stopOffset = c.pos.offset + w.length := by
      rw [Token.stopOffset, hstart, hlexeme, String.length_ofList]
    rw [c.offset_after] at ih hle
    refine ⟨List.forall_mem_cons.mpr ⟨fun _ => ?_, fun u hu hk => ?_⟩, ?_⟩
    · rw [hstop, hstart]
      omega
    · exact (ih.1 u hu hk).imp_left Nat.le_of_add_right_le
    · rw [List.filter_cons_of_pos (by simpa using hkind)]
      refine List.pairwise_cons.mpr ⟨fun u hu => ?_, ih.2⟩
      obtain ⟨hu, hk⟩ := List.mem_filter.mp hu
      have := (ih.1 u hu (by simpa using hk)).1
      rw [hstop, hstart]
      omega

/-- Without errors only blanks are left out, from an offset in front of the first cursor to a token
at the second. -/
lemma gaps (h : Laid source c ts c') (hc : c.Stands source) (hclean : Clean ts) {e : Token}
    (he : e.start = c'.pos) {a : Nat} (ha : BlankBetween source a c.pos.offset) :
    (∀ t ∈ (ts ++ [e]).head?, BlankBetween source a t.start.offset) ∧
      (ts ++ [e]).IsChain fun t u => BlankBetween source t.stopOffset u.start.offset := by
  induction h generalizing a with
  | done => simpa [he] using ha
  | blanks hw hblank _ ih =>
    exact ih (hc.after hw) hclean he (ha.trans (hc.blankBetween hw hblank))
  | error hw ht _ _ => exact absurd ht.1 (hclean _ List.mem_cons_self)
  | @token c c' w t ts hw hne hkind hstart hlexeme rest ih =>
    have hstop : t.stopOffset = (c.after w).pos.offset := by
      rw [c.offset_after, Token.stopOffset, hstart, hlexeme, String.length_ofList]
    obtain ⟨hhead, hchain⟩ := ih (hc.after hw) (fun u hu => hclean u (List.mem_cons_of_mem _ hu)) he
      (a := t.stopOffset) (hstop ▸ .self _ _)
    exact ⟨by simpa [hstart] using ha, hchain.cons hhead⟩

end Laid

/-! ### Whole sources -/

/-- The tokens of a source are laid out over it, each is a stretch of it, and the end of the input
stands behind its last character. -/
lemma tokenize_laid (source : String) : ∃ ts c',
    tokenize source = ts ++ [⟨.endOfInput, "", c'.pos, none⟩] ∧
      Laid source.toList ⟨.origin, source.toList⟩ ts c' ∧
      (∀ t ∈ ts, t.Marks source.toList) ∧ c'.pos = Position.origin.advance source.toList := by
  have hstands : Cursor.Stands source.toList ⟨.origin, source.toList⟩ := ⟨[], rfl, rfl⟩
  obtain ⟨ts, c', hscan, hlaid, hrest⟩ := scan_laid (m := .text) hstands trivial
  obtain ⟨u, hu, hpos⟩ := hlaid.stands hstands
  rw [hrest, List.append_nil] at hu
  exact ⟨ts, c', hscan, hlaid, hlaid.marks hstands, hu ▸ hpos⟩

lemma tokenize_marks (source : String) : ∀ t ∈ tokenize source, t.Marks source.toList := by
  obtain ⟨ts, c', hscan, -, hts, hpos⟩ := tokenize_laid source
  rw [hscan]
  refine List.forall_mem_append.mpr ⟨hts, List.forall_mem_singleton.mpr ?_⟩
  exact ⟨source.toList, [], by simp, hpos⟩

/-- The tokens of a source that are no errors stand one behind the other. -/
lemma tokenize_ordered (source : String) :
    ((tokenize source).filter (·.kind != .error)).Pairwise fun a b =>
      a.start.offset < b.start.offset ∧ a.stopOffset ≤ b.start.offset := by
  obtain ⟨ts, c', hscan, hlaid, -⟩ := tokenize_laid source
  obtain ⟨hwithin, hordered⟩ := hlaid.ordered
  rw [hscan, List.filter_append]
  refine List.pairwise_append.mpr ⟨hordered, by simp, fun a ha b hb => ?_⟩
  obtain ⟨ha, hkind⟩ := List.mem_filter.mp ha
  obtain rfl := List.mem_singleton.mp (List.mem_filter.mp hb).1
  obtain ⟨-, hlt, hle⟩ := hwithin a ha (by simpa using hkind)
  exact ⟨Nat.lt_of_lt_of_le hlt hle, hle⟩

/-- What the tokens of a source say about it. -/
structure Faithful (source : List Char) (ts : List Token) : Prop where
  /-- The end of the input stands behind the last character, and nowhere else. -/
  ending : ∃ body, ts = body ++ [⟨.endOfInput, "", .located source source.length, none⟩] ∧
    ∀ t ∈ body, t.kind ≠ .endOfInput
  lexemes : ∀ t ∈ ts, t.lexeme.toList = (source.drop t.start.offset).take t.lexeme.length
  ordered : (ts.filter (·.kind != .error)).Pairwise fun a b =>
    a.start.offset < b.start.offset ∧ a.stopOffset ≤ b.start.offset
  /-- Only blanks are left out, in front of the first token and between one and the next. -/
  gaps : Clean ts → (∀ t ∈ ts.head?, BlankBetween source 0 t.start.offset) ∧
    ts.IsChain fun a b => BlankBetween source a.stopOffset b.start.offset
  starts : ∀ t ∈ ts, t.start = .located source t.start.offset ∧
    t.start.line = 1 + (source.take t.start.offset).count '\n' ∧
    t.start.column = 1 + (Position.lastLine (source.take t.start.offset)).length
  stops : ∀ t ∈ ts, t.stop = .located source t.stopOffset ∧
    t.stopByLines = .located source t.stopOffset

end Source

open Source in
/-- **Faithful tokens**: the tokens of a source end with the end of the input at its length, each is
the stretch of the source at its offset, those that are no errors stand one behind the other, and
only blanks are left out of a source where nothing is wrong. The line and the column of a token
count the newlines in front of it and the characters behind the last of them, and the place behind
it, found from its own text, is the place of its last offset in the source. -/
theorem tokenize_faithful (source : String) : Faithful source.toList (tokenize source) := by
  obtain ⟨ts, c', hscan, hlaid, hts, hpos⟩ := tokenize_laid source
  have hend : c'.pos = .located source.toList source.toList.length := by
    rw [hpos, Position.located_eq (Nat.le_refl _), List.take_length]
  have hmarks : ∀ t ∈ tokenize source, t.Marks source.toList := by
    rw [hscan]
    refine List.forall_mem_append.mpr ⟨hts, List.forall_mem_singleton.mpr ?_⟩
    exact ⟨source.toList, [], by simp, hpos⟩
  constructor
  case ending =>
    obtain ⟨body, e, hshape, -, hbody, -⟩ := tokenize_shape source
    obtain ⟨-, he⟩ := List.append_inj' (hshape.symm.trans hscan) rfl
    exact ⟨body, by rw [hshape, he, hend], hbody⟩
  case lexemes => exact fun t ht => (hmarks t ht).lexeme
  case ordered => exact tokenize_ordered source
  case gaps =>
    intro hclean
    rw [hscan] at hclean ⊢
    exact hlaid.gaps ⟨[], rfl, rfl⟩ (clean_append.mp hclean).1 rfl (.self _ _)
  case starts =>
    intro t ht
    obtain ⟨hlocated, hwalked⟩ := (hmarks t ht).start
    refine ⟨hlocated, ?_, ?_⟩
    · exact (congrArg Position.line hwalked).trans (Position.line_advance _ _)
    · exact (congrArg Position.column hwalked).trans (Position.column_advance_origin_eq _)
  case stops =>
    intro t ht
    have hstop := (hmarks t ht).stop
    exact ⟨hstop, t.stop_eq_stopByLines ▸ hstop⟩

end Stencil
