import Stencil.Proofs.Source.Plain
import Stencil.Proofs.Source.Shift

/-!
Where one source ends and another begins.

Inside a construct the machine is held back by what closes it: as long as no error is found, all
that closes the mode is still ahead, so that no token reads on over the end of its source. In
plain text it is the construct behind the text that holds it back. A source without errors that
does not end with plain text is therefore cut into the same tokens with any text behind it.
-/

namespace Stencil

namespace Source

open Text (isBlank)
open scoped List

variable {m mode : Mode} {c : Cursor} {t : Token} {i : Option Token} {w z : List Char}

/-! ### What is still ahead -/

/-- No token is an error. -/
def Clean (ts : List Token) : Prop := ∀ t ∈ ts, t.kind ≠ .error

lemma clean_append {ts us : List Token} : Clean (ts ++ us) ↔ Clean ts ∧ Clean us :=
  List.forall_mem_append

/-- What closes a mode, up to plain text. -/
def Mode.closers : Mode → List Char
  | .text => []
  | .directive _ => [']']
  | .slot _ i => '\x7d' :: '\x7d' :: if i.isSome then [']'] else []
  | .quoted _ i => ')' :: if i.isSome then [']'] else []

lemma Mode.closers_around (i : Option Token) :
    (Mode.around i).closers = if i.isSome then [']'] else [] := by
  cases i <;> rfl

/-- The step goes on behind some characters, with which it closes what it closes if it finds no
error. -/
def Step.Reaches (s : Step) (m : Mode) (c : Cursor) : Prop := ∃ v, c.rest = v ++ s.cursor.rest ∧
  s.cursor.pos = c.pos.advance v ∧ (Clean s.tokens → m.closers <+ v ++ s.mode.closers)

lemma Cursor.rest_after (h : w <+: c.rest) : c.rest = w ++ (c.after w).rest :=
  (List.prefix_iff_eq_append.mp h).symm

lemma Step.Reaches.one {kind : TokenKind} {value : Option (List Char)} (hw : w <+: c.rest)
    (h : m.closers <+ w ++ mode.closers) : (Step.one c mode kind w value).Reaches m c :=
  ⟨w, c.rest_after hw, rfl, fun _ => h⟩

/-- Where an error is found nothing has to be closed. -/
lemma Step.Reaches.of_error {s : Step} (hw : w <+: c.rest) (hs : s.cursor = c.after w)
    (he : ∃ e ∈ s.tokens, e.kind = .error) : s.Reaches m c := by
  obtain ⟨e, hmem, he⟩ := he
  exact ⟨w, hs ▸ c.rest_after hw, hs ▸ rfl, fun h => absurd he (h e hmem)⟩

lemma Step.Reaches.stay {error : Token} (he : error.kind = .error) :
    (Step.stay c mode error).Reaches m c :=
  .of_error List.nil_prefix rfl ⟨error, by simp [Step.stay], he⟩

lemma Step.Reaches.reject {ch : Char} {cs : List Char} {message : String}
    (h : c.rest = ch :: cs) : (Step.reject c mode ch message).Reaches m c :=
  .of_error (h ▸ ⟨cs, rfl⟩) rfl ⟨_, List.mem_singleton_self _, rfl⟩

lemma Step.Reaches.literal {onError : Mode} {q : Char} {cs : List Char} (hc : c.rest = q :: cs)
    (h : m.closers <+ mode.closers) : (literalStep c mode onError q cs).Reaches m c := by
  have hw : q :: (literalTail q cs).taken <+: c.rest := by
    rw [hc]
    exact List.cons_prefix_cons.mpr ⟨rfl, literalTail_isPrefix q cs⟩
  unfold literalStep
  dsimp only
  split
  · exact .one hw (h.trans (List.sublist_append_right _ _))
  · exact .of_error hw rfl ⟨_, List.mem_singleton_self _, rfl⟩

/-- A step from behind the first characters. -/
lemma Step.Reaches.behind {s : Step} (hw : w <+: c.rest) (h : s.Reaches m (c.after w)) :
    s.Reaches m c := by
  obtain ⟨v, hrest, hpos, hclosers⟩ := h
  refine ⟨w ++ v, ?_, ?_, fun hs => ?_⟩
  · rw [List.append_assoc, ← hrest]
    exact c.rest_after hw
  · rw [hpos, Position.advance_append]
    rfl
  · rw [List.append_assoc]
    exact (hclosers hs).trans (List.sublist_append_right _ _)

lemma Step.Reaches.blanks {s : Step} (h : s.Reaches m c.skipBlanks) : s.Reaches m c := by
  refine h.behind ?_
  exact List.takeWhile_prefix _

/-- What closes the mode is ahead of a step without errors, if it is behind it. -/
lemma Step.Reaches.ahead {s : Step} (h : s.Reaches m c) (hclean : Clean s.tokens)
    (hopen : s.mode.closers <+ s.cursor.rest) : m.closers <+ c.rest := by
  obtain ⟨v, hrest, -, hclosers⟩ := h
  rw [hrest]
  exact (hclosers hclean).trans (hopen.append_left v)

lemma reaches_argumentStep {before : List Token} {paren : Cursor} (hp : ['('] <+: paren.rest) :
    (argumentStep before paren i).Reaches (.around i) paren := by
  have hc : (paren.after ['(']).rest.takeWhile isBlank <+: (paren.after ['(']).rest :=
    List.takeWhile_prefix _
  refine .behind hp (.behind hc ?_)
  have hquoted (t : Token) :
      (Mode.around i).closers <+ [] ++ (Mode.quoted t i).closers := by
    rw [Mode.closers_around]
    exact List.sublist_cons_self _ _
  unfold argumentStep Cursor.skipBlanks
  dsimp only
  generalize ((paren.after ['(']).after
    ((paren.after ['(']).rest.takeWhile isBlank)) = c at hc ⊢
  split
  · exact ⟨[], rfl, rfl, fun _ => hquoted _⟩
  · exact ⟨[], rfl, rfl, fun _ => hquoted _⟩
  · refine .behind (rawArgument_isPrefix 0 c.rest) ?_
    split
    · rename_i cs hclose
      refine ⟨[')'], (Cursor.rest_after (hclose ▸ ⟨cs, rfl⟩)), rfl, fun _ => ?_⟩
      exact List.sublist_append_right _ _
    · refine .of_error List.nil_prefix rfl ?_
      exact ⟨_, List.mem_append_right _ (List.mem_singleton_self _), rfl⟩

lemma reaches_operatorStep (hw : w <+: c.rest) :
    (operatorStep c i w).Reaches (.around i) c := by
  refine .behind hw ?_
  unfold operatorStep
  dsimp only
  split
  · rename_i cs hp
    exact reaches_argumentStep (hp ▸ ⟨cs, rfl⟩)
  · exact ⟨[], rfl, rfl, fun _ => List.sublist_append_right _ _⟩

lemma directiveHead_isPrefix (cs : List Char) : directiveHead cs <+: cs := by
  unfold directiveHead
  split
  · exact List.cons_prefix_cons.mpr ⟨rfl, List.cons_prefix_cons.mpr ⟨rfl, List.takeWhile_prefix _⟩⟩
  · exact List.nil_prefix

lemma reaches_textStep (c : Cursor) : (textStep c).Reaches .text c := by
  have none {v : List Char} : Mode.closers .text <+ v := List.nil_sublist v
  unfold textStep
  split
  · exact .one (plainRun_isPrefix _) none
  · rename_i h
    cases opens_of_opening? h with
    | slot h => exact .one h none
  · exact .one (directiveHead_isPrefix _) none
  · rename_i h
    cases opens_of_opening? h with
    | elseIf h => exact .one ⟨_, h.symm⟩ none
  · rename_i h
    cases opens_of_opening? h with
    | closer _ h => exact .one h none
  · rename_i h
    cases opens_of_opening? h with
    | context h =>
      refine reaches_operatorStep (i := Option.none) (List.IsPrefix.trans ?_ h)
      exact ⟨['('], rfl⟩

lemma reaches_slotStep (ht : t.kind = .error) (c : Cursor) :
    (slotStep t i c).Reaches (.slot t i) c := by
  have same {v : List Char} : (Mode.slot t i).closers <+ v ++ (Mode.slot t i).closers :=
    List.sublist_append_right _ _
  unfold slotStep
  dsimp only
  split
  · exact .stay ht
  rename_i ch cs hrest
  have hone : [ch] <+: c.rest := hrest ▸ ⟨cs, rfl⟩
  split
  · rename_i h
    refine .one (begins_iff.mp h) ?_
    rw [Mode.closers_around]
    exact List.Sublist.refl _
  split
  · exact .stay ht
  split
  · rename_i h
    exact .one (begins_iff.mp h) same
  split
  · exact .one hone same
  split
  · exact .literal hrest (List.Sublist.refl _)
  split
  · exact .one (number?_isPrefix (by assumption)) same
  split
  · exact .one (identifier?_isPrefix (by assumption)) same
  · exact .reject hrest

lemma reaches_directiveStep (ht : t.kind = .error) (c : Cursor) :
    (directiveStep t c).Reaches (.directive t) c := by
  have same {v : List Char} : (Mode.directive t).closers <+ v ++ (Mode.directive t).closers :=
    List.sublist_append_right _ _
  unfold directiveStep
  dsimp only
  split
  · exact .stay ht
  rename_i ch cs hrest
  have hone : [ch] <+: c.rest := hrest ▸ ⟨cs, rfl⟩
  split
  · exact .stay ht
  split
  · rename_i h
    obtain rfl : ch = ']' := by simpa using h
    exact .one hone (List.Sublist.refl _)
  split
  · rename_i h
    refine .one (begins_iff.mp h) ?_
    rw [Mode.closers, List.singleton_sublist]
    simp [Mode.closers]
  split
  · split
    · exact reaches_operatorStep (i := some t) (operator?_isPrefix (by assumption))
    · exact .reject hrest
  split
  · exact .one hone same
  split
  · exact .literal hrest (List.Sublist.refl _)
  split
  · exact .one (number?_isPrefix (by assumption)) same
  split
  · exact .one (identifier?_isPrefix (by assumption)) same
  split
  · exact .one (pathWord?_isPrefix (by assumption)) same
  · exact .reject hrest

lemma reaches_quotedStep (ht : t.kind = .error) (c : Cursor) :
    (quotedStep t i c).Reaches (.quoted t i) c := by
  unfold quotedStep
  dsimp only
  split
  · exact .stay ht
  rename_i ch cs hrest
  have hone : [ch] <+: c.rest := hrest ▸ ⟨cs, rfl⟩
  split
  · rename_i h
    obtain rfl : ch = ')' := by simpa using h
    refine .one hone ?_
    rw [Mode.closers_around]
    exact List.Sublist.refl _
  split
  · exact .one hone (List.sublist_append_right _ _)
  split
  · exact .literal hrest (List.Sublist.refl _)
  · exact .stay ht

/-- A step goes on behind some characters and closes with them what it closes. -/
lemma reaches_step (hm : m.Faulty) (c : Cursor) : (step m c).Reaches m c := by
  cases m with
  | text => exact reaches_textStep c
  | directive t => exact .blanks (reaches_directiveStep hm _)
  | slot t i => exact .blanks (reaches_slotStep hm.1 _)
  | quoted t i => exact .blanks (reaches_quotedStep hm.1 _)

/-- Where a scan finds no error, all that closes its mode is ahead. -/
lemma closers_of_clean (hm : m.Faulty) (h : Clean (scan m c)) : m.closers <+ c.rest := by
  induction m, c using scan.induct with
  | case1 m c hf =>
    cases m with
    | text => exact List.nil_sublist _
    | _ => simp [finished] at hf
  | case2 m c hf s ih =>
    have hf : finished m c = false := by simpa using hf
    rw [scan_unfinished hf, clean_append] at h
    exact (reaches_step hm c).ahead h.1 (ih (lawful_step hm hf).faulty h.2)

/-! ### More text behind -/

/-- The cursor with more text behind what it has ahead. -/
def Cursor.extend (c : Cursor) (z : List Char) : Cursor := ⟨c.pos, c.rest ++ z⟩

def Step.extend (s : Step) (z : List Char) : Step := ⟨s.tokens, s.mode, s.cursor.extend z⟩

/-- The second step is the first, with more text behind, unless this finds an error or something
stays open. -/
def Step.Extends (s s' : Step) (z : List Char) : Prop :=
  Clean s.tokens → s.mode.closers <+ s.cursor.rest → s' = s.extend z

lemma Cursor.extend_after (hw : w <+: c.rest) (z : List Char) :
    (c.extend z).after w = (c.after w).extend z := by
  simp only [after, extend, List.drop_append_of_le_length hw.length_le]

lemma Cursor.extend_skipBlanks (h : c.skipBlanks.rest ≠ []) (z : List Char) :
    (c.extend z).skipBlanks = c.skipBlanks.extend z := by
  have hlength : (c.rest.takeWhile isBlank).length ≠ c.rest.length := by
    have := c.length_after (c.rest.takeWhile isBlank)
    have := List.length_pos_iff.mpr h
    unfold skipBlanks at this
    omega
  have htake : (c.extend z).rest.takeWhile isBlank = c.rest.takeWhile isBlank := by
    rw [extend, List.takeWhile_append, if_neg hlength]
  have hfront : c.rest.takeWhile isBlank <+: c.rest := List.takeWhile_prefix _
  rw [skipBlanks, htake, extend_after hfront]
  rfl

lemma Step.Extends.one {kind : TokenKind} {value : Option (List Char)} (hw : w <+: c.rest) :
    (Step.one c mode kind w value).Extends (Step.one (c.extend z) mode kind w value) z := by
  intro _ _
  rw [Step.one, Cursor.extend_after hw]
  rfl

lemma Step.Extends.of_error {s s' : Step} (he : ∃ e ∈ s.tokens, e.kind = .error) :
    s.Extends s' z := by
  obtain ⟨e, hmem, he⟩ := he
  exact fun h => absurd he (h e hmem)

lemma Step.Extends.stay {s' : Step} {error : Token} (he : error.kind = .error) :
    (Step.stay c mode error).Extends s' z :=
  .of_error ⟨error, List.mem_singleton_self _, he⟩

lemma Step.Extends.reject {s' : Step} {ch : Char} {message : String} :
    (Step.reject c mode ch message).Extends s' z :=
  .of_error ⟨_, List.mem_singleton_self _, rfl⟩

lemma Step.Extends.literal {onError : Mode} {q : Char} {cs : List Char} (hc : c.rest = q :: cs)
    (hq : q ≠ '\\') :
    (literalStep c mode onError q cs).Extends
      (literalStep (c.extend z) mode onError q (cs ++ z)) z := by
  have hw : q :: (literalTail q cs).taken <+: c.rest := by
    rw [hc]
    exact List.cons_prefix_cons.mpr ⟨rfl, literalTail_isPrefix q cs⟩
  unfold literalStep
  dsimp only
  by_cases h : (literalTail q cs).closed = true
  · rw [literalTail_append hq h, if_pos h, if_pos h]
    exact .one hw
  · rw [if_neg h]
    exact .of_error ⟨_, List.mem_singleton_self _, rfl⟩

/-- A closed argument is the same with more behind. -/
lemma after_rawArgument_extend {cs : List Char}
    (hclose : (c.after (rawArgument 0 c.rest)).rest = ')' :: cs) (z : List Char) :
    rawArgument 0 (c.extend z).rest = rawArgument 0 c.rest ∧
      (c.extend z).after (rawArgument 0 c.rest) = (c.after (rawArgument 0 c.rest)).extend z := by
  have hfront := rawArgument_isPrefix 0 c.rest
  refine ⟨rawArgument_append ?_ z, Cursor.extend_after hfront z⟩
  have hlength := c.length_after (rawArgument 0 c.rest)
  rw [hclose, List.length_cons] at hlength
  omega

lemma extend_argumentStep {before : List Token} {paren : Cursor} (hp : ['('] <+: paren.rest)
    (h : Clean (argumentStep before paren i).tokens) (z : List Char) :
    argumentStep before (paren.extend z) i = (argumentStep before paren i).extend z := by
  have hblanks (hne : ((paren.after ['(']).skipBlanks).rest ≠ []) :
      ((paren.extend z).after ['(']).skipBlanks = (paren.after ['(']).skipBlanks.extend z := by
    rw [Cursor.extend_after hp, Cursor.extend_skipBlanks hne]
  obtain ⟨c, hc⟩ : ∃ c, (paren.after ['(']).skipBlanks = c := ⟨_, rfl⟩
  rw [hc] at hblanks
  have hquoted {q : Char} {cs : List Char} (hq : q = '"' ∨ q = '\'') (hrest : c.rest = q :: cs) :
      argumentStep before (paren.extend z) i = (argumentStep before paren i).extend z := by
    have hext : (c.extend z).rest = q :: (cs ++ z) := by rw [Cursor.extend, hrest, List.cons_append]
    unfold argumentStep
    simp only [hc, hblanks (by simp [hrest]), hrest, hext]
    rcases hq with rfl | rfl <;> rfl
  unfold argumentStep at h
  simp only [hc] at h
  split at h
  · exact hquoted (.inl rfl) (by assumption)
  · exact hquoted (.inr rfl) (by assumption)
  rename_i hdouble hsingle
  split at h
  · rename_i cs hclose
    obtain ⟨hraw, hafter⟩ := after_rawArgument_extend hclose z
    obtain ⟨d, ds, hrest⟩ := List.exists_cons_of_ne_nil (l := c.rest) fun hnil => by
      simp [Cursor.after, hnil] at hclose
    have hquote : d ≠ '"' ∧ d ≠ '\'' :=
      ⟨fun hd => hdouble ds (hd ▸ hrest), fun hd => hsingle ds (hd ▸ hrest)⟩
    have hclose' : ((c.extend z).after (rawArgument 0 c.rest)).rest = ')' :: (cs ++ z) := by
      rw [hafter, Cursor.extend, hclose, List.cons_append]
    have hparen : [')'] <+: (c.after (rawArgument 0 c.rest)).rest := hclose ▸ ⟨cs, rfl⟩
    rw [argumentStep_raw (hblanks (by simp [hrest])) (by simpa [Cursor.extend, hrest] using hquote)
      hraw hclose', argumentStep_raw hc (by simpa [hrest] using hquote) rfl hclose, hafter,
      Cursor.extend_after hparen]
    rfl
  · exact absurd rfl (h _ (List.mem_append_right _ (List.mem_singleton_self _)))

/-- An operator that does not end the text. -/
lemma Step.Extends.operator (hw : w <+: c.rest) (hne : (c.after w).rest ≠ []) :
    (operatorStep c i w).Extends (operatorStep (c.extend z) i w) z := by
  intro h _
  obtain ⟨d, ds, hd⟩ := List.exists_cons_of_ne_nil hne
  have hd' : ((c.after w).extend z).rest = d :: (ds ++ z) := by simp [Cursor.extend, hd]
  unfold operatorStep at h ⊢
  simp only [Cursor.extend_after hw, hd] at h ⊢
  rw [hd']
  by_cases hp : d = '('
  · subst hp
    exact extend_argumentStep (hd ▸ ⟨ds, rfl⟩) h z
  · split
    · rename_i heq
      exact absurd (List.cons.inj heq).1 hp
    · split
      · rename_i heq
        exact absurd (List.cons.inj heq).1 hp
      · rfl

lemma begins_append_of_le {p : String} {cs : List Char} (h : p.toList.length ≤ cs.length)
    (z : List Char) : begins p (cs ++ z) = begins p cs := by
  rw [Bool.eq_iff_iff, begins_iff, begins_iff]
  exact ⟨fun hp => List.prefix_of_prefix_length_le hp (List.prefix_append cs z) h,
    List.prefix_append_of_prefix⟩

lemma begins_append_of_mem {p : String} {cs : List Char} {d : Char} (hd : d ∈ cs)
    (hp : d ∉ p.toList) (z : List Char) : begins p (cs ++ z) = begins p cs := by
  rw [Bool.eq_iff_iff, begins_iff, begins_iff]
  refine ⟨fun h => ?_, List.prefix_append_of_prefix⟩
  rcases List.prefix_or_prefix_of_prefix h (List.prefix_append cs z) with h | h
  · exact h
  · exact absurd (h.subset hd) hp

lemma beginsDirective_append {cs : List Char} (h : ']' ∈ cs) (z : List Char) :
    beginsDirective (cs ++ z) = beginsDirective cs := by
  have short {a : Char} {ds : List Char} (ha : a ≠ '[') : beginsDirective (a :: ds) = false := by
    unfold beginsDirective
    split
    · rename_i heq
      exact absurd (List.cons.inj heq).1 ha
    · rfl
  match cs, h with
  | a :: cs, h =>
    by_cases ha : a = '['
    · subst ha
      match cs, List.mem_of_ne_of_mem (by decide) h with
      | b :: cs, h =>
        by_cases hb : b = '#'
        · subst hb
          match cs, List.mem_of_ne_of_mem (by decide) h with
          | _ :: _, _ => rfl
        · simp [beginsDirective, hb]
    · rw [List.cons_append, short ha, short ha]

/-- A path that something closes behind it. -/
lemma Step.Extends.identifier {m : Mode} (hid : identifier? c.rest = some w)
    (hm : ∀ cs, m.closers <+ cs → Stopped cs) {s' : Step}
    (hs' : identifier? (c.rest ++ z) = some w →
      s' = Step.one (c.extend z) m .identifier w (some w)) :
    (Step.one c m .identifier w (some w)).Extends s' z := by
  intro hclean hclosers
  have hw := identifier?_isPrefix hid
  have hrest := c.rest_after hw
  rw [hrest] at hid
  have hid' := identifier?_append hid (hm _ hclosers) z
  rw [← List.append_assoc, ← hrest] at hid'
  rw [hs' hid']
  exact Step.Extends.one hw hclean hclosers

lemma extends_slotStep (ht : t.kind = .error) (h : (Mode.slot t i).closers <+ c.rest) :
    (slotStep t i c).Extends (slotStep t i (c.extend z)) z := by
  obtain ⟨ch, cs, hrest⟩ := List.exists_cons_of_ne_nil (l := c.rest) (by
    rintro heq
    simp [heq, Mode.closers] at h)
  have hext : (c.extend z).rest = ch :: cs ++ z := by rw [Cursor.extend, hrest]
  have hstop : Stopped (ch :: cs) := ⟨'\x7d', hrest ▸ h.subset (by simp [Mode.closers]), rfl⟩
  have htwo : 2 ≤ (ch :: cs).length := by
    rw [← hrest]
    exact le_trans (by simp [Mode.closers]) h.length_le
  have hone : [ch] <+: c.rest := hrest ▸ ⟨cs, rfl⟩
  unfold slotStep
  rw [hext, hrest]
  simp only [List.cons_append]
  rw [← List.cons_append]
  simp only [begins_append_of_le (p := "\x7d\x7d") htwo, begins_append_of_le (p := "??") htwo,
    number?_append hstop]
  split
  · rename_i hb
    exact .one (hrest ▸ begins_iff.mp hb)
  split
  · exact .stay ht
  split
  · rename_i hb
    exact .one (hrest ▸ begins_iff.mp hb)
  split
  · exact .one hone
  split
  · rename_i hq
    exact .literal hrest (by rintro rfl; simp at hq)
  split
  · exact .one (hrest ▸ number?_isPrefix (by assumption))
  · rcases hid : identifier? (ch :: cs) with _ | w
    · exact .reject
    · refine .identifier (hrest ▸ hid)
        (fun cs h => ⟨'\x7d', h.subset (by simp [Mode.closers]), rfl⟩) fun hid' => ?_
      rw [hrest] at hid'
      rw [hid']

lemma not_mem_of_operator? {cs : List Char} (h : operator? cs = some w) : ']' ∉ w := by
  unfold operator? at h
  split at h
  · split at h
    · rename_i ch cs hch
      obtain rfl := Option.some.inj h
      simp only [List.mem_cons, not_or]
      refine ⟨by decide, ?_, fun hmem => ?_⟩
      · rintro rfl
        exact absurd hch (by decide)
      · exact absurd (List.all_eq_true.mp List.all_takeWhile _ hmem) (by decide)
    · cases h
  · cases h

lemma extends_directiveStep (ht : t.kind = .error) (h : (Mode.directive t).closers <+ c.rest) :
    (directiveStep t c).Extends (directiveStep t (c.extend z)) z := by
  obtain ⟨ch, cs, hrest⟩ := List.exists_cons_of_ne_nil (l := c.rest) (by
    rintro heq
    simp [heq, Mode.closers] at h)
  have hext : (c.extend z).rest = ch :: cs ++ z := by rw [Cursor.extend, hrest]
  have hmem : ']' ∈ ch :: cs := hrest ▸ List.singleton_sublist.mp h
  have hstop : Stopped (ch :: cs) := ⟨']', hmem, rfl⟩
  have hone : [ch] <+: c.rest := hrest ▸ ⟨cs, rfl⟩
  have hblock : beginsBlock (ch :: cs ++ z) = beginsBlock (ch :: cs) := by
    simp only [beginsBlock, beginsDirective_append hmem,
      begins_append_of_mem (p := "[END ") hmem (by decide),
      begins_append_of_mem (p := "[ELSE") hmem (by decide)]
  unfold directiveStep
  rw [hext, hrest]
  simp only [List.cons_append]
  rw [← List.cons_append]
  simp only [hblock, begins_append_of_mem (p := "\x7b\x7b") hmem (by decide), number?_append hstop,
    operator?_append_of_stopped hstop, pathWord?_append hstop]
  split
  · exact .stay ht
  split
  · exact .one hone
  split
  · rename_i hb
    exact .one (hrest ▸ begins_iff.mp hb)
  split
  · split
    · rename_i w hop
      have hw : w <+: c.rest := hrest ▸ operator?_isPrefix hop
      refine .operator hw fun hnil => not_mem_of_operator? hop ?_
      rwa [← hrest, c.rest_after hw, hnil, List.append_nil] at hmem
    · exact .reject
  split
  · exact .one hone
  split
  · rename_i hq
    exact .literal hrest (by rintro rfl; simp at hq)
  split
  · exact .one (hrest ▸ number?_isPrefix (by assumption))
  rcases hid : identifier? (ch :: cs) with _ | w
  · rw [identifier?_append_of_none hid (List.cons_ne_nil _ _)]
    dsimp only
    split
    · exact .one (hrest ▸ pathWord?_isPrefix (by assumption))
    · exact .reject
  · refine .identifier (m := .directive t) (hrest ▸ hid)
      (fun cs h => ⟨']', List.singleton_sublist.mp h, rfl⟩) fun hid' => ?_
    rw [hrest] at hid'
    rw [hid']

lemma extends_quotedStep (ht : t.kind = .error) (h : (Mode.quoted t i).closers <+ c.rest) :
    (quotedStep t i c).Extends (quotedStep t i (c.extend z)) z := by
  obtain ⟨ch, cs, hrest⟩ := List.exists_cons_of_ne_nil (l := c.rest) (by
    rintro heq
    simp [heq, Mode.closers] at h)
  have hext : (c.extend z).rest = ch :: (cs ++ z) := by rw [Cursor.extend, hrest, List.cons_append]
  have hone : [ch] <+: c.rest := hrest ▸ ⟨cs, rfl⟩
  unfold quotedStep
  rw [hext, hrest]
  dsimp only
  split
  · exact .one hone
  split
  · exact .one hone
  split
  · rename_i hq
    exact .literal hrest (by rintro rfl; simp at hq)
  · exact .stay ht

lemma directiveHead_append {cs : List Char} (h : ']' ∈ cs.drop (directiveHead cs).length)
    (hd : beginsDirective cs = true) (z : List Char) :
    directiveHead (cs ++ z) = directiveHead cs := by
  unfold beginsDirective at hd
  split at hd
  · rename_i ch cs
    have hmem : ']' ∈ ch :: cs := List.mem_of_mem_drop (by simpa [directiveHead] using h)
    have hstop : Stopped (ch :: cs) := ⟨']', hmem, rfl⟩
    exact congrArg ('[' :: '#' :: ·) (hstop.takeWhile_append runs_isNameStart z)
  · cases hd

lemma extends_textStep (hne : c.rest ≠ "[ELSE IF".toList)
    (hplain : opening? c.rest = none → (textStep c).cursor.rest ≠ [] ∧
      (textStep c).cursor.rest ≠ "[ELSE IF".toList) (hc : c.rest ≠ []) :
    (textStep c).Extends (textStep (c.extend z)) z := by
  have hext : (c.extend z).rest = c.rest ++ z := rfl
  rcases ho : opening? c.rest with _ | o
  · unfold textStep at hplain ⊢
    rw [ho] at hplain ⊢
    obtain ⟨hy, hy'⟩ := hplain rfl
    have hw := plainRun_isPrefix c.rest
    have hrest := c.rest_after hw
    obtain ⟨o, hopens⟩ := opens_of_plainRun hrest hy
    have hrun := plainRun_append hrest hopens (hopens.append hy' z)
    have hpos := plainRun_length hc ho
    rw [hrest] at ho
    have ho' := opening?_append_eq_none (z := z) (List.length_pos_iff.mp hpos) hopens ho
    rw [← hrest] at ho'
    rw [hext, ho', hrun]
    exact .one hw
  · have hopens := opens_of_opening? ho
    have ho' := (hopens.append hne z).opening?
    have htwo := hopens.two_le
    have hdir : unclosedDirective (c.extend z) = unclosedDirective c := by
      rw [unclosedDirective, unclosedDirective, hext, List.take_append_of_le_length htwo]
      rfl
    unfold textStep
    rw [hext, ho, ho']
    cases hopens with
    | slot h => exact .one h
    | directive hc' h =>
      dsimp only
      rw [hdir]
      intro hclean hclosers
      rw [directiveHead_append (List.singleton_sublist.mp hclosers)
        (beginsDirective_of_opening? ho)]
      exact Step.Extends.one (directiveHead_isPrefix _) hclean hclosers
    | elseIf h =>
      dsimp only
      rw [hdir]
      exact .one ⟨_, h.symm⟩
    | closer hn h => exact .one h
    | context h =>
      obtain ⟨r, hr⟩ := h
      have hr : c.rest = "#context".toList ++ '(' :: r := hr.symm
      refine .operator ⟨_, hr.symm⟩ ?_
      simp [Cursor.after, hr]

/-! ### Sources without errors -/

/-- A source without errors does not stop within an else-if. -/
lemma ne_elseIf_of_clean (h : Clean (scan .text c)) : c.rest ≠ "[ELSE IF".toList := by
  intro hrest
  have hf : finished .text c = false := by simp [finished, hrest]
  have ho : opening? c.rest = some .elseIf := hrest ▸ rfl
  rw [scan_unfinished hf, clean_append] at h
  have hlawful : (step .text c).Lawful .text c.rest.length := lawful_step trivial hf
  have hclosers := closers_of_clean hlawful.faulty h.2
  rw [step, textStep, ho] at hclosers
  simp [Step.one, Mode.closers, Cursor.after, hrest] at hclosers

/-- **A step at the end of a source**: without an error, and with plain text only where more
follows, it is the same with more text behind. -/
lemma extend_step (hm : m.Faulty) (hf : finished m c = false) (h : Clean (scan m c))
    (hplain : m = .text → opening? c.rest = none → (step m c).cursor.rest ≠ []) (z : List Char) :
    step m (c.extend z) = (step m c).extend z := by
  have hrest := h
  rw [scan_unfinished hf, clean_append] at hrest
  obtain ⟨hclean, hscan⟩ := hrest
  have hopen := closers_of_clean (lawful_step hm hf).faulty hscan
  cases m with
  | text =>
    refine extends_textStep (ne_elseIf_of_clean h) (fun ho => ⟨hplain rfl ho, ?_⟩)
      (by simpa [finished] using hf) hclean hopen
    have hmode : (textStep c).mode = .text := by
      unfold textStep
      rw [ho]
      rfl
    refine ne_elseIf_of_clean ?_
    rw [step, hmode] at hscan
    exact hscan
  | directive t =>
    have hahead := (reaches_directiveStep hm c.skipBlanks).ahead hclean hopen
    have hne : c.skipBlanks.rest ≠ [] := List.ne_nil_of_mem (hahead.subset (List.mem_cons_self))
    rw [step, Cursor.extend_skipBlanks hne]
    exact extends_directiveStep hm hahead hclean hopen
  | slot t i =>
    have hahead := (reaches_slotStep hm.1 c.skipBlanks).ahead hclean hopen
    have hne : c.skipBlanks.rest ≠ [] := List.ne_nil_of_mem (hahead.subset (List.mem_cons_self))
    rw [step, Cursor.extend_skipBlanks hne]
    exact extends_slotStep hm.1 hahead hclean hopen
  | quoted t i =>
    have hahead := (reaches_quotedStep hm.1 c.skipBlanks).ahead hclean hopen
    have hne : c.skipBlanks.rest ≠ [] := List.ne_nil_of_mem (hahead.subset (List.mem_cons_self))
    rw [step, Cursor.extend_skipBlanks hne]
    exact extends_quotedStep hm.1 hahead hclean hopen

/-- The last of the tokens before the end of the input is not plain text. -/
def EndsMarked (ts : List Token) : Prop := ∀ t ∈ ts.dropLast.getLast?, t.kind ≠ .text

lemma EndsMarked.of_append {ts us : List Token} (h : EndsMarked (ts ++ us)) (hus : us ≠ []) :
    EndsMarked us := by
  intro t ht
  refine h t ?_
  rw [List.dropLast_append_of_ne_nil hus, List.getLast?_append, Option.mem_def.mp ht]
  rfl

/-- Where the source does not end with plain text, there is more behind plain text. -/
lemma rest_ne_nil_of_endsMarked (hf : finished .text c = false)
    (hlast : EndsMarked (scan .text c)) (ho : opening? c.rest = none) :
    (step .text c).cursor.rest ≠ [] := by
  intro hnil
  have hone : step .text c = Step.one c .text .text (plainRun c.rest) := by
    rw [step, textStep, ho]
  rw [hone] at hnil
  have hend : finished .text (c.after (plainRun c.rest)) = true := by
    simpa [finished, Step.one] using hnil
  refine hlast (c.token .text (plainRun c.rest)) ?_ rfl
  rw [scan_unfinished hf, hone, Step.one, scan_finished hend]
  rfl

lemma finished_extend (hf : finished m c = false) (z : List Char) :
    finished m (c.extend z) = false := by
  cases m with
  | text =>
    have hne : c.rest ≠ [] := by simpa [finished] using hf
    simp [finished, Cursor.extend, hne]
  | _ => rfl

/-- A scan without errors that does not end with plain text finds the same with more text behind,
and goes on there as from the beginning of a source. -/
lemma scan_extend (hm : m.Faulty) (h : Clean (scan m c)) (hlast : EndsMarked (scan m c))
    (z : List Char) : scan m (c.extend z) =
      (scan m c).dropLast ++ scan .text ⟨c.pos.advance c.rest, z⟩ := by
  induction m, c using scan.induct with
  | case1 m c hf =>
    rw [scan_finished hf]
    cases m with
    | text =>
      have hrest : c.rest = [] := by simpa [finished] using hf
      rw [Cursor.extend, hrest]
      rfl
    | _ => simp [finished] at hf
  | case2 m c hf s ih =>
    have hf : finished m c = false := by simpa using hf
    have hs := (lawful_step hm hf).faulty
    have hne : scan s.mode s.cursor ≠ [] := by
      obtain ⟨ts, e, hshape, -⟩ := scan_shape s.mode s.cursor hs
      simp [hshape]
    have hplain : m = .text → opening? c.rest = none → s.cursor.rest ≠ [] := by
      rintro rfl
      exact rest_ne_nil_of_endsMarked hf hlast
    rw [scan_unfinished (finished_extend hf z), extend_step hm hf h hplain]
    rw [scan_unfinished hf] at h hlast ⊢
    rw [List.dropLast_append_of_ne_nil hne, List.append_assoc]
    obtain ⟨v, hrest, hpos, -⟩ := reaches_step hm c
    have hend : c.pos.advance c.rest = s.cursor.pos.advance s.cursor.rest := by
      rw [hrest, Position.advance_append]
      exact congrArg (Position.advance · _) hpos.symm
    rw [hend]
    exact congrArg _ (ih hs (clean_append.mp h).2 (hlast.of_append hne))

end Source

open Source

/-- **Tokens of two sources**, the first without errors and not ending with plain text: those of
the first, and behind them those of the second, moved. -/
theorem tokenize_append {w : String} (h : Clean (tokenize w)) (hlast : EndsMarked (tokenize w))
    (u : String) : tokenize (w ++ u) = (tokenize w).dropLast ++
      (tokenize u).map (·.shift (Position.origin.advance w.toList)) := by
  have hq : (Position.origin.advance w.toList).Counted :=
    Position.Counted.advance ⟨Nat.one_pos, Nat.one_pos⟩ _
  have hscan := scan_extend (m := .text) (c := ⟨.origin, w.toList⟩) trivial h hlast u.toList
  rw [← scan_behind hq, tokenize, String.toList_append]
  exact hscan

end Stencil
