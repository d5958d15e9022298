import Stencil.Proofs.Source.Literal
import Stencil.Proofs.Template.Derived
import Stencil.Proofs.Template.Proper
import Stencil.Template.Outline

/-!
Conditions in source form are read back as themselves.

Groups stand in parentheses and nothing else does, so that a condition is read as one operand of
any connective, whatever stands behind it. Its tokens are found piece by piece (`ReadAs`), names
in a mode of their own and arguments either raw, up to the parenthesis that closes them, or in
quotes; what they are a condition of is then a derivation along the condition.
-/

namespace Stencil

/-! ### Conditions that can be read back -/

/-- The parentheses among the characters are balanced, if `depth` more stand open in front. -/
def balanced : (depth : Nat) → List Char → Bool
  | depth, [] => depth == 0
  | depth, c :: cs =>
    if c == '(' then balanced (depth + 1) cs
    else if c == ')' then depth != 0 && balanced (depth - 1) cs
    else balanced depth cs

/-- A text that stands in parentheses as it is. -/
structure IsRaw (s : String) : Prop where
  ne_empty : s ≠ ""
  stripped : Text.strip s = s
  line : '\n' ∉ s.toList
  unquoted : ∀ c ∈ s.toList.head?, c ≠ '"' ∧ c ≠ '\''
  balanced : balanced 0 s.toList = true

/-- A printable character of ASCII, a newline or a tab. -/
def IsSimple (c : Char) : Prop := 32 ≤ c.toNat ∧ c.toNat < 127 ∨ c = '\n' ∨ c = '\t'

instance (c : Char) : Decidable (IsSimple c) := inferInstanceAs (Decidable (_ ∨ _))

/-- The whole name is one path of a variable. -/
def IsPath (name : String) : Prop := Source.identifier? name.toList = some name.toList

/-- An argument that is read back. -/
inductive Argument.Legible : Argument → Prop
  | none : Legible .none
  | text {s : String} (hs : IsRaw s) : Legible (.text s)
  | texts {ss : List String} (hlength : 2 ≤ ss.length)
      (hss : ∀ s ∈ ss, ∀ c ∈ s.toList, IsSimple c) : Legible (.texts ss)

/-- A condition that is read back. -/
inductive Condition.Legible : Condition → Prop
  | literal (b : Bool) (span : Span) : Legible (.literal b span)
  | ref {name : String} (span : Span) (hname : IsPath name) : Legible (.ref name span)
  | not {c : Condition} (span : Span) (hc : Legible c) : Legible (.not c span)
  | and {cs : List Condition} (span : Span) (hlength : 2 ≤ cs.length)
      (hcs : ∀ c ∈ cs, Legible c) : Legible (.and cs span)
  | or {cs : List Condition} (span : Span) (hlength : 2 ≤ cs.length)
      (hcs : ∀ c ∈ cs, Legible c) : Legible (.or cs span)
  | compare {name op : String} {arg : Argument} (span : Span) (hname : IsPath name)
      (hop : Operators.IsUsable op) (harg : arg.Legible) : Legible (.compare name op arg span)
  | judge {name question : String} (span : Span) (hname : IsPath name) (hq : IsRaw question) :
      Legible (.judge name question span)
  | present {path : String} (span : Span) (hpath : IsRaw path) : Legible (.present path span)

/-! ### Arguments -/

namespace Source

/-- What a raw argument is read as: itself, up to the parenthesis that closes it. -/
lemma rawArgument_of_balanced {w : List Char} {depth : Nat} (h : balanced depth w = true)
    (hw : '\n' ∉ w) (rest : List Char) : rawArgument depth (w ++ ')' :: rest) = w := by
  induction w generalizing depth with
  | nil =>
    obtain rfl : depth = 0 := by simpa [balanced] using h
    rfl
  | cons c w ih =>
    obtain ⟨hc, hw⟩ := List.ne_and_not_mem_of_not_mem_cons hw
    rw [balanced] at h
    rw [List.cons_append, rawArgument.eq_def]
    dsimp only
    rw [if_neg (by simpa using hc.symm)]
    split at h
    · rename_i hopen
      rw [if_pos hopen, ih h hw]
    · rename_i hopen
      rw [if_neg hopen]
      split at h
      · rename_i hclose
        rw [if_pos hclose]
        obtain ⟨hdepth, h⟩ := Bool.and_eq_true_iff.mp h
        obtain ⟨depth, rfl⟩ := Nat.exists_eq_succ_of_ne_zero (by simpa using hdepth)
        exact congrArg (c :: ·) (ih h hw)
      · rename_i hclose
        rw [if_neg hclose, ih h hw]

/-- A character in quotes is read as itself. -/
lemma literalTail_escapedChar {c : Char} (hc : IsSimple c) (cs : List Char) :
    literalTail '"' (Json.escapedChar true c ++ cs) =
      ⟨Json.escapedChar true c ++ (literalTail '"' cs).taken, c :: (literalTail '"' cs).value,
        (literalTail '"' cs).closed⟩ := by
  by_cases hescaped : c = '"' ∨ c = '\\' ∨ c = '\n' ∨ c = '\t'
  · rcases hescaped with rfl | rfl | rfl | rfl <;> rfl
  · simp only [not_or] at hescaped
    obtain ⟨hquote, hbackslash, hline, htab⟩ := hescaped
    have hprintable : 32 ≤ c.toNat ∧ c.toNat < 127 := by
      rcases hc with h | h | h
      · exact h
      · exact absurd h hline
      · exact absurd h htab
    have hreturn : c ≠ '\r' := by
      rintro rfl
      exact absurd hprintable.1 (by decide)
    have hself : Json.escapedChar true c = [c] := by
      simp [Json.escapedChar, hquote, hbackslash, hline, htab, hreturn]
      rw [if_neg (by omega), if_neg (by omega), if_neg (by omega), if_neg (by omega)]
    rw [hself, List.singleton_append, literalTail_cons hbackslash hquote hline,
      List.singleton_append]

/-- A text in quotes is read as itself. -/
lemma literalTail_quoted {cs : List Char} (hcs : ∀ c ∈ cs, IsSimple c) (rest : List Char) :
    literalTail '"' (cs.flatMap (Json.escapedChar true) ++ '"' :: rest) =
      ⟨cs.flatMap (Json.escapedChar true) ++ ['"'], cs, true⟩ := by
  induction cs with
  | nil => rfl
  | cons c cs ih =>
    obtain ⟨hc, hcs⟩ := List.forall_mem_cons.mp hcs
    rw [List.flatMap_cons, List.append_assoc, literalTail_escapedChar hc, ih hcs,
      List.append_assoc]

/-! ### Tokens -/

/-- Any mode but that of text skips blanks first. -/
lemma scan_blank {mode : Mode} (hm : mode ≠ .text) (p : Position) (rest : List Char) :
    scan mode ⟨p, ' ' :: rest⟩ = scan mode ⟨p.advance [' '], rest⟩ := by
  have hskip : (⟨p, ' ' :: rest⟩ : Cursor).skipBlanks =
      (⟨p.advance [' '], rest⟩ : Cursor).skipBlanks := by
    unfold Cursor.skipBlanks Cursor.after
    dsimp only
    rw [List.takeWhile_cons_of_pos (by decide)]
    rfl
  have hstep : step mode ⟨p, ' ' :: rest⟩ = step mode ⟨p.advance [' '], rest⟩ := by
    cases mode with
    | text => exact absurd rfl hm
    | directive u => exact congrArg (directiveStep u) hskip
    | slot u i => exact congrArg (slotStep u i) hskip
    | quoted u i => exact congrArg (quotedStep u i) hskip
  have hrun (c : Cursor) : finished mode c = false := by
    cases mode with
    | text => exact absurd rfl hm
    | _ => rfl
  rw [scan_unfinished (hrun _), scan_unfinished (hrun _), hstep]

/-- What may stand behind a condition: a blank or something that closes. -/
def Follows (rest : List Char) : Prop :=
  ∃ c cs, rest = c :: cs ∧ (c = ' ' ∨ c = ')' ∨ c = ']')

lemma follows_blank (w : List Char) : Follows (' ' :: w) := ⟨' ', w, rfl, .inl rfl⟩

/-- Inside a directive the characters are read as tokens that satisfy `G`, whatever stands
behind them. -/
def ReadAs (w : List Char) (G : List Token → Prop) : Prop :=
  ∀ (u : Token) (p : Position) (rest : List Char), Follows rest → ∃ ts q, G ts ∧
    scan (.directive u) ⟨p, w ++ rest⟩ = ts ++ scan (.directive u) ⟨q, rest⟩

/-- One piece behind another. -/
lemma ReadAs.append {w v : List Char} {G H K : List Token → Prop} (hw : ReadAs w G)
    (hv : ReadAs v H) (hfollows : ∀ rest, Follows rest → Follows (v ++ rest))
    (hK : ∀ ts us, G ts → H us → K (ts ++ us)) : ReadAs (w ++ v) K := by
  intro u p rest hrest
  obtain ⟨ts, q, hts, hw⟩ := hw u p (v ++ rest) (hfollows rest hrest)
  obtain ⟨us, q', hus, hv⟩ := hv u q rest hrest
  exact ⟨ts ++ us, q', hK ts us hts hus, by rw [List.append_assoc, hw, hv, List.append_assoc]⟩

lemma ReadAs.mono {w : List Char} {G H : List Token → Prop} (h : ReadAs w G)
    (hG : ∀ ts, G ts → H ts) : ReadAs w H := by
  intro u p rest hrest
  obtain ⟨ts, q, hts, hw⟩ := h u p rest hrest
  exact ⟨ts, q, hG ts hts, hw⟩

lemma ReadAs.blank {w : List Char} {G : List Token → Prop} (h : ReadAs w G) :
    ReadAs (' ' :: w) G := by
  intro u p rest hrest
  obtain ⟨ts, q, hts, hw⟩ := h u (p.advance [' ']) rest hrest
  exact ⟨ts, q, hts, by rw [List.cons_append, scan_blank (by simp), hw]⟩

/-- The words of conditions. -/
lemma readAs_word {w : String} (hw : w ∈ ["NOT", "AND", "OR", "true", "false"]) :
    ReadAs w.toList fun ts => ∃ p, ts = [⟨.identifier, w, p, some w⟩] := by
  rintro u p _ ⟨c, cs, rfl, hc⟩
  simp only [List.mem_cons, List.not_mem_nil, or_false] at hw
  rcases hw with rfl | rfl | rfl | rfl | rfl <;> rcases hc with rfl | rfl | rfl <;>
    exact ⟨_, _, ⟨_, rfl⟩, scan_step rfl rfl⟩

/-- A parenthesis around a group. -/
lemma scan_leftParen (u : Token) (p : Position) (rest : List Char) :
    scan (.directive u) ⟨p, '(' :: rest⟩ =
      ⟨.leftParen, "(", p, none⟩ :: scan (.directive u) ⟨p.advance ['('], rest⟩ :=
  scan_step rfl rfl

lemma scan_rightParen (u : Token) (p : Position) (rest : List Char) :
    scan (.directive u) ⟨p, ')' :: rest⟩ =
      ⟨.rightParen, ")", p, none⟩ :: scan (.directive u) ⟨p.advance [')'], rest⟩ :=
  scan_step rfl rfl

/-- A group in parentheses. -/
lemma ReadAs.group {w : List Char} {G : List Token → Prop} (h : ReadAs w G) :
    ReadAs ('(' :: (w ++ [')'])) fun ts => ∃ l us r, ts = l :: (us ++ [r]) ∧ l.kind = .leftParen ∧
      G us ∧ r.kind = .rightParen := by
  intro u p rest _
  obtain ⟨us, q, hus, hw⟩ := h u (p.advance ['(']) (')' :: rest) ⟨')', rest, rfl, by simp⟩
  refine ⟨_, q.advance [')'],
    ⟨⟨.leftParen, "(", p, none⟩, us, ⟨.rightParen, ")", q, none⟩, rfl, rfl, hus, rfl⟩, ?_⟩
  rw [List.cons_append, List.append_assoc, List.singleton_append, scan_leftParen, hw,
    scan_rightParen, List.cons_append, List.append_assoc, List.singleton_append]

/-! ### Variables -/

/-- What a path starts with starts nothing else. -/
lemma start_of_isPath {c : Char} (hc : (isNameStart c || c == '@') = true) :
    Text.isBlank c = false ∧ Text.isDigit c = false ∧
      c ∉ ['\x7b', '\x7d', '[', ']', '?', ':', '"', '\'', '-', '#', '(', ')', ',', '='] := by
  rcases Bool.or_eq_true_iff.mp hc with h | h
  · exact forall_isNamePart (P := fun c => isNameStart c = true → Text.isBlank c = false ∧
      Text.isDigit c = false ∧
      c ∉ ['\x7b', '\x7d', '[', ']', '?', ':', '"', '\'', '-', '#', '(', ')', ',', '='])
      (by decide +kernel) (isNamePart_of_isNameStart h) h
  · obtain rfl : c = '@' := by simpa using h
    decide

lemma number?_eq_none {c : Char} {cs : List Char} (hc : c ≠ '-') (hd : Text.isDigit c = false) :
    number? (c :: cs) = none := by
  rw [number?, unsignedNumber?, List.takeWhile_cons_of_neg (by simp [hd])]
  · rfl
  · rintro ds h
    exact absurd (List.cons.inj h).1 hc

lemma begins_eq_false {w : String} {a c : Char} {v cs : List Char} (hw : w.toList = a :: v)
    (hc : c ≠ a) : begins w (c :: cs) = false := by
  rw [begins, hw, Text.dropLead?, if_neg (by simpa using hc.symm)]
  rfl

/-- A path in a slot, in front of a text that does not continue it. -/
lemma slotStep_of_isPath {name : String} (h : IsPath name) (u : Token) (i : Option Token)
    (p : Position) (rest : List Char) (hkeys : Ends isKeyPart rest) (hkey : key? rest = none)
    (hindex : index? rest = none) :
    step (.slot u i) ⟨p, name.toList ++ rest⟩ =
      ⟨[⟨.identifier, name, p, some name⟩], .slot u i, ⟨p.advance name.toList, rest⟩⟩ := by
  have hpath : identifier? (name.toList ++ rest) = some name.toList := by
    refine identifier?_swap (y := []) ?_ (fun _ => hkeys) hkey hindex
    rw [List.append_nil]
    exact h
  obtain ⟨c, cs, hname, hc⟩ := isName_of_identifier? h
  rw [String.ofList_toList] at hname
  obtain ⟨hblank, hdigit, hnone⟩ := start_of_isPath hc
  simp only [List.mem_cons, not_or, List.not_mem_nil, not_false_eq_true, and_true] at hnone
  have hskip : (⟨p, c :: (cs ++ rest)⟩ : Cursor).skipBlanks = ⟨p, c :: (cs ++ rest)⟩ := by
    unfold Cursor.skipBlanks Cursor.after
    rw [List.takeWhile_cons_of_neg (by simp [hblank])]
    rfl
  have hclose : begins "\x7d\x7d" (c :: (cs ++ rest)) = false := begins_eq_false rfl (by tauto)
  have hmark : begins "??" (c :: (cs ++ rest)) = false := begins_eq_false rfl (by tauto)
  have hnumber : number? (c :: (cs ++ rest)) = none := number?_eq_none (by tauto) hdigit
  have hafter : (⟨p, c :: (cs ++ rest)⟩ : Cursor).after (c :: cs) =
      ⟨p.advance (c :: cs), rest⟩ := by
    simp [Cursor.after]
  have hlexeme : String.ofList (c :: cs) = name := by rw [← hname, String.ofList_toList]
  rw [hname, List.cons_append] at hpath ⊢
  change slotStep u i (Cursor.skipBlanks _) = _
  rw [hskip]
  unfold slotStep
  simp only [hclose, hmark, hnumber, hpath]
  rw [if_neg (by simp), if_neg (by simp; tauto), if_neg (by simp), if_neg (by simp; tauto),
    if_neg (by simp; tauto), Step.one, hafter, Cursor.token, Option.map_some, hlexeme]

/-- A variable in braces. -/
lemma readAs_slot {name : String} (h : IsPath name) : ReadAs (slotText name).toList fun ts =>
    ∃ p₁ p₂ p₃, ts = [⟨.slotOpen, "\x7b\x7b", p₁, none⟩, ⟨.identifier, name, p₂, some name⟩,
      ⟨.slotClose, "\x7d\x7d", p₃, none⟩] := by
  intro u p rest _
  have htext : (slotText name).toList ++ rest =
      '\x7b' :: '\x7b' :: (name.toList ++ '\x7d' :: '\x7d' :: rest) := by
    simp [slotText]
  obtain ⟨v, q, hopen⟩ : ∃ v q, scan (.directive u) ⟨p, (slotText name).toList ++ rest⟩ =
      ⟨.slotOpen, "\x7b\x7b", p, none⟩ ::
        scan (.slot v (some u)) ⟨q, name.toList ++ '\x7d' :: '\x7d' :: rest⟩ := by
    rw [htext]
    exact ⟨_, _, scan_step rfl rfl⟩
  obtain ⟨q', hclose⟩ : ∃ q', scan (.slot v (some u)) ⟨q.advance name.toList,
      '\x7d' :: '\x7d' :: rest⟩ = ⟨.slotClose, "\x7d\x7d", q.advance name.toList, none⟩ ::
        scan (.directive u) ⟨q', rest⟩ :=
    ⟨_, scan_step rfl rfl⟩
  refine ⟨_, q', ⟨p, q, q.advance name.toList, rfl⟩, ?_⟩
  have hname := slotStep_of_isPath h v (some u) q ('\x7d' :: '\x7d' :: rest)
    (ends_cons.mpr (by decide)) rfl rfl
  rw [hopen, scan_step rfl hname, hclose]
  rfl

/-! ### Operators -/

/-- The token of an operator. -/
def operatorToken (op : String) (p : Position) : Token := ⟨.operator, "#" ++ op, p, some op⟩

lemma step_operator {op : String} (hop : IsWord op) (u : Token) (p : Position) {rest : List Char}
    (hrest : Ends isNamePart rest) : step (.directive u) ⟨p, '#' :: (op.toList ++ rest)⟩ =
      operatorStep ⟨p, '#' :: (op.toList ++ rest)⟩ (some u) ('#' :: op.toList) := by
  obtain ⟨c, cs, hname, hc, hcs⟩ := hop
  have hop : operator? ('#' :: (op.toList ++ rest)) = some ('#' :: op.toList) := by
    rw [hname]
    exact operator?_append hc hcs hrest
  have hblock : beginsBlock ('#' :: (op.toList ++ rest)) = false := rfl
  change directiveStep u ⟨p, '#' :: (op.toList ++ rest)⟩ = _
  unfold directiveStep
  simp only [hblock, hop]
  rfl

lemma after_operator (op : String) (p : Position) (rest : List Char) :
    (⟨p, '#' :: (op.toList ++ rest)⟩ : Cursor).after ('#' :: op.toList) =
      ⟨(operatorToken op p).stop, rest⟩ := by
  have hstop : (operatorToken op p).stop = p.advance ('#' :: op.toList) := by
    simp [operatorToken, Token.stop]
  rw [hstop]
  simp [Cursor.after]

lemma token_operator (op : String) (p : Position) (cs : List Char) :
    (⟨p, cs⟩ : Cursor).token .operator ('#' :: op.toList) (some op.toList) =
      operatorToken op p := by
  have hlexeme : String.ofList ('#' :: op.toList) = "#" ++ op := by
    rw [← String.toList_inj]
    simp
  simp [Cursor.token, operatorToken, hlexeme]

/-- An operator without arguments. -/
lemma readAs_operator {op : String} (hop : IsWord op) :
    ReadAs ('#' :: op.toList) fun ts => ∃ p, ts = [operatorToken op p] := by
  rintro u p _ ⟨c, cs, rfl, hc⟩
  have hrest : Ends isNamePart (c :: cs) := by
    rcases hc with rfl | rfl | rfl <;> exact ends_cons.mpr (by decide)
  refine ⟨_, (operatorToken op p).stop, ⟨p, rfl⟩, scan_step rfl ?_⟩
  rw [List.cons_append, step_operator hop u p hrest, operatorStep, List.drop_one, List.tail_cons,
    token_operator, after_operator]
  rcases hc with rfl | rfl | rfl <;> rfl

/-! ### Raw arguments -/

lemma trimBlanks_of_isRaw {s : String} (h : IsRaw s) : Text.trimBlanks s.toList = s.toList := by
  have hstrip := congrArg String.toList h.stripped
  rwa [Text.strip, String.toList_ofList] at hstrip

/-- What is stripped already starts with no blank. -/
lemma start_of_isRaw {s : String} (h : IsRaw s) :
    ∃ c cs, s.toList = c :: cs ∧ Text.isBlank c = false := by
  have hne : s.toList ≠ [] := by
    rw [Ne, String.toList_eq_nil_iff]
    exact h.ne_empty
  obtain ⟨c, cs, hc⟩ := List.exists_cons_of_ne_nil hne
  refine ⟨c, cs, hc, ?_⟩
  by_contra hb
  have hlength := congrArg List.length (trimBlanks_of_isRaw h)
  have hdrop := (cs.dropWhile_suffix Text.isBlank).length_le
  have htrimmed : (Text.trimBlanks (c :: cs)).length ≤ (cs.dropWhile Text.isBlank).length := by
    rw [Text.trimBlanks, List.dropWhile_cons_of_pos (by simpa using hb), List.length_reverse]
    exact ((List.dropWhile_suffix _).length_le).trans_eq List.length_reverse
  rw [hc, List.length_cons] at hlength
  omega

/-- The characters of a raw argument, between its parentheses. -/
lemma argumentStep_of_isRaw {arg : String} (h : IsRaw arg) (before : List Token) (u : Token)
    (p : Position) (rest : List Char) :
    argumentStep before ⟨p, '(' :: (arg.toList ++ ')' :: rest)⟩ (some u) =
      ⟨before ++ [⟨.argument, arg, p.advance ['('], some arg⟩] ++
          [⟨.rightParen, ")", (p.advance ['(']).advance arg.toList, none⟩],
        .directive u, ⟨((p.advance ['(']).advance arg.toList).advance [')'], rest⟩⟩ := by
  have hraw : rawArgument 0 (arg.toList ++ ')' :: rest) = arg.toList :=
    rawArgument_of_balanced h.balanced h.line rest
  obtain ⟨c, cs, hc, hblank⟩ := start_of_isRaw h
  have hskip : ((⟨p, '(' :: (arg.toList ++ ')' :: rest)⟩ : Cursor).after ['(']).skipBlanks =
      ⟨p.advance ['('], arg.toList ++ ')' :: rest⟩ := by
    change (⟨p.advance ['('], arg.toList ++ ')' :: rest⟩ : Cursor).skipBlanks = _
    unfold Cursor.skipBlanks Cursor.after
    rw [hc, List.cons_append, List.takeWhile_cons_of_neg (by simp [hblank])]
    rfl
  have hafter : (⟨p.advance ['('], arg.toList ++ ')' :: rest⟩ : Cursor).after arg.toList =
      ⟨(p.advance ['(']).advance arg.toList, ')' :: rest⟩ := by
    simp [Cursor.after]
  have hunquoted : ∀ d ∈ (arg.toList ++ ')' :: rest).head?, d ≠ '"' ∧ d ≠ '\'' := by
    rw [hc]
    exact fun d hd => h.unquoted d (by rwa [hc])
  rw [argumentStep_raw hskip hunquoted hraw (congrArg Cursor.rest hafter), hafter,
    trimBlanks_of_isRaw h, if_neg (by simp [hc])]
  simp [Cursor.token, Cursor.after, Mode.around]

/-- An operator that a parenthesis stands right behind. -/
lemma step_applied {op : String} (hop : IsWord op) (u : Token) (p : Position) (rest : List Char) :
    step (.directive u) ⟨p, '#' :: (op.toList ++ '(' :: rest)⟩ =
      argumentStep [operatorToken op p, ⟨.leftParen, "(", (operatorToken op p).stop, none⟩]
        ⟨(operatorToken op p).stop, '(' :: rest⟩ (some u) := by
  rw [step_operator hop u p (ends_cons.mpr (by decide)), operatorStep, List.drop_one,
    List.tail_cons, token_operator, after_operator]
  rfl

/-- An operator with a raw argument. -/
lemma readAs_raw {op arg : String} (hop : IsWord op) (harg : IsRaw arg) :
    ReadAs ('#' :: (op.toList ++ '(' :: (arg.toList ++ [')']))) fun ts => ∃ p us,
      ts = operatorToken op p :: us ∧
        Template.Grammar.Arguments (operatorToken op p) us (.text arg) := by
  intro u p rest _
  have hw : '#' :: (op.toList ++ '(' :: (arg.toList ++ [')'])) ++ rest =
      '#' :: (op.toList ++ '(' :: (arg.toList ++ ')' :: rest)) := by simp
  obtain ⟨p₁, p₂, q, hstep⟩ : ∃ p₁ p₂ q,
      step (.directive u) ⟨p, '#' :: (op.toList ++ '(' :: (arg.toList ++ ')' :: rest))⟩ =
        ⟨operatorToken op p :: ⟨.leftParen, "(", (operatorToken op p).stop, none⟩ ::
          ([⟨.argument, arg, p₁, some arg⟩] ++ [⟨.rightParen, ")", p₂, none⟩]),
          .directive u, ⟨q, rest⟩⟩ := by
    rw [step_applied hop, argumentStep_of_isRaw harg]
    exact ⟨_, _, _, rfl⟩
  have harguments : Template.Grammar.Arguments (operatorToken op p)
      (⟨.leftParen, "(", (operatorToken op p).stop, none⟩ ::
        ([⟨.argument, arg, p₁, some arg⟩] ++ [⟨.rightParen, ")", p₂, none⟩])) (.text arg) :=
    .mk rfl rfl (.raw rfl) rfl
  refine ⟨_, q, ⟨p, _, rfl, harguments⟩, ?_⟩
  rw [hw, scan_unfinished rfl, hstep]

/-! ### Quoted arguments -/

/-- A text in quotes is a literal. -/
lemma spells_quotedText {s : String} (hs : ∀ c ∈ s.toList, IsSimple c) :
    Spells (Json.quotedText true s).toList s := by
  refine .mk .double (s.toList.flatMap (Json.escapedChar true) ++ ['"']) ?_ fun rest => ?_
  · simp [Json.quotedText, Json.quotedChars, Quote.mark]
  · rw [List.append_assoc, List.singleton_append]
    exact literalTail_quoted hs rest

/-- Literals behind the first, each behind a comma and a blank. -/
def furtherLiterals (ls : List (List Char × String)) : List Char :=
  ls.flatMap fun l => ", ".toList ++ l.1

/-- Further literals and the parenthesis behind them. -/
lemma scan_literals {ls : List (List Char × String)} (hls : ∀ l ∈ ls, Spells l.1 l.2) (v : Token)
    (u : Token) (p : Position) (rest : List Char) : ∃ ts r q,
      Template.Grammar.Literals ts (ls.map Prod.snd) ∧ r.kind = .rightParen ∧
        scan (.quoted v (some u)) ⟨p, furtherLiterals ls ++ ')' :: rest⟩ =
          ts ++ r :: scan (.directive u) ⟨q, rest⟩ := by
  induction ls generalizing p with
  | nil => exact ⟨[], _, _, .nil, rfl, scan_step rfl rfl⟩
  | cons l ls ih =>
    obtain ⟨hl, hls⟩ := List.forall_mem_cons.mp hls
    obtain ⟨ts, r, q, hts, hr, hscan⟩ := ih hls (((p.advance [',']).advance [' ']).advance l.1)
    have hcomma (cs : List Char) : scan (.quoted v (some u)) ⟨p, ", ".toList ++ cs⟩ =
        ⟨.comma, ",", p, none⟩ :: scan (.quoted v (some u)) ⟨p.advance [','], ' ' :: cs⟩ :=
      scan_step rfl rfl
    refine ⟨⟨.comma, ",", p, none⟩ ::
      ⟨.string, String.ofList l.1, (p.advance [',']).advance [' '], some l.2⟩ :: ts, r, q,
      .cons rfl rfl hts, hr, ?_⟩
    rw [furtherLiterals, List.flatMap_cons, List.append_assoc, List.append_assoc, hcomma,
      scan_blank (by simp), hl.scan (by simp), ← furtherLiterals, hscan]
    rfl

/-- What literals in parentheses make up: one alone is a text like any other. -/
def literalArgument : List String → Argument
  | [] => .none
  | [s] => .text s
  | ss => .texts ss

/-- An operator with literals. -/
lemma readAs_literals {op : String} {l : List Char × String} {ls : List (List Char × String)}
    (hop : IsWord op) (hl : Spells l.1 l.2) (hls : ∀ l ∈ ls, Spells l.1 l.2) :
    ReadAs ('#' :: (op.toList ++ '(' :: (l.1 ++ furtherLiterals ls ++ [')']))) fun ts => ∃ p us,
      ts = operatorToken op p :: us ∧ Template.Grammar.Arguments (operatorToken op p) us
        (literalArgument ((l :: ls).map Prod.snd)) := by
  intro u p rest _
  have hw : '#' :: (op.toList ++ '(' :: (l.1 ++ furtherLiterals ls ++ [')'])) ++ rest =
      '#' :: (op.toList ++ '(' :: (l.1 ++ (furtherLiterals ls ++ ')' :: rest))) := by simp
  obtain ⟨v, q, hstep⟩ : ∃ v q, step (.directive u) ⟨p, '#' :: (op.toList ++ '(' ::
      (l.1 ++ (furtherLiterals ls ++ ')' :: rest)))⟩ =
        ⟨[operatorToken op p, ⟨.leftParen, "(", (operatorToken op p).stop, none⟩],
          .quoted v (some u), ⟨q, l.1 ++ (furtherLiterals ls ++ ')' :: rest)⟩⟩ := by
    rw [step_applied hop]
    obtain ⟨quote, tail, hquote, -⟩ := hl
    rw [hquote]
    cases quote <;> exact ⟨_, _, rfl⟩
  obtain ⟨ts, r, q', hts, hr, hscan⟩ := scan_literals hls v u (q.advance l.1) rest
  have henclosed : Template.Grammar.Enclosed (⟨.string, String.ofList l.1, q, some l.2⟩ :: ts)
      (literalArgument ((l :: ls).map Prod.snd)) := by
    cases ls with
    | nil =>
      cases hts
      exact .literal rfl
    | cons l' ls => exact .literals rfl hts (List.cons_ne_nil _ _)
  have harguments : Template.Grammar.Arguments (operatorToken op p)
      (⟨.leftParen, "(", (operatorToken op p).stop, none⟩ ::
        ((⟨.string, String.ofList l.1, q, some l.2⟩ :: ts) ++ [r]))
      (literalArgument ((l :: ls).map Prod.snd)) := .mk rfl rfl henclosed hr
  refine ⟨_, q', ⟨p, _, rfl, harguments⟩, ?_⟩
  rw [hw, scan_unfinished rfl, hstep]
  dsimp only
  rw [hl.scan (by simp), hscan]
  simp

/-- Texts one behind the other, something between them. -/
lemma toList_intercalate_cons (between s : String) (ss : List String) :
    (between.intercalate (s :: ss)).toList =
      s.toList ++ ss.flatMap fun s => between.toList ++ s.toList := by
  induction ss generalizing s with
  | nil => simp
  | cons t ss ih =>
    rw [String.intercalate_cons_cons, String.toList_append, String.toList_append, ih,
      List.flatMap_cons, List.append_assoc, List.append_assoc]

/-- Texts as an argument, each in quotes. -/
lemma toList_written_texts (s : String) (ss : List String) :
    (Argument.texts (s :: ss)).written.toList = (Json.quotedText true s).toList ++
      ss.flatMap fun s => ", ".toList ++ (Json.quotedText true s).toList := by
  rw [Argument.written, List.map_cons, toList_intercalate_cons, List.flatMap_map]

/-- An operator with texts, each written as a literal. -/
lemma readAs_spelled {op : String} {f : String → List Char} {s : String} {ss : List String}
    (hop : IsWord op) (hs : Spells (f s) s) (hss : ∀ t ∈ ss, Spells (f t) t) :
    ReadAs ('#' :: (op.toList ++ '(' :: (f s ++ (ss.flatMap fun t => ", ".toList ++ f t) ++ [')'])))
      fun ts => ∃ p us, ts = operatorToken op p :: us ∧
        Template.Grammar.Arguments (operatorToken op p) us (literalArgument (s :: ss)) := by
  have hls : ∀ l ∈ ss.map fun t => (f t, t), Spells l.1 l.2 := List.forall_mem_map.mpr hss
  have hread := readAs_literals hop (l := (f s, s)) hs hls
  have htexts : ((f s, s) :: ss.map fun t => (f t, t)).map Prod.snd = s :: ss := by
    simp [Function.comp_def]
  rwa [htexts, furtherLiterals, List.flatMap_map] at hread

/-- An operator with texts in quotes. -/
lemma readAs_texts {op : String} {ss : List String} (hop : IsWord op) (hlength : 2 ≤ ss.length)
    (hss : ∀ s ∈ ss, ∀ c ∈ s.toList, IsSimple c) :
    ReadAs ('#' :: (op.toList ++ '(' :: ((Argument.texts ss).written.toList ++ [')'])))
      fun ts => ∃ p us, ts = operatorToken op p :: us ∧
        Template.Grammar.Arguments (operatorToken op p) us (.texts ss) := by
  rcases ss with _ | ⟨s, _ | ⟨s', ss⟩⟩
  · simp at hlength
  · simp at hlength
  obtain ⟨hs, hss⟩ := List.forall_mem_cons.mp hss
  obtain ⟨f, hf⟩ : ∃ f : String → List Char, f = fun s => (Json.quotedText true s).toList :=
    ⟨_, rfl⟩
  have hspells {t : String} (ht : ∀ c ∈ t.toList, IsSimple c) : Spells (f t) t := by
    rw [hf]
    exact spells_quotedText ht
  have htext : (Argument.texts (s :: s' :: ss)).written.toList =
      f s ++ (s' :: ss).flatMap fun t => ", ".toList ++ f t := by
    rw [toList_written_texts, hf]
  rw [htext]
  exact readAs_spelled hop (hspells hs) fun t ht => hspells (hss t ht)

end Source

/-! ### Conditions -/

namespace Condition

open Source Template Grammar

lemma writtenAll_eq_map (cs : List Condition) : writtenAll cs = cs.map written := by
  induction cs with
  | nil => rw [writtenAll, List.map_nil]
  | cons c cs ih => rw [writtenAll, ih, List.map_cons]

lemma unplacedAll_eq_map (cs : List Condition) : unplacedAll cs = cs.map unplaced := by
  induction cs with
  | nil => rw [unplacedAll, List.map_nil]
  | cons c cs ih => rw [unplacedAll, ih, List.map_cons]

/-- Further operands, each behind the word of the connective. -/
lemma tail_readAs {k : String} (hk : k ∈ ["NOT", "AND", "OR", "true", "false"])
    {T : List Token → List Condition → Prop} (hnil : T [] [])
    (hcons : ∀ p ts us c cs, Grammar.Not ts c → T us cs →
      T (⟨.identifier, k, p, some k⟩ :: (ts ++ us)) (c :: cs))
    {cs : List Condition} (hcs : ∀ c ∈ cs, ReadAs c.written.toList (Grammar.Not · c.unplaced)) :
    ReadAs (cs.flatMap fun c => ' ' :: (k.toList ++ ' ' :: c.written.toList))
      (T · (cs.map unplaced)) := by
  induction cs with
  | nil =>
    intro u p rest _
    exact ⟨[], p, hnil, rfl⟩
  | cons c cs ih =>
    obtain ⟨hc, hcs⟩ := List.forall_mem_cons.mp hcs
    have hoperand : ReadAs (' ' :: (k.toList ++ ' ' :: c.written.toList)) fun ts =>
        ∃ p us, ts = ⟨.identifier, k, p, some k⟩ :: us ∧ Grammar.Not us c.unplaced := by
      refine ((readAs_word hk).append hc.blank (fun rest _ => follows_blank _) ?_).blank
      rintro _ us ⟨p, rfl⟩ hus
      exact ⟨p, us, rfl, hus⟩
    rw [List.flatMap_cons]
    refine hoperand.append (ih hcs) (fun rest hrest => ?_) ?_
    · cases cs with
      | nil => exact hrest
      | cons d cs => exact follows_blank _
    · rintro _ vs ⟨p, us, rfl, hus⟩ hvs
      exact hcons p us vs c.unplaced _ hus hvs

/-- A group of operands in parentheses. -/
lemma group_readAs {k : String} {T : List Token → List Condition → Prop}
    (hk : k ∈ ["NOT", "AND", "OR", "true", "false"]) (hnil : T [] [])
    (hcons : ∀ p ts us c cs, Grammar.Not ts c → T us cs →
      T (⟨.identifier, k, p, some k⟩ :: (ts ++ us)) (c :: cs))
    {J : List Condition → Condition}
    (hjoined : ∀ ts us c d cs, Grammar.Not ts c → T us (d :: cs) →
      Grammar.Or (ts ++ us) (J (c :: d :: cs)))
    {cs : List Condition} (hlength : 2 ≤ cs.length)
    (hcs : ∀ c ∈ cs, ReadAs c.written.toList (Grammar.Not · c.unplaced)) :
    ReadAs ("(" ++ (" " ++ k ++ " ").intercalate (cs.map written) ++ ")").toList
      (Grammar.Not · (J (cs.map unplaced))) := by
  rcases cs with _ | ⟨c, _ | ⟨d, cs⟩⟩
  · simp at hlength
  · simp at hlength
  · obtain ⟨hc, hcs⟩ := List.forall_mem_cons.mp hcs
    have htail := tail_readAs hk hnil hcons hcs
    have htext : ("(" ++ (" " ++ k ++ " ").intercalate ((c :: d :: cs).map written) ++ ")").toList =
        '(' :: ((c.written.toList ++ (d :: cs).flatMap fun c =>
          ' ' :: (k.toList ++ ' ' :: c.written.toList)) ++ [')']) := by
      rw [String.toList_append, String.toList_append, List.map_cons, toList_intercalate_cons,
        List.flatMap_map]
      simp
    rw [htext]
    have hoperands := hc.append (K := (Grammar.Or · (J ((c :: d :: cs).map unplaced)))) htail
      (fun rest _ => follows_blank _) fun ts us hts hus => hjoined ts us _ _ _ hts hus
    refine hoperands.group.mono ?_
    rintro _ ⟨l, us, r, rfl, hl, hus, hr⟩
    exact .primary (.group hl hus hr)

/-- The token of a word of conditions. -/
lemma word_token {k word : String} (h : k.toList.map Char.toUpper = word.toList) (p : Position) :
    Grammar.Word word ⟨.identifier, k, p, some k⟩ := by
  refine ⟨rfl, ?_⟩
  change k.toUpper = word
  rw [← String.toList_inj, String.toUpper, String.toList_map, h]

/-- An operator on a variable. -/
lemma predicate_readAs {name : String} (hname : IsPath name) {w : List Char}
    {G : List Token → Prop} (h : ReadAs ('#' :: w) G) {c : Condition}
    (hG : ∀ ts, G ts → Grammar.Predicate name ts c) :
    ReadAs ((slotText name).toList ++ ' ' :: '#' :: w) (Grammar.Not · c) := by
  refine (readAs_slot hname).append h.blank (fun rest _ => follows_blank _) ?_
  rintro _ us ⟨p₁, p₂, p₃, rfl⟩ hus
  exact .primary (.predicate (.braced rfl rfl rfl) (hG us hus))

lemma compare_readAs {name op : String} {arg : Argument} (hname : IsPath name)
    (hop : Operators.IsUsable op) (harg : arg.Legible) (span : Span) :
    ReadAs (compare name op arg span).written.toList
      (Grammar.Not · (compare name op arg .empty)) := by
  -- what is read as the operator and its arguments is a comparison by it
  have hcompare {a : Argument} (ts : List Token) (h : ∃ p us, ts = operatorToken op p :: us ∧
      Grammar.Arguments (operatorToken op p) us a) :
      Grammar.Predicate name ts (.compare name op a .empty) := by
    obtain ⟨p, us, rfl, harguments⟩ := h
    have hlower : (operatorToken op p).text.toLower = op := hop.lower
    have happlied : Grammar.Predicate name (operatorToken op p :: us)
        (.compare name (operatorToken op p).text.toLower a .empty) :=
      .applied rfl (by rw [hlower, hop.own.1]; simp) (by rw [hlower]; exact hop.own.2) harguments
    rwa [hlower] at happlied
  cases harg with
  | none =>
    have htext : (compare name op .none span).written.toList =
        (slotText name).toList ++ ' ' :: '#' :: op.toList := by simp [written]
    rw [htext]
    refine predicate_readAs hname (readAs_operator hop.word) ?_
    rintro _ ⟨p, rfl⟩
    have hlower : (operatorToken op p).text.toLower = op := hop.lower
    have hplain : Grammar.Predicate name [operatorToken op p]
        (.compare name (operatorToken op p).text.toLower .none .empty) :=
      .plain rfl (by rw [hlower, hop.own.1]; simp) (by rw [hlower]; exact hop.own.2)
    rwa [hlower] at hplain
  | @text s hs =>
    have htext : (compare name op (.text s) span).written.toList =
        (slotText name).toList ++ ' ' :: '#' :: (op.toList ++ '(' :: (s.toList ++ [')'])) := by
      simp [written, Argument.written]
    rw [htext]
    exact predicate_readAs hname (readAs_raw hop.word hs) hcompare
  | @texts ss hlength hss =>
    have htext : (compare name op (.texts ss) span).written.toList = (slotText name).toList ++
        ' ' :: '#' :: (op.toList ++ '(' :: ((Argument.texts ss).written.toList ++ [')'])) := by
      simp [written]
    rw [htext]
    exact predicate_readAs hname (readAs_texts hop.word hlength hss) hcompare

lemma judge_readAs {name question : String} (hname : IsPath name) (hq : IsRaw question)
    (span : Span) : ReadAs (judge name question span).written.toList
      (Grammar.Not · (judge name question .empty)) := by
  have hword : IsWord "ai_judge" := ⟨'a', "i_judge".toList, rfl, rfl, List.all_eq_true.mp rfl⟩
  have htext : (judge name question span).written.toList = (slotText name).toList ++
      ' ' :: '#' :: ("ai_judge".toList ++ '(' :: (question.toList ++ [')'])) := by
    simp [written]
  have hsome : ¬ Text.allBlank question := by
    obtain ⟨c, cs, hc, hblank⟩ := start_of_isRaw hq
    simp [Text.allBlank, hc, hblank]
  rw [htext]
  refine predicate_readAs hname (readAs_raw hword hq) ?_
  rintro _ ⟨p, us, rfl, harguments⟩
  have hlower : "ai_judge".toLower = "ai_judge" := by decide +kernel
  have hjudge : isJudgeOperator (operatorToken "ai_judge" p).text.toLower := by
    have htext : (operatorToken "ai_judge" p).text = "ai_judge" := rfl
    rw [htext, hlower]
    rfl
  exact .judged rfl hjudge harguments hsome

lemma present_readAs {path : String} (hpath : IsRaw path) (span : Span) :
    ReadAs (present path span).written.toList (Grammar.Not · (present path .empty)) := by
  have hword : IsWord "context" := ⟨'c', "ontext".toList, rfl, rfl, List.all_eq_true.mp rfl⟩
  have htext : (present path span).written.toList =
      '#' :: ("context".toList ++ '(' :: (path.toList ++ [')'])) := by
    simp [written]
  rw [htext]
  refine (readAs_raw hword hpath).mono ?_
  rintro _ ⟨p, us, rfl, harguments⟩
  exact .primary (.present (.mk rfl rfl harguments hpath.ne_empty))

/-- A condition in source form is read as itself, as one operand of any connective. -/
lemma written_readAs {c : Condition} (h : c.Legible) :
    ReadAs c.written.toList (Grammar.Not · c.unplaced) := by
  induction h with
  | literal b span =>
    rw [written, unplaced]
    cases b with
    | true =>
      refine (readAs_word (w := "true") (by simp)).mono ?_
      rintro _ ⟨p, rfl⟩
      exact .primary (.true (word_token (by decide) p))
    | false =>
      refine (readAs_word (w := "false") (by simp)).mono ?_
      rintro _ ⟨p, rfl⟩
      exact .primary (.false (word_token (by decide) p))
  | ref span hname =>
    rw [written, unplaced]
    refine (readAs_slot hname).mono ?_
    rintro _ ⟨p₁, p₂, p₃, rfl⟩
    exact .primary (.ref (.braced rfl rfl rfl))
  | @not c span hc ih =>
    have htext : (not c span).written.toList = "NOT".toList ++ ' ' :: c.written.toList := by
      simp [written]
    rw [htext, unplaced]
    refine (readAs_word (w := "NOT") (by simp)).append ih.blank (fun rest _ => follows_blank _) ?_
    rintro _ us ⟨p, rfl⟩ hus
    exact .negated (word_token (by decide) p) hus
  | and span hlength hcs ih =>
    rw [written, unplaced, writtenAll_eq_map, unplacedAll_eq_map]
    exact group_readAs (k := "AND") (T := Grammar.AndTail) (J := (and · .empty)) (by simp) .nil
      (fun p ts us c cs hts hus => .cons (word_token (by decide) p) hts hus)
      (fun ts us c d cs hts hus => .single (.joined hts hus)) hlength ih
  | or span hlength hcs ih =>
    rw [written, unplaced, writtenAll_eq_map, unplacedAll_eq_map]
    exact group_readAs (k := "OR") (T := Grammar.OrTail) (J := (or · .empty)) (by simp) .nil
      (fun p ts us c cs hts hus => .cons (word_token (by decide) p) (.single hts) hus)
      (fun ts us c d cs hts hus => .joined (.single hts) hus) hlength ih
  | compare span hname hop harg => exact compare_readAs hname hop harg span
  | judge span hname hq => exact judge_readAs hname hq span
  | present span hpath => exact present_readAs hpath span

end Condition

/-! ### Sources -/

namespace Source

/-- A directive of a name that is followed by a blank. -/
lemma scan_directive {name : String} (hname : name ∈ ["IF", "SECTION", "IMPORT", "INCLUDE"])
    (p : Position) (cs : List Char) : ∃ u q,
      scan .text ⟨p, ("[#" ++ name ++ " ").toList ++ cs⟩ =
        ⟨.directive, "[#" ++ name, p, some name⟩ :: scan (.directive u) ⟨q, ' ' :: cs⟩ := by
  simp only [List.mem_cons, List.not_mem_nil, or_false] at hname
  rcases hname with rfl | rfl | rfl | rfl <;> exact ⟨_, _, scan_step rfl rfl⟩

/-- Such a directive and the bracket that closes it. -/
lemma scan_head (name : String) (hname : name ∈ ["IF", "SECTION", "IMPORT", "INCLUDE"])
    {w : List Char} {G : List Token → Prop} (h : ReadAs w G) (p : Position) (rest : List Char) :
    ∃ p' q ts, G ts ∧ scan .text ⟨p, ("[#" ++ name ++ " ").toList ++ (w ++ ']' :: rest)⟩ =
      ⟨.directive, "[#" ++ name, p, some name⟩ :: (ts ++ [⟨.directiveClose, "]", p', none⟩]) ++
        scan .text ⟨q, rest⟩ := by
  obtain ⟨u, q, hopen⟩ := scan_directive hname p (w ++ ']' :: rest)
  obtain ⟨ts, q₁, hts, hw⟩ := h.blank u q (']' :: rest) ⟨']', _, rfl, by simp⟩
  obtain ⟨q₂, hclose⟩ : ∃ q₂, scan (.directive u) ⟨q₁, ']' :: rest⟩ =
      ⟨.directiveClose, "]", q₁, none⟩ :: scan .text ⟨q₂, rest⟩ :=
    ⟨_, scan_step rfl rfl⟩
  refine ⟨q₁, q₂, ts, hts, ?_⟩
  rw [List.cons_append] at hw
  rw [hopen, hw, hclose]
  simp

/-- The tokens of a source with one conditional. -/
lemma tokenize_conditional {w : List Char} {G : List Token → Prop} (h : ReadAs w G) :
    ∃ p₁ p₂ p₃ p₄ q ts, G ts ∧ tokenize ("[#IF " ++ String.ofList w ++ "]x[END IF]") =
      ⟨.directive, "[#IF", p₁, some "IF"⟩ :: (ts ++ [⟨.directiveClose, "]", p₂, none⟩]) ++
        ([⟨.text, "x", p₃, none⟩] ++ ([] ++ [⟨.directive, "[END IF]", p₄, some "END_IF"⟩])) ++
        [⟨.endOfInput, "", q, none⟩] := by
  obtain ⟨p₂, q₂, ts, hts, hhead⟩ :=
    scan_head "IF" (by simp) h .origin "x[END IF]".toList
  obtain ⟨q₃, htext⟩ : ∃ q₃, scan .text ⟨q₂, "x[END IF]".toList⟩ =
      ⟨.text, "x", q₂, none⟩ :: scan .text ⟨q₃, "[END IF]".toList⟩ :=
    ⟨_, scan_step rfl rfl⟩
  obtain ⟨q₄, hend⟩ : ∃ q₄, scan .text ⟨q₃, "[END IF]".toList⟩ =
      ⟨.directive, "[END IF]", q₃, some "END_IF"⟩ :: scan .text ⟨q₄, []⟩ :=
    ⟨_, scan_step rfl rfl⟩
  refine ⟨.origin, p₂, q₂, q₃, q₄, ts, hts, ?_⟩
  have hsource : ("[#IF " ++ String.ofList w ++ "]x[END IF]").toList =
      ("[#" ++ "IF" ++ " ").toList ++ (w ++ ']' :: "x[END IF]".toList) := by simp
  rw [tokenize, hsource, hhead, htext, hend, scan_finished rfl]
  simp

end Source

open Template in
/-- **Conditions in source form are read back as themselves**, places aside. -/
theorem parse_written (c : Condition) (h : c.Legible) :
    (parse ("[#IF " ++ c.written ++ "]x[END IF]")).success = true ∧
      (parse ("[#IF " ++ c.written ++ "]x[END IF]")).document.unplaced.children =
        [.conditional c.unplaced [.text "x" .empty] [] .empty] := by
  obtain ⟨p₁, p₂, p₃, p₄, q, ts, hts, htokens⟩ :=
    Source.tokenize_conditional (Condition.written_readAs h)
  rw [String.ofList_toList] at htokens
  have hcondition : Grammar.Or ts c.unplaced := .single (.single hts)
  have htext : Grammar.Nodes [⟨.text, "x", p₃, none⟩] [.text "x" .empty] := .cons (.text rfl) .nil
  have hhead : Grammar.Head "IF"
      (⟨.directive, "[#IF", p₁, some "IF"⟩ :: (ts ++ [⟨.directiveClose, "]", p₂, none⟩]))
      c.unplaced := .mk ⟨rfl, rfl⟩ hcondition rfl
  have hend : Grammar.Directive "END_IF" ⟨.directive, "[END IF]", p₄, some "END_IF"⟩ := ⟨rfl, rfl⟩
  have hnodes := Grammar.Nodes.cons (.conditional hhead htext .absent hend) .nil
  rw [List.append_nil] at hnodes
  have hderives : Grammar.Derives (tokenize ("[#IF " ++ c.written ++ "]x[END IF]"))
      [.conditional c.unplaced [.text "x" .empty] [] .empty] := by
    rw [htokens]
    exact .mk hnodes rfl
  exact success_of_derives hderives

/-- A condition with groups inside each other and arguments of all kinds. -/
theorem parse_written_nested :
    let c := Condition.or [.not (.and [.ref "a.b[0]" .empty, .literal true .empty] .empty) .empty,
      .compare "x" "one_of" (.texts ["a\n", "\"b\""]) .empty, .judge "x" "is (it) so?" .empty,
      .present "bio" .empty] .empty
    c.written = "(NOT (" ++ slotText "a.b[0]" ++ " AND true) OR " ++ slotText "x" ++
        " #one_of(\"a\\n\", \"\\\"b\\\"\") OR " ++ slotText "x" ++
        " #ai_judge(is (it) so?) OR #context(bio))" ∧
      (parse ("[#IF " ++ c.written ++ "]x[END IF]")).success = true ∧
      (parse ("[#IF " ++ c.written ++ "]x[END IF]")).document.unplaced.children =
        [.conditional c.unplaced [.text "x" .empty] [] .empty] := by
  intro c
  have hx : IsPath "x" := rfl
  have hab : IsPath "a.b[0]" := rfl
  have hop : Operators.IsUsable "one_of" :=
    ⟨⟨'o', "ne_of".toList, rfl, rfl, List.all_eq_true.mp rfl⟩, by decide +kernel, by decide⟩
  have hquestion : IsRaw "is (it) so?" :=
    ⟨by decide, rfl, by decide, fun c hc => Option.some.inj hc ▸ by decide, by decide⟩
  have hpath : IsRaw "bio" :=
    ⟨by decide, rfl, by decide, fun c hc => Option.some.inj hc ▸ by decide, by decide⟩
  have hsimple : (["a\n", "\"b\""].all fun s => s.toList.all fun ch => decide (IsSimple ch)) :=
    rfl
  have htexts : ∀ s ∈ ["a\n", "\"b\""], ∀ ch ∈ s.toList, IsSimple ch := fun s hs ch hch =>
    of_decide_eq_true (List.all_eq_true.mp (List.all_eq_true.mp hsimple s hs) ch hch)
  have hlegible : c.Legible := by
    refine .or _ (by decide) ?_
    simp only [List.forall_mem_cons, List.not_mem_nil]
    refine ⟨.not _ (.and _ (by decide) ?_), .compare _ hx hop (.texts (by decide) htexts),
      .judge _ hx hquestion, .present _ hpath, by simp⟩
    simp only [List.forall_mem_cons, List.not_mem_nil]
    exact ⟨.ref _ hab, .literal _ _, by simp⟩
  exact ⟨by with_unfolding_all rfl, parse_written c hlegible⟩

end Stencil
