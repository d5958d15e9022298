import Stencil.Proofs.Template.Written

/-!
Texts in quotes, wherever a template takes one.

A default, the path of a reference, the name of a part and the arguments of an operator may all
be literals, and each is read back as the text that the literal was made from, whatever characters
this has.
-/

namespace Stencil

open Template

/-- The source is read without a fault as these nodes, places aside. -/
def ParsesTo (source : String) (ns : List Node) : Prop :=
  (parse source).success = true ∧ (parse source).document.unplaced.children = ns

lemma ParsesTo.of_derives {source : String} {ns : List Node}
    (h : Grammar.Derives (tokenize source) ns) : ParsesTo source ns :=
  success_of_derives h

namespace Source

/-- One token that names a part or a document. -/
def Names (s : String) (ts : List Token) : Prop :=
  ∃ n, ts = [n] ∧ Grammar.Name n ∧ n.text = s

/-- A literal in a directive is a name. -/
lemma Spells.readAs {w : List Char} {s : String} (h : Spells w s) : ReadAs w (Names s) := by
  intro u p rest _
  exact ⟨_, _, ⟨⟨.string, String.ofList w, p, some s⟩, rfl, .inl rfl, rfl⟩, h.scan (by simp) p rest⟩

/-- Text and the closing directive behind it, at the end of the source. -/
lemma scan_ending (lexeme value : String)
    (h : (lexeme, value) ∈ [("[END IF]", "END_IF"), ("[END SECTION]", "END_SECTION")])
    (p : Position) : ∃ q q', scan .text ⟨p, 'a' :: lexeme.toList⟩ =
      [⟨.text, "a", p, none⟩, ⟨.directive, lexeme, q, some value⟩,
        ⟨.endOfInput, "", q', none⟩] := by
  simp only [List.mem_cons, Prod.mk.injEq, List.not_mem_nil, or_false] at h
  rcases h with ⟨rfl, rfl⟩ | ⟨rfl, rfl⟩ <;>
    exact ⟨_, _, (scan_step rfl rfl).trans
      (congrArg _ ((scan_step rfl rfl).trans (congrArg _ (scan_finished rfl))))⟩

end Source

open Source Grammar

variable {w : List Char} {s : String}

/-! ### References and parts -/

/-- The directives that mention another document or a part. -/
inductive Mention where
  | imported
  | included

namespace Mention

def word : Mention → String
  | imported => "IMPORT"
  | included => "INCLUDE"

/-- What the directive is read as. -/
def node : Mention → String → Node
  | imported, path => .imported path .empty
  | included, path => .included path .empty

/-- The directive with the characters `w` behind its word. -/
def source (m : Mention) (w : String) : String := "[#" ++ m.word ++ " " ++ w ++ "]"

lemma source_imported (w : String) : imported.source w = "[#IMPORT " ++ w ++ "]" := by
  simp [source, word]

lemma source_included (w : String) : included.source w = "[#INCLUDE " ++ w ++ "]" := by
  simp [source, word]

lemma word_mem (m : Mention) : m.word ∈ ["IF", "SECTION", "IMPORT", "INCLUDE"] := by
  cases m <;> simp [word]

lemma oneNode (m : Mention) {d n close : Token} (hd : Directive m.word d) (hn : Name n)
    (hc : close.kind = .directiveClose) : OneNode [d, n, close] (m.node n.text) := by
  cases m with
  | imported => exact .imported hd hn hc
  | included => exact .included hd hn hc

lemma parsesTo (m : Mention) (h : ReadAs w (Names s)) :
    ParsesTo (m.source (String.ofList w)) [m.node s] := by
  obtain ⟨p, q, _, ⟨n, rfl, hn, rfl⟩, hscan⟩ := scan_head _ m.word_mem h .origin []
  have hsource : (m.source (String.ofList w)).toList =
      ("[#" ++ m.word ++ " ").toList ++ (w ++ [']']) := by simp [source]
  refine .of_derives ?_
  rw [tokenize, hsource, hscan, scan_finished rfl]
  exact .mk (.cons (m.oneNode ⟨rfl, rfl⟩ hn rfl) .nil) rfl

end Mention

/-- The word in front of a part's name. -/
lemma scan_nameMark (u : Token) (p : Position) (rest : List Char) : ∃ q q',
    scan (.directive u) ⟨p, "name=".toList ++ rest⟩ = ⟨.identifier, "name", p, some "name"⟩ ::
      ⟨.equals, "=", q, none⟩ :: scan (.directive u) ⟨q', rest⟩ :=
  ⟨_, _, (scan_step rfl rfl).trans (congrArg _ (scan_step rfl rfl))⟩

lemma parsesTo_section (h : ReadAs w (Names s)) :
    ParsesTo ("[#SECTION name=" ++ String.ofList w ++ "]a[END SECTION]")
      [.part s [.text "a" .empty] .empty] := by
  have hmark : ReadAs ("name=".toList ++ w) fun ts => ∃ p q n,
      ts = [⟨.identifier, "name", p, some "name"⟩, ⟨.equals, "=", q, none⟩, n] ∧
        Grammar.Name n ∧ n.text = s := by
    intro u p rest hrest
    obtain ⟨q, q', hname⟩ := scan_nameMark u p (w ++ rest)
    obtain ⟨_, q'', ⟨n, rfl, hn, hs⟩, hw⟩ := h u q' rest hrest
    exact ⟨_, q'', ⟨p, q, n, rfl, hn, hs⟩, by rw [List.append_assoc, hname, hw]; rfl⟩
  obtain ⟨p, q, _, ⟨p', q', n, rfl, hn, rfl⟩, hscan⟩ :=
    scan_head "SECTION" (by simp) hmark .origin ("a[END SECTION]".toList)
  obtain ⟨q₁, q₂, hending⟩ : ∃ q₁ q₂, scan .text ⟨q, "a[END SECTION]".toList⟩ = _ :=
    scan_ending "[END SECTION]" "END_SECTION" (by simp) q
  have hhead : PartHead [⟨.directive, "[#SECTION", .origin, some "SECTION"⟩,
      ⟨.identifier, "name", p', some "name"⟩, ⟨.equals, "=", q', none⟩, n,
      ⟨.directiveClose, "]", p, none⟩] n.text := .keyed ⟨rfl, rfl⟩ rfl rfl rfl hn rfl
  have hbody : Nodes [⟨.text, "a", q, none⟩] [.text "a" .empty] := .cons (.text rfl) .nil
  have hend : Directive "END_SECTION" ⟨.directive, "[END SECTION]", q₁, some "END_SECTION"⟩ :=
    ⟨rfl, rfl⟩
  refine .of_derives ?_
  have hsource : ("[#SECTION name=" ++ String.ofList w ++ "]a[END SECTION]").toList =
      ("[#" ++ "SECTION" ++ " ").toList ++ ("name=".toList ++ w ++ ']' ::
        "a[END SECTION]".toList) := by simp
  rw [tokenize, hsource, hscan, hending]
  exact .mk (.cons (.part hhead hbody hend) .nil) rfl

/-! ### Defaults -/

/-- A variable with a literal as its default. -/
lemma parsesTo_default {name : String} (hname : IsPath name) (h : Spells w s) :
    ParsesTo ("\x7b\x7b" ++ name ++ " ?? " ++ String.ofList w ++ "\x7d\x7d")
      [.slot name none (some s) .empty] := by
  obtain ⟨u, q₀, hopen⟩ : ∃ u q₀, scan .text ⟨.origin, '\x7b' :: '\x7b' :: (name.toList ++
      ' ' :: ('?' :: '?' :: ' ' :: (w ++ ['\x7d', '\x7d'])))⟩ =
        ⟨.slotOpen, "\x7b\x7b", .origin, none⟩ :: scan (.slot u none) ⟨q₀, name.toList ++
          ' ' :: ('?' :: '?' :: ' ' :: (w ++ ['\x7d', '\x7d']))⟩ :=
    ⟨_, _, scan_step rfl rfl⟩
  have hpath := slotStep_of_isPath hname u none q₀
    (' ' :: ('?' :: '?' :: ' ' :: (w ++ ['\x7d', '\x7d']))) (ends_cons.mpr (by decide))
    rfl rfl
  obtain ⟨q₁, q₂, hmark⟩ : ∃ q₁ q₂, scan (.slot u none) ⟨q₀.advance name.toList,
      ' ' :: ('?' :: '?' :: ' ' :: (w ++ ['\x7d', '\x7d']))⟩ =
        ⟨.defaultMark, "??", q₁, none⟩ ::
          scan (.slot u none) ⟨q₂, ' ' :: (w ++ ['\x7d', '\x7d'])⟩ :=
    ⟨_, _, (scan_blank (by simp) _ _).trans (scan_step rfl rfl)⟩
  obtain ⟨q₃, hclose⟩ : ∃ q₃, scan (.slot u none)
      ⟨(q₂.advance [' ']).advance w, ['\x7d', '\x7d']⟩ =
        ⟨.slotClose, "\x7d\x7d", (q₂.advance [' ']).advance w, none⟩ :: scan .text ⟨q₃, []⟩ :=
    ⟨_, scan_step rfl rfl⟩
  have hsource : ("\x7b\x7b" ++ name ++ " ?? " ++ String.ofList w ++ "\x7d\x7d").toList =
      '\x7b' :: '\x7b' :: (name.toList ++ ' ' :: ('?' :: '?' :: ' ' :: (w ++ ['\x7d', '\x7d']))) :=
    by simp
  refine .of_derives ?_
  rw [tokenize, hsource, hopen, scan_step rfl hpath, hmark, scan_blank (by simp), h.scan (by simp),
    hclose, scan_finished rfl]
  exact .mk (.cons (.slot rfl rfl .absent (.given rfl (.inl rfl)) rfl) .nil) rfl

/-! ### Conditions -/

/-- A text under any condition. -/
lemma parsesTo_conditional {c : Condition} (h : ReadAs w (Grammar.Not · c)) :
    ParsesTo ("[#IF " ++ String.ofList w ++ "]a[END IF]")
      [.conditional c [.text "a" .empty] [] .empty] := by
  obtain ⟨p, q, ts, hts, hscan⟩ := scan_head "IF" (by simp) h .origin ("a[END IF]".toList)
  obtain ⟨q₁, q₂, hending⟩ : ∃ q₁ q₂, scan .text ⟨q, "a[END IF]".toList⟩ = _ :=
    scan_ending "[END IF]" "END_IF" (by simp) q
  have hhead : Head "IF" (⟨.directive, "[#IF", .origin, some "IF"⟩ ::
      (ts ++ [⟨.directiveClose, "]", p, none⟩])) c := .mk ⟨rfl, rfl⟩ (.single (.single hts)) rfl
  have hbody : Nodes [⟨.text, "a", q, none⟩] [.text "a" .empty] := .cons (.text rfl) .nil
  have hend : Directive "END_IF" ⟨.directive, "[END IF]", q₁, some "END_IF"⟩ := ⟨rfl, rfl⟩
  have hsource : ("[#IF " ++ String.ofList w ++ "]a[END IF]").toList =
      ("[#" ++ "IF" ++ " ").toList ++ (w ++ ']' :: "a[END IF]".toList) := by simp
  refine .of_derives ?_
  rw [tokenize, hsource, hscan, hending]
  have hnodes := Nodes.cons (.conditional hhead hbody .absent hend) .nil
  simpa using Derives.mk hnodes (e := ⟨.endOfInput, "", q₂, none⟩) rfl

/-- Two branches of one letter, and the end of the source. -/
lemma scan_branches (p : Position) : ∃ p₂ p₃ p₄ q, scan .text ⟨p, "a[ELSE]b[END IF]".toList⟩ =
    [⟨.text, "a", p, none⟩, ⟨.directive, "[ELSE]", p₂, some "ELSE"⟩, ⟨.text, "b", p₃, none⟩,
      ⟨.directive, "[END IF]", p₄, some "END_IF"⟩, ⟨.endOfInput, "", q, none⟩] := by
  obtain ⟨q₁, h₁⟩ : ∃ q₁, scan .text ⟨p, "a[ELSE]b[END IF]".toList⟩ =
      ⟨.text, "a", p, none⟩ :: scan .text ⟨q₁, "[ELSE]b[END IF]".toList⟩ :=
    ⟨_, scan_step rfl rfl⟩
  obtain ⟨q₂, h₂⟩ : ∃ q₂, scan .text ⟨q₁, "[ELSE]b[END IF]".toList⟩ =
      ⟨.directive, "[ELSE]", q₁, some "ELSE"⟩ :: scan .text ⟨q₂, "b[END IF]".toList⟩ :=
    ⟨_, scan_step rfl rfl⟩
  obtain ⟨q₃, h₃⟩ : ∃ q₃, scan .text ⟨q₂, "b[END IF]".toList⟩ =
      ⟨.text, "b", q₂, none⟩ :: scan .text ⟨q₃, "[END IF]".toList⟩ :=
    ⟨_, scan_step rfl rfl⟩
  obtain ⟨q₄, h₄⟩ : ∃ q₄, scan .text ⟨q₃, "[END IF]".toList⟩ =
      ⟨.directive, "[END IF]", q₃, some "END_IF"⟩ :: scan .text ⟨q₄, []⟩ :=
    ⟨_, scan_step rfl rfl⟩
  exact ⟨q₁, q₂, q₃, q₄, by rw [h₁, h₂, h₃, h₄, scan_finished rfl]⟩

/-- A choice between two texts, by any condition. -/
lemma parsesTo_choice {c : Condition} (h : ReadAs w (Grammar.Not · c)) :
    ParsesTo ("[#IF " ++ String.ofList w ++ "]a[ELSE]b[END IF]")
      [.conditional c [.text "a" .empty] [.text "b" .empty] .empty] := by
  obtain ⟨p, q, ts, hts, hscan⟩ :=
    scan_head "IF" (by simp) h .origin ("a[ELSE]b[END IF]".toList)
  obtain ⟨p₂, p₃, p₄, q', hbranches⟩ := scan_branches q
  have hhead : Head "IF" (⟨.directive, "[#IF", .origin, some "IF"⟩ ::
      (ts ++ [⟨.directiveClose, "]", p, none⟩])) c := .mk ⟨rfl, rfl⟩ (.single (.single hts)) rfl
  have htext (content : String) (p : Position) :
      Nodes [⟨.text, content, p, none⟩] [.text content .empty] := .cons (.text rfl) .nil
  have helse : Else [⟨.directive, "[ELSE]", p₂, some "ELSE"⟩, ⟨.text, "b", p₃, none⟩]
      [.text "b" .empty] := .otherwise ⟨rfl, rfl⟩ (htext "b" p₃)
  have hend : Directive "END_IF" ⟨.directive, "[END IF]", p₄, some "END_IF"⟩ := ⟨rfl, rfl⟩
  have hsource : ("[#IF " ++ String.ofList w ++ "]a[ELSE]b[END IF]").toList =
      ("[#" ++ "IF" ++ " ").toList ++ (w ++ ']' :: "a[ELSE]b[END IF]".toList) := by simp
  refine .of_derives ?_
  rw [tokenize, hsource, hscan, hbranches]
  have hnodes := Nodes.cons (.conditional hhead (htext "a" q) helse hend) .nil
  simpa using Derives.mk hnodes (e := ⟨.endOfInput, "", q', none⟩) rfl

/-! ### Arguments -/

/-- A comparison with literals as its arguments, as a condition. -/
lemma literals_readAs {name op : String} (hname : IsPath name) (hop : IsWord op)
    (hjudge : isJudgeOperator op.toLower = false) (hcontext : op.toLower ≠ "context")
    {l : List Char × String} {ls : List (List Char × String)} (hl : Spells l.1 l.2)
    (hls : ∀ l ∈ ls, Spells l.1 l.2) :
    ReadAs ((slotText name).toList ++
      ' ' :: '#' :: (op.toList ++ '(' :: (l.1 ++ furtherLiterals ls ++ [')'])))
      (Grammar.Not ·
        (.compare name op.toLower (literalArgument ((l :: ls).map Prod.snd)) .empty)) := by
  refine Condition.predicate_readAs hname (readAs_literals hop hl hls) ?_
  rintro _ ⟨p, us, rfl, harguments⟩
  exact .applied rfl (by simpa [operatorToken, Token.text] using hjudge) hcontext harguments

/-- A comparison with literals as its arguments. -/
lemma parsesTo_arguments {name op : String} (hname : IsPath name) (hop : IsWord op)
    (hjudge : isJudgeOperator op.toLower = false) (hcontext : op.toLower ≠ "context")
    {l : List Char × String} {ls : List (List Char × String)} (hl : Spells l.1 l.2)
    (hls : ∀ l ∈ ls, Spells l.1 l.2) (hne : ls ≠ []) :
    ParsesTo ("[#IF " ++ slotText name ++ " #" ++ op ++ "(" ++
        String.ofList (l.1 ++ furtherLiterals ls) ++ ")]a[END IF]")
      [.conditional (.compare name op.toLower (.texts ((l :: ls).map Prod.snd)) .empty)
        [.text "a" .empty] [] .empty] := by
  have hargument : literalArgument ((l :: ls).map Prod.snd) = .texts ((l :: ls).map Prod.snd) := by
    obtain ⟨l', ls, rfl⟩ := List.exists_cons_of_ne_nil hne
    rfl
  have hparse := parsesTo_conditional (literals_readAs hname hop hjudge hcontext hl hls)
  have hsource : "[#IF " ++ String.ofList ((slotText name).toList ++
      ' ' :: '#' :: (op.toList ++ '(' :: (l.1 ++ furtherLiterals ls ++ [')']))) ++ "]a[END IF]" =
        "[#IF " ++ slotText name ++ " #" ++ op ++ "(" ++
          String.ofList (l.1 ++ furtherLiterals ls) ++ ")]a[END IF]" := by
    rw [← String.toList_inj]
    simp
  rwa [hargument, hsource] at hparse

/-! ### Literals of texts -/

/-- **Quoted literals carry every text**: as a default, as the path of a reference, as the name of
a part, and as the arguments of a comparison, with quotes of either kind. -/
theorem parsesTo_literals {name op : String} (hname : IsPath name) (hop : IsWord op)
    (hjudge : isJudgeOperator op.toLower = false) (hcontext : op.toLower ≠ "context") (q : Quote)
    (s : String) (ls : List (Quote × String)) (hls : 2 ≤ ls.length) :
    ParsesTo ("\x7b\x7b" ++ name ++ " ?? " ++ q.literal s ++ "\x7d\x7d")
        [.slot name none (some s) .empty] ∧
      ParsesTo ("[#IMPORT " ++ q.literal s ++ "]") [.imported s .empty] ∧
      ParsesTo ("[#INCLUDE " ++ q.literal s ++ "]") [.included s .empty] ∧
      ParsesTo ("[#SECTION name=" ++ q.literal s ++ "]a[END SECTION]")
        [.part s [.text "a" .empty] .empty] ∧
      ParsesTo ("[#IF " ++ slotText name ++ " #" ++ op ++ "(" ++
          ", ".intercalate (ls.map fun l => l.1.literal l.2) ++ ")]a[END IF]")
        [.conditional (.compare name op.toLower (.texts (ls.map Prod.snd)) .empty)
          [.text "a" .empty] [] .empty] := by
  have hs := q.spells s
  have hnames := hs.readAs
  have htext : String.ofList (q.literal s).toList = q.literal s := String.ofList_toList
  refine ⟨?_, ?_, ?_, ?_, ?_⟩
  · simpa only [htext] using parsesTo_default hname hs
  · simpa only [htext, Mention.source_imported, Mention.node] using Mention.imported.parsesTo hnames
  · simpa only [htext, Mention.source_included, Mention.node] using Mention.included.parsesTo hnames
  · simpa only [htext] using parsesTo_section hnames
  · rcases ls with _ | ⟨l, _ | ⟨l', ls⟩⟩
    · simp at hls
    · simp at hls
    have hspells : ∀ m ∈ (l' :: ls).map fun l => ((l.1.literal l.2).toList, l.2),
        Spells m.1 m.2 := by
      rw [List.forall_mem_map]
      exact fun l _ => l.1.spells l.2
    have hparse := parsesTo_arguments hname hop hjudge hcontext
      (l := ((l.1.literal l.2).toList, l.2)) (l.1.spells l.2) hspells (by simp)
    have hjoined : String.ofList ((l.1.literal l.2).toList ++
        furtherLiterals ((l' :: ls).map fun l => ((l.1.literal l.2).toList, l.2))) =
          ", ".intercalate ((l :: l' :: ls).map fun l => l.1.literal l.2) := by
      rw [← String.toList_inj, String.toList_ofList, List.map_cons (l := l' :: ls),
        toList_intercalate_cons, furtherLiterals, List.flatMap_map, List.flatMap_map]
    rw [hjoined] at hparse
    simpa [Function.comp_def] using hparse

/-- Texts with quotes of both kinds, backslashes, newlines and everything that closes. -/
theorem parsesTo_literals_of_marks :
    let s := "it's \"\x7d\x7d\"\n\\]"
    Quote.single.literal s = "'it\\'s \"\x7d\x7d\"\\n\\\\]'" ∧
      ParsesTo ("\x7b\x7b" ++ "x" ++ " ?? " ++ Quote.single.literal s ++ "\x7d\x7d")
        [.slot "x" none (some s) .empty] ∧
      ParsesTo ("[#IMPORT " ++ Quote.single.literal s ++ "]") [.imported s .empty] ∧
      ParsesTo ("[#INCLUDE " ++ Quote.single.literal s ++ "]") [.included s .empty] ∧
      ParsesTo ("[#SECTION name=" ++ Quote.single.literal s ++ "]a[END SECTION]")
        [.part s [.text "a" .empty] .empty] ∧
      ParsesTo ("[#IF " ++ slotText "x" ++ " #" ++ "One_Of" ++ "(" ++ ", ".intercalate
          [Quote.double.literal "a\")", Quote.single.literal "',\\"] ++ ")]a[END IF]")
        [.conditional (.compare "x" ("One_Of".toLower) (.texts ["a\")", "',\\"]) .empty)
          [.text "a" .empty] [] .empty] := by
  intro s
  have hword : IsWord "One_Of" := ⟨'O', "ne_Of".toList, rfl, rfl, List.all_eq_true.mp rfl⟩
  have hliteral : Quote.single.literal s = "'it\\'s \"\x7d\x7d\"\\n\\\\]'" := by
    change Quote.single.literal "it's \"\x7d\x7d\"\n\\]" = _
    decide +kernel
  have hpath : IsPath "x" := rfl
  exact ⟨hliteral, parsesTo_literals hpath hword (by decide +kernel) (by decide +kernel)
    .single s [(.double, "a\")"), (.single, "',\\")] (by decide)⟩

end Stencil
