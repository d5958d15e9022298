import Mathlib.Data.List.Flatten
import Stencil.Proofs.Engine.Registration
import Stencil.Proofs.Operator.Builtin
import Stencil.Proofs.Text.Pieces

/-!
Options in quotes, and the values that a choice by them accepts.

Several quoted options are taken as they stand, whatever is in them. One alone is a plain text to
the operator, which cuts it at its commas and takes the pieces without the blanks around them
(`offered`). Folding never makes a text as short as a part of it; so one option is taken as it
stands only if it is a single piece with no blanks around it (`offered_literally_iff`).
-/

namespace Stencil

/-! ### Texts and their parts -/

namespace Text

lemma trimBlanks_sublist (cs : List Char) : (trimBlanks cs).Sublist cs := by
  have hend : ((cs.dropWhile isBlank).reverse.dropWhile isBlank).reverse.Sublist
      (cs.dropWhile isBlank).reverse.reverse :=
    List.reverse_sublist.mpr (List.dropWhile_sublist _)
  rw [List.reverse_reverse] at hend
  exact hend.trans (List.dropWhile_sublist _)

/-- Every character folds to some. -/
lemma foldChar_ne_nil (c : Char) : foldChar c ≠ [] := by
  have hexpansions : ∀ e ∈ foldExpansions, e.2 ≠ [] := by decide
  unfold foldChar
  split
  · exact List.cons_ne_nil _ _
  · split
    · rename_i hfind
      simpa using hexpansions _ (List.mem_of_find?_eq_some hfind)
    · exact List.cons_ne_nil _ _

/-- A part that makes up as much as the whole is the whole. -/
lemma eq_of_sublist_of_flatMap_eq {α β : Type} {f : α → List β} (hf : ∀ a, f a ≠ [])
    {as bs : List α} (h : as.Sublist bs) (heq : as.flatMap f = bs.flatMap f) : as = bs := by
  induction h with
  | slnil => rfl
  | cons b h ih =>
    have hle := (h.flatMap f).length_le
    have hpos := List.length_pos_iff.mpr (hf b)
    have hlength := congrArg List.length heq
    rw [List.flatMap_cons, List.length_append] at hlength
    omega
  | cons_cons b h ih =>
    rw [List.flatMap_cons, List.flatMap_cons] at heq
    rw [ih (List.append_cancel_left heq)]

lemma eq_of_fold_eq {s t : String} (h : s.toList.Sublist t.toList) (hfold : fold s = fold t) :
    s = t :=
  String.toList_inj.mp (eq_of_sublist_of_flatMap_eq foldChar_ne_nil h (String.ofList_inj.mp hfold))

end Text

/-! ### Options -/

/-- The value is one of the options, but for case. -/
def Among (v : String) (options : List String) : Prop := ∃ o ∈ options, Text.fold o = Text.fold v

instance (v : String) (options : List String) : Decidable (Among v options) :=
  inferInstanceAs (Decidable (∃ o ∈ options, Text.fold o = Text.fold v))

/-- What quoted options come to: a single one is cut at its commas. -/
def offered : List String → List String
  | [o] => (Text.splitAt ',' o).map Text.strip
  | options => options

/-- A single option is taken as it stands exactly if it has no comma and no blanks around it. -/
lemma offered_literally_iff (options : List String) :
    (∀ v, Among v (offered options) ↔ Among v options) ↔
      ∀ o, options = [o] → ',' ∉ o.toList ∧ Text.strip o = o := by
  constructor
  · rintro h o rfl
    -- a piece is among what the option comes to, and so has to be the option itself
    obtain ⟨w, ws, hpieces⟩ := Text.splitBy_eq_cons (· == ',') o.toList
    have hw : w ∈ Text.splitBy (· == ',') o.toList := hpieces ▸ List.mem_cons_self
    have hoffered : Text.strip (String.ofList w) ∈ offered [o] :=
      List.mem_map_of_mem (List.mem_map_of_mem hw)
    obtain ⟨o', ho', hfold⟩ := (h _).mp ⟨_, hoffered, rfl⟩
    obtain rfl := List.mem_singleton.mp ho'
    have htrim := Text.trimBlanks_sublist w
    have hpiece := Text.sublist_of_mem_splitBy hw
    have hstrip : (Text.strip (String.ofList w)).toList = Text.trimBlanks w := by
      rw [Text.strip, String.toList_ofList, String.toList_ofList]
    have heq : Text.strip (String.ofList w) = o' := by
      refine Text.eq_of_fold_eq ?_ hfold.symm
      rw [hstrip]
      exact htrim.trans hpiece
    have hwhole : w = o'.toList := by
      refine hpiece.antisymm ?_
      rw [← heq, hstrip]
      exact htrim
    rw [hwhole, String.ofList_toList] at heq
    refine ⟨fun hcomma => ?_, heq⟩
    rw [← hwhole] at hcomma
    have hne := Text.forall_of_mem_splitBy hw ',' hcomma
    rw [beq_self_eq_true] at hne
    cases hne
  · intro h v
    rcases options with _ | ⟨o, _ | ⟨o', options⟩⟩
    · rfl
    · obtain ⟨hcomma, hstrip⟩ := h o rfl
      have hpieces : Text.splitBy (· == ',') o.toList = [o.toList] :=
        Text.splitBy_of_forall fun c hc => beq_false_of_ne fun heq => hcomma (heq ▸ hc)
      rw [offered, Text.splitAt, hpieces, List.map_singleton, List.map_singleton,
        String.ofList_toList, hstrip]
    · rfl

namespace Builtin

open Source in
/-- The operator looks for the value among what the options come to. -/
lemma oneOf_literals (v : String) {options : List String} (hne : options ≠ []) :
    oneOf (.text v) (literalArgument options).value = .ok (decide (Among v (offered options))) := by
  have hany (os : List String) :
      os.any (Text.fold · == Text.fold v) = decide (Among v os) := by
    rw [Bool.eq_iff_iff, decide_eq_true_iff, List.any_eq_true]
    exact exists_congr fun o => and_congr_right fun _ => beq_iff_eq
  rcases options with _ | ⟨o, _ | ⟨o', options⟩⟩
  · exact absurd rfl hne
  · rw [← hany]
    rfl
  · have hitems := textItems_texts (o :: o' :: options)
    rw [← hany]
    unfold oneOf Source.literalArgument Argument.value
    dsimp only
    rw [hitems]
    rfl

end Builtin

/-! ### Quoted options -/

/-- A text, as it stands in quotes. -/
structure Quotation where
  written : String
  text : String
  spells : Source.Spells written.toList text

/-- A text in quotes of either kind. -/
def Source.Quote.quotation (q : Quote) (s : String) : Quotation where
  written := q.literal s
  text := s
  spells := q.spells s

/-- The choice that takes its first branch if the variable has one of the quoted options. -/
def choiceByOptions (name : String) (qs : List Quotation) : String :=
  "[#IF " ++ slotText name ++ " #one_of(" ++ ", ".intercalate (qs.map (·.written)) ++
    ")]a[ELSE]b[END IF]"

open Source in
lemma parsesTo_choiceByOptions {name : String} (hname : IsPath name) {qs : List Quotation}
    (hne : qs ≠ []) : ParsesTo (choiceByOptions name qs)
      [.conditional (.compare name "one_of" (literalArgument (qs.map (·.text))) .empty)
        [.text "a" .empty] [.text "b" .empty] .empty] := by
  obtain ⟨q, qs, rfl⟩ := List.exists_cons_of_ne_nil hne
  obtain ⟨ls, hls⟩ : ∃ ls, ls = qs.map fun q => (q.written.toList, q.text) := ⟨_, rfl⟩
  have hspells : ∀ l ∈ ls, Spells l.1 l.2 := by
    rw [hls, List.forall_mem_map]
    exact fun q _ => q.spells
  have hword : IsWord "one_of" := ⟨'o', "ne_of".toList, rfl, rfl, List.all_eq_true.mp rfl⟩
  have hlower : "one_of".toLower = "one_of" := by decide +kernel
  have hcondition := literals_readAs hname hword (by decide +kernel) (by decide +kernel)
    (l := (q.written.toList, q.text)) q.spells hspells
  have hchoice := parsesTo_choice hcondition
  have htexts : ((q.written.toList, q.text) :: ls).map Prod.snd = (q :: qs).map (·.text) := by
    simp [hls, Function.comp_def]
  have hsource : "[#IF " ++ String.ofList ((slotText name).toList ++ ' ' :: '#' ::
      ("one_of".toList ++ '(' :: (q.written.toList ++ furtherLiterals ls ++ [')']))) ++
        "]a[ELSE]b[END IF]" = choiceByOptions name (q :: qs) := by
    rw [← String.toList_inj, choiceByOptions, List.map_cons]
    simp only [String.toList_append, toList_intercalate_cons]
    simp [hls, furtherLiterals, List.flatMap_map]
  rw [hlower, htexts, hsource] at hchoice
  exact hchoice

namespace Engine

variable {σ : Type} {e : Engine σ}

/-- **Quoted options**: unless it is overridden, a choice by `one_of` and any quoted options is
evaluated, and takes its first branch exactly if the variable's text is among what the options come
to. All texts are treated as though the options were taken as they stand if there are two options or
more, and if the one there is has no comma and no blanks around it; and in no other case. -/
theorem evaluate_choiceByOptions {name : String} (hname : IsPath name) {qs : List Quotation}
    (hne : qs ≠ []) (hbuiltin : e.operators.lookup "one_of" = none) :
    (∀ b v (w : σ), Variable.lookup name b = .ok (some (.text v)) →
      ∃ span d, e.evaluate (choiceByOptions name qs) b w =
        (.ok ⟨⟨[.text (if Among v (offered (qs.map (·.text))) then "a" else "b") span], d⟩, b, [],
          []⟩, w)) ∧
    ((∀ v, Among v (offered (qs.map (·.text))) ↔ Among v (qs.map (·.text))) ↔
      ∀ q, qs = [q] → ',' ∉ q.text.toList ∧ Text.strip q.text = q.text) := by
  constructor
  · intro b v w hv
    have hop : e.operators.find? "one_of" = some Builtin.member := by
      rw [Operators.find?, hbuiltin]
      rfl
    have hresult : Builtin.member.handler (.text v)
        (Source.literalArgument (qs.map (·.text))).value =
          .ok (.bool (decide (Among v (offered (qs.map (·.text)))))) := by
      have hne : qs.map (·.text) ≠ [] := by simpa using hne
      have htest := Builtin.oneOf_literals v hne
      change Builtin.handler Builtin.oneOf _ _ = _
      rw [Builtin.handler, htest]
    obtain ⟨span, d, heval⟩ :=
      evaluate_comparison (parsesTo_choiceByOptions hname hne) hop hv hresult w
    refine ⟨span, d, ?_⟩
    simpa [Value.truthy] using heval
  · rw [offered_literally_iff]
    constructor
    · rintro h q rfl
      exact h q.text rfl
    · intro h o ho
      obtain ⟨q, rfl, rfl⟩ := List.map_eq_singleton_iff.mp ho
      exact h q rfl

/-- A single option with a comma accepts what stands before it, which is not the option. -/
theorem evaluate_choiceByOptions_comma :
    let e : Engine Unit := ⟨{}, none, none, none, [], []⟩
    let option := Source.Quote.double.quotation "a, b"
    choiceByOptions "x" [option] = "[#IF \x7b\x7bx\x7d\x7d #one_of(\"a, b\")]a[ELSE]b[END IF]" ∧
      ¬ Among "a" [option.text] ∧
      ∃ span d, e.evaluate (choiceByOptions "x" [option]) [("x", .text "a")] () =
        (.ok ⟨⟨[.text "a" span], d⟩, [("x", .text "a")], [], []⟩, ()) := by
  intro e option
  have hpath : IsPath "x" := rfl
  have hbuiltin : e.operators.lookup "one_of" = none := rfl
  obtain ⟨span, d, heval⟩ := (evaluate_choiceByOptions hpath (List.cons_ne_nil option [])
    hbuiltin).1 [("x", .text "a")] "a" () rfl
  have hamong : Among "a" (offered ([option].map (·.text))) := by decide +kernel
  rw [if_pos hamong] at heval
  exact ⟨by decide +kernel, by decide +kernel, span, d, heval⟩

end Engine

end Stencil
