import Mathlib.Data.List.Infix
import Mathlib.Data.List.DropRight
import Stencil.Proofs.Render
import Stencil.Proofs.Text.Pieces

/-!
Runs of newlines in rendered texts.

A collapsed text is told by the runs of newlines in the text it comes from (`Collapsed`): there is
one for every text, and it is what `collapseBlankLines` gives (`collapsed_iff`). A character that
is no newline ends every run, so texts on its two sides are collapsed each by itself
(`collapseFrom_append_cons`). That is why blanks may be cut off before as well as after.
-/

namespace Stencil

/-- Every run of newlines, as long as it goes, is cut down to two, and all else stays. -/
inductive Collapsed : List Char → List Char → Prop
  | plain {as : List Char} (h : '\n' ∉ as) : Collapsed as as
  | run {as bs cs : List Char} {n : ℕ} (h : '\n' ∉ as) (hn : 0 < n)
    (hend : bs.head? ≠ some '\n') (rest : Collapsed bs cs) :
    Collapsed (as ++ List.replicate n '\n' ++ bs) (as ++ List.replicate (min n 2) '\n' ++ cs)

variable {c : Char} {as bs cs : List Char} {run n : ℕ}

/-! ### Single characters -/

lemma collapseFrom_nil (run : ℕ) : collapseFrom run [] = [] := rfl

lemma collapseFrom_cons_of_ne (hc : c ≠ '\n') :
    collapseFrom run (c :: cs) = c :: collapseFrom 0 cs := by
  rw [collapseFrom, if_neg (by simpa using hc)]

lemma collapseFrom_newline_of_lt (h : run < 2) :
    collapseFrom run ('\n' :: cs) = '\n' :: collapseFrom (run + 1) cs := by
  rw [collapseFrom, if_pos (by rfl), if_pos h]

lemma collapseFrom_newline_of_le (h : 2 ≤ run) :
    collapseFrom run ('\n' :: cs) = collapseFrom (run + 1) cs := by
  rw [collapseFrom, if_pos (by rfl), if_neg (by omega)]

/-- Where no newline follows, those in front do not matter. -/
lemma collapseFrom_of_head? (h : cs.head? ≠ some '\n') :
    collapseFrom run cs = collapseFrom 0 cs := by
  cases cs with
  | nil => rfl
  | cons c cs =>
    have hc : c ≠ '\n' := by simpa using h
    rw [collapseFrom_cons_of_ne hc, collapseFrom_cons_of_ne hc]

/-- What stands on the two sides of another character is collapsed by itself. -/
lemma collapseFrom_append_cons (as : List Char) (hc : c ≠ '\n') (cs : List Char) :
    collapseFrom run (as ++ c :: cs) = collapseFrom run as ++ c :: collapseFrom 0 cs := by
  induction as generalizing run with
  | nil => exact collapseFrom_cons_of_ne hc
  | cons a as ih =>
    rw [List.cons_append]
    by_cases ha : a = '\n'
    · subst ha
      rcases Nat.lt_or_ge run 2 with hrun | hrun
      · rw [collapseFrom_newline_of_lt hrun, collapseFrom_newline_of_lt hrun, ih, List.cons_append]
      · rw [collapseFrom_newline_of_le hrun, collapseFrom_newline_of_le hrun, ih]
    · rw [collapseFrom_cons_of_ne ha, collapseFrom_cons_of_ne ha, ih, List.cons_append]

/-! ### Runs -/

lemma collapseFrom_append_of_notMem (h : '\n' ∉ as) (cs : List Char) :
    collapseFrom 0 (as ++ cs) = as ++ collapseFrom 0 cs := by
  induction as with
  | nil => rfl
  | cons a as ih =>
    obtain ⟨ha, has⟩ := List.ne_and_not_mem_of_not_mem_cons h
    rw [List.cons_append, collapseFrom_cons_of_ne (Ne.symm ha), ih has, List.cons_append]

lemma collapseFrom_of_notMem (h : '\n' ∉ as) : collapseFrom 0 as = as := by
  have happend := collapseFrom_append_of_notMem h []
  rwa [List.append_nil, collapseFrom_nil, List.append_nil] at happend

/-- Of a run, what is missing to two newlines is kept. -/
lemma collapseFrom_replicate (h : cs.head? ≠ some '\n') :
    collapseFrom run (List.replicate n '\n' ++ cs) =
      List.replicate (min n (2 - run)) '\n' ++ collapseFrom 0 cs := by
  induction n generalizing run with
  | zero => simpa using collapseFrom_of_head? h
  | succ n ih =>
    rw [List.replicate_succ, List.cons_append]
    rcases Nat.lt_or_ge run 2 with hrun | hrun
    · have hmin : min (n + 1) (2 - run) = min n (2 - (run + 1)) + 1 := by omega
      rw [collapseFrom_newline_of_lt hrun, ih, hmin, List.replicate_succ, List.cons_append]
    · have hmin : min (n + 1) (2 - run) = min n (2 - (run + 1)) := by omega
      rw [collapseFrom_newline_of_le hrun, ih, hmin]

/-- A text has no newline, or a first run of them. -/
lemma exists_run (cs : List Char) : '\n' ∉ cs ∨ ∃ as n bs, cs = as ++ List.replicate n '\n' ++ bs ∧
    '\n' ∉ as ∧ 0 < n ∧ bs.head? ≠ some '\n' := by
  induction cs with
  | nil => exact .inl List.not_mem_nil
  | cons c cs ih =>
    by_cases hc : c = '\n'
    · subst hc
      right
      by_cases hhead : cs.head? = some '\n'
      · rcases ih with hmem | ⟨as, n, bs, rfl, has, hn, hbs⟩
        · exact absurd (List.mem_of_mem_head? hhead) hmem
        · obtain rfl : as = [] := by
            rcases as with _ | ⟨a, as⟩
            · rfl
            · obtain rfl : a = '\n' := by simpa using hhead
              exact absurd List.mem_cons_self has
          refine ⟨[], n + 1, bs, ?_, List.not_mem_nil, Nat.succ_pos n, hbs⟩
          simp [List.replicate_succ]
      · exact ⟨[], 1, cs, rfl, List.not_mem_nil, Nat.one_pos, hhead⟩
    · rcases ih with hmem | ⟨as, n, bs, rfl, has, hn, hbs⟩
      · exact .inl (List.not_mem_cons_of_ne_of_not_mem (Ne.symm hc) hmem)
      · exact .inr ⟨c :: as, n, bs, by simp, List.not_mem_cons_of_ne_of_not_mem (Ne.symm hc) has,
          hn, hbs⟩

/-- **There is one way to collapse a text.** -/
theorem collapsed_iff : Collapsed cs bs ↔ bs = collapseFrom 0 cs := by
  constructor
  · intro h
    induction h with
    | plain h => exact (collapseFrom_of_notMem h).symm
    | run h _ hend _ ih =>
      rw [List.append_assoc, List.append_assoc, collapseFrom_append_of_notMem h,
        collapseFrom_replicate hend, ih, Nat.sub_zero]
  · rintro rfl
    induction hlength : cs.length using Nat.strong_induction_on generalizing cs with
    | h k ih =>
      rcases exists_run cs with hmem | ⟨as, n, bs, rfl, has, hn, hbs⟩
      · rw [collapseFrom_of_notMem hmem]
        exact .plain hmem
      · have hshort : bs.length < k := by simp at hlength; omega
        rw [List.append_assoc, collapseFrom_append_of_notMem has, collapseFrom_replicate hbs,
          Nat.sub_zero, ← List.append_assoc, ← List.append_assoc]
        exact .run has hn hbs (ih _ hshort rfl)

lemma collapsed_collapseFrom (cs : List Char) : Collapsed cs (collapseFrom 0 cs) :=
  collapsed_iff.mpr rfl

lemma Collapsed.head?_eq (h : Collapsed cs bs) : bs.head? = cs.head? := by
  cases h with
  | plain => rfl
  | @run as _ _ n _ hn =>
    rcases as with _ | ⟨a, as⟩
    · obtain ⟨n, rfl⟩ := Nat.exists_eq_add_one_of_ne_zero hn.ne'
      have hmin : min (n + 1) 2 = min n 1 + 1 := by omega
      simp [hmin, List.replicate_succ]
    · rfl

/-- A collapsed text has no run that is too long. -/
lemma Collapsed.self (h : Collapsed cs bs) : Collapsed bs bs := by
  induction h with
  | plain h => exact .plain h
  | @run as bs cs n h hn hend rest ih =>
    have hmin : min (min n 2) 2 = min n 2 := by omega
    have hrun := Collapsed.run h (n := min n 2) (by omega) (rest.head?_eq ▸ hend) ih
    rwa [hmin] at hrun

lemma collapseFrom_collapseFrom (cs : List Char) :
    collapseFrom 0 (collapseFrom 0 cs) = collapseFrom 0 cs :=
  (collapsed_iff.mp (collapsed_collapseFrom cs).self).symm

/-! ### Long runs -/

lemma length_collapseFrom_le (run : ℕ) (cs : List Char) :
    (collapseFrom run cs).length ≤ cs.length := by
  induction cs generalizing run with
  | nil => exact le_rfl
  | cons c cs ih =>
    rw [collapseFrom]
    split_ifs
    · exact Nat.succ_le_succ (ih _)
    · exact (ih _).trans (Nat.le_succ _)
    · exact Nat.succ_le_succ (ih _)

/-- Where three newlines stand together, one is taken out at least. -/
lemma length_collapseFrom_lt (run : ℕ) (as cs : List Char) :
    (collapseFrom run (as ++ '\n' :: '\n' :: '\n' :: cs)).length <
      (as ++ '\n' :: '\n' :: '\n' :: cs).length := by
  induction as generalizing run with
  | nil =>
    have hnewline : ∃ k, (collapseFrom run ('\n' :: '\n' :: '\n' :: cs)).length ≤
        (collapseFrom k cs).length + 2 := by
      rcases run with _ | _ | run
      · exact ⟨3, le_rfl⟩
      · exact ⟨4, Nat.le_succ _⟩
      · refine ⟨run + 5, ?_⟩
        rw [collapseFrom_newline_of_le (by omega), collapseFrom_newline_of_le (by omega),
          collapseFrom_newline_of_le (by omega)]
        exact Nat.le_add_right _ 2
    obtain ⟨k, hk⟩ := hnewline
    have hrest := length_collapseFrom_le k cs
    simp only [List.nil_append, List.length_cons]
    omega
  | cons a as ih =>
    rw [List.cons_append, collapseFrom, List.length_cons]
    split_ifs
    · exact Nat.succ_lt_succ (ih _)
    · exact (ih _).trans (Nat.lt_succ_self _)
    · exact Nat.succ_lt_succ (ih _)

lemma not_infix_collapseFrom (cs : List Char) : ¬ ['\n', '\n', '\n'] <:+: collapseFrom 0 cs := by
  rintro ⟨as, bs, h⟩
  have hlt := length_collapseFrom_lt 0 as bs
  have heq : as ++ '\n' :: '\n' :: '\n' :: bs = collapseFrom 0 cs := by simpa using h
  rw [heq, collapseFrom_collapseFrom] at hlt
  exact lt_irrefl _ hlt

/-! ### Blanks at the ends -/

lemma isBlank_newline : Text.isBlank '\n' = true := by decide

lemma ne_newline_of_not_isBlank (h : Text.isBlank c = false) : c ≠ '\n' := by
  rintro rfl
  rw [isBlank_newline] at h
  cases h

/-- Nothing is put into a text when it is collapsed. -/
lemma sublist_collapseFrom (cs : List Char) : (collapseFrom run cs).Sublist cs := by
  induction cs generalizing run with
  | nil => exact List.nil_sublist _
  | cons c cs ih =>
    rw [collapseFrom]
    split_ifs
    · exact ih.cons_cons c
    · exact ih.cons c
    · exact ih.cons_cons c

lemma forall_mem_collapseFrom {P : Char → Prop} (h : ∀ a ∈ cs, P a) :
    ∀ a ∈ collapseFrom run cs, P a :=
  fun a ha => h a ((sublist_collapseFrom cs).subset ha)

lemma dropWhile_collapseFrom (cs : List Char) :
    (collapseFrom 0 cs).dropWhile Text.isBlank = collapseFrom 0 (cs.dropWhile Text.isBlank) := by
  have hlead : ∀ a ∈ cs.takeWhile Text.isBlank, Text.isBlank a = true := fun _ =>
    List.mem_takeWhile_imp
  conv_lhs => rw [← List.takeWhile_append_dropWhile (p := Text.isBlank) (l := cs)]
  rcases hrest : cs.dropWhile Text.isBlank with _ | ⟨c, rest⟩
  · rw [List.append_nil, collapseFrom_nil, List.dropWhile_eq_nil_iff]
    exact forall_mem_collapseFrom hlead
  · have hc : Text.isBlank c = false := by
      have hhead := List.head?_dropWhile_not Text.isBlank cs
      simpa [hrest] using hhead
    rw [collapseFrom_append_cons _ (ne_newline_of_not_isBlank hc),
      List.dropWhile_append_of_pos (forall_mem_collapseFrom hlead),
      List.dropWhile_cons_of_neg (by simp [hc]),
      collapseFrom_cons_of_ne (ne_newline_of_not_isBlank hc)]

/-- A last character is kept or not, and that is all that it changes. -/
lemma collapseFrom_concat (as : List Char) (c : Char) :
    collapseFrom run (as ++ [c]) = collapseFrom run as ∨
      collapseFrom run (as ++ [c]) = collapseFrom run as ++ [c] := by
  induction as generalizing run with
  | nil =>
    rw [List.nil_append, collapseFrom_nil, collapseFrom]
    split_ifs
    · exact .inr rfl
    · exact .inl rfl
    · exact .inr rfl
  | cons a as ih =>
    rw [List.cons_append, collapseFrom, collapseFrom]
    split_ifs
    · exact ih.imp (congrArg _) (congrArg _)
    · exact ih
    · exact ih.imp (congrArg _) (congrArg _)

lemma rdropWhile_collapseFrom (cs : List Char) :
    (collapseFrom 0 cs).rdropWhile Text.isBlank = collapseFrom 0 (cs.rdropWhile Text.isBlank) := by
  induction cs using List.reverseRecOn with
  | nil => rfl
  | append_singleton as c ih =>
    cases hc : Text.isBlank c with
    | true =>
      rw [List.rdropWhile_concat_pos _ _ _ hc, ← ih]
      rcases collapseFrom_concat as c with h | h
      · rw [h]
      · rw [h, List.rdropWhile_concat_pos _ _ _ hc]
    | false =>
      rw [List.rdropWhile_concat_neg _ _ _ (by simp [hc]),
        collapseFrom_append_cons _ (ne_newline_of_not_isBlank hc),
        collapseFrom_nil, List.rdropWhile_concat_neg _ _ _ (by simp [hc])]

lemma trimBlanks_collapseFrom (cs : List Char) :
    Text.trimBlanks (collapseFrom 0 cs) = collapseFrom 0 (Text.trimBlanks cs) := by
  have htrim (ds : List Char) :
      Text.trimBlanks ds = (ds.dropWhile Text.isBlank).rdropWhile Text.isBlank := rfl
  rw [htrim, htrim, dropWhile_collapseFrom, rdropWhile_collapseFrom]

/-! ### Texts -/

lemma toList_collapseBlankLines (s : String) :
    (collapseBlankLines s).toList = collapseFrom 0 s.toList := String.toList_ofList

lemma collapseBlankLines_collapseBlankLines (s : String) :
    collapseBlankLines (collapseBlankLines s) = collapseBlankLines s := by
  rw [collapseBlankLines, toList_collapseBlankLines, collapseFrom_collapseFrom, collapseBlankLines]

lemma strip_collapseBlankLines (s : String) :
    Text.strip (collapseBlankLines s) = collapseBlankLines (Text.strip s) := by
  rw [Text.strip, toList_collapseBlankLines, trimBlanks_collapseFrom, collapseBlankLines,
    Text.strip, String.toList_ofList]

/-- No two empty lines stand together, and no blank stands at either end. -/
structure IsTidy (s : String) : Prop where
  noEmptyLines : Text.hasText "\n\n\n" s = false
  noLeadingBlank : ∀ c ∈ s.toList.head?, Text.isBlank c = false
  noTrailingBlank : ∀ c ∈ s.toList.getLast?, Text.isBlank c = false

lemma head?_trimBlanks (cs : List Char) :
    ∀ c ∈ (Text.trimBlanks cs).head?, Text.isBlank c = false := by
  intro c hc
  have hprefix : Text.trimBlanks cs <+: cs.dropWhile Text.isBlank := List.rdropWhile_prefix _ _
  obtain ⟨rest, hrest⟩ := hprefix
  obtain ⟨ds, hds⟩ : ∃ ds, Text.trimBlanks cs = c :: ds := List.head?_eq_some_iff.mp hc
  rw [hds, List.cons_append] at hrest
  have := List.head?_dropWhile_not Text.isBlank cs
  rw [← hrest] at this
  simpa using this

lemma getLast?_trimBlanks (cs : List Char) :
    ∀ c ∈ (Text.trimBlanks cs).getLast?, Text.isBlank c = false := by
  intro c hc
  rw [Text.trimBlanks, List.getLast?_reverse] at hc
  have := List.head?_dropWhile_not Text.isBlank (cs.dropWhile Text.isBlank).reverse
  rw [Option.mem_def.mp hc] at this
  simpa using this

lemma isTidy_collapseBlankLines (s : String) : IsTidy (collapseBlankLines (Text.strip s)) where
  noEmptyLines := by
    rw [Bool.eq_false_iff, Ne, Text.hasText_iff, toList_collapseBlankLines]
    exact not_infix_collapseFrom _
  noLeadingBlank := by
    rw [← strip_collapseBlankLines, Text.strip, String.toList_ofList]
    exact head?_trimBlanks _
  noTrailingBlank := by
    rw [← strip_collapseBlankLines, Text.strip, String.toList_ofList]
    exact getLast?_trimBlanks _

/-- **Collapsing newlines is exact.** Of every text each run of newlines is cut down to two and
nothing else is changed, a second time changes nothing, and blanks may be cut off before or after.
So what is rendered with both is the plain text trimmed first and collapsed then, with no blanks at
its ends and no three newlines together; it fails where plain rendering fails. -/
theorem render_collapsed_trimmed (s : String) (p : Render.Policy) (b : Bindings)
    (ns : List Node) :
    (∀ t : String, Collapsed s.toList t.toList ↔ t = collapseBlankLines s) ∧
      collapseBlankLines (collapseBlankLines s) = collapseBlankLines s ∧
      Text.strip (collapseBlankLines s) = collapseBlankLines (Text.strip s) ∧
      ((∃ f, render p {} b ns = .error f ∧
          render p { trim := true, collapseNewlines := true } b ns = .error f) ∨
        ∃ plain text, render p {} b ns = .ok plain ∧
          render p { trim := true, collapseNewlines := true } b ns = .ok text ∧
          text = collapseBlankLines (Text.strip plain) ∧ IsTidy text) := by
  refine ⟨fun t => ?_, collapseBlankLines_collapseBlankLines s, strip_collapseBlankLines s, ?_⟩
  · rw [collapsed_iff, ← toList_collapseBlankLines, String.toList_inj]
  · rw [render_plain]
    rcases hnodes : Render.nodes p b ns with f | plain
    · exact .inl ⟨f, rfl, render_error_iff.mpr hnodes⟩
    · refine .inr ⟨plain, _, rfl, ?_, rfl, isTidy_collapseBlankLines plain⟩
      rw [← strip_collapseBlankLines]
      exact congrArg (Except.map _) hnodes

end Stencil
