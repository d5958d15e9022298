import Mathlib.Tactic.Common
import Stencil.Proofs.Template.Hollow
import Stencil.Text.Search

/-!
The lines that are shown under the faults of a source.

Every fault of a source starts at a character that is no blank, so there is always a line that it
stands in, between newlines, and the column is a place in that line. What is shown under the fault
is the display line of the same number. This is the line that the fault stands in, up to its first
break, if all breaks in front of that line are newlines. Behind any other break the display has
fallen behind, and a line is shown that stands in front of the one that the fault is in.

A display breaks a text wherever a line between newlines ends, and at other characters too. So up
to the start of a line there are at least as many display lines as newlines, and as many only if
there are no other breaks (`isRegular`): otherwise the display is behind with its count, and shows
in place of a line one that stands in front of it.
-/

namespace Stencil.Text

/-- A display breaks the text at newlines only, with or without a carriage return in front. -/
def isRegular : List Char → Bool
  | [] => true
  | '\r' :: '\n' :: cs => isRegular cs
  | c :: cs => (c == '\n' || !isLineBreak c) && isRegular cs

/-- The text is empty or ends in a newline, so that a line starts behind it. -/
def EndsLine (cs : List Char) : Prop := ∀ c ∈ cs.getLast?, c = '\n'

variable {u v w line acc : List Char} {c : Char}

namespace EndsLine

lemma tail (h : EndsLine (c :: u)) : EndsLine u := by
  cases u with
  | nil => exact nofun
  | cons d u => exact h

lemma ne_nil (h : EndsLine (c :: u)) (hc : c ≠ '\n') : u ≠ [] := by
  rintro rfl
  exact hc (h c rfl)

end EndsLine

/-! ### Lines of a display -/

lemma isLineBreak_newline : isLineBreak '\n' = true := by decide

/-- The character does not make up a single break with what follows. -/
def StandsAlone (c : Char) (cs : List Char) : Prop := ∀ ds, c = '\r' → cs = '\n' :: ds → False

lemma displayLinesFrom_cons (h : StandsAlone c w) : displayLinesFrom (c :: w) acc =
    if isLineBreak c then acc.reverse :: displayLinesFrom w [] else displayLinesFrom w (c :: acc) :=
  displayLinesFrom.eq_4 acc c w h

lemma isRegular_cons (h : StandsAlone c w) :
    isRegular (c :: w) = ((c == '\n' || !isLineBreak c) && isRegular w) :=
  isRegular.eq_3 c w h

/-- A text that ends a line ends no break before its second half. -/
lemma StandsAlone.append (h : StandsAlone c u) (hu : EndsLine (c :: u)) (w : List Char) :
    StandsAlone c (u ++ w) := by
  rintro ds rfl hds
  cases u with
  | nil => exact absurd (hu '\r' rfl) (by decide)
  | cons d u => exact h u rfl (by rw [(List.cons.inj hds).1])

/-- Where a line starts a display starts one, too. -/
lemma displayLinesFrom_append (hu : EndsLine u) (hacc : u = [] → acc = []) (w : List Char) :
    displayLinesFrom (u ++ w) acc = displayLinesFrom u acc ++ displayLinesFrom w [] := by
  induction u, acc using displayLinesFrom.induct with
  | case1 => rfl
  | case2 acc hne => exact absurd (hacc rfl) hne
  | case3 cs acc ih => exact congrArg (acc.reverse :: ·) (ih hu.tail.tail fun _ => rfl)
  | case4 c cs acc halone hc ih =>
    rw [List.cons_append, displayLinesFrom_cons (StandsAlone.append halone hu w),
      displayLinesFrom_cons halone, if_pos hc, if_pos hc, ih hu.tail fun _ => rfl]
    rfl
  | case5 c cs acc halone hc ih =>
    have hne : cs ≠ [] := hu.ne_nil fun hn => hc (hn ▸ isLineBreak_newline)
    rw [List.cons_append, displayLinesFrom_cons (StandsAlone.append halone hu w),
      displayLinesFrom_cons halone, if_neg hc, if_neg hc, ih hu.tail fun h => absurd h hne]

/-- Up to the start of a line there are no fewer display lines than newlines, and as many only
if there are no other breaks. -/
lemma length_displayLinesFrom (hu : EndsLine u) (hacc : u = [] → acc = []) :
    u.count '\n' ≤ (displayLinesFrom u acc).length ∧
      (isRegular u = true ↔ (displayLinesFrom u acc).length = u.count '\n') := by
  induction u, acc using displayLinesFrom.induct with
  | case1 => exact ⟨Nat.le_refl _, fun _ => rfl, fun _ => rfl⟩
  | case2 acc hne => exact absurd (hacc rfl) hne
  | case3 cs acc ih =>
    obtain ⟨hle, hiff⟩ := ih hu.tail.tail fun _ => rfl
    simp only [displayLinesFrom, isRegular, List.length_cons, hiff]
    simp
    omega
  | case4 c cs acc halone hc ih =>
    obtain ⟨hle, hiff⟩ := ih hu.tail fun _ => rfl
    rw [displayLinesFrom_cons halone, isRegular_cons halone, if_pos hc, List.length_cons,
      List.count_cons, hc]
    by_cases hn : c = '\n'
    · simp [hn, hiff, hle]
    · simp [hn]
      omega
  | case5 c cs acc halone hc ih =>
    have hn : c ≠ '\n' := fun hn => hc (hn ▸ isLineBreak_newline)
    obtain ⟨hle, hiff⟩ := ih hu.tail fun h => absurd h (hu.ne_nil hn)
    rw [displayLinesFrom_cons halone, isRegular_cons halone, if_neg hc]
    simp [hn, hc, hle, hiff]

/-- The first display line of a text goes up to its first break. -/
lemma head?_displayLinesFrom (h : w = [] → acc ≠ []) :
    (displayLinesFrom w acc).head? = some (acc.reverse ++ w.takeWhile (!isLineBreak ·)) := by
  induction w, acc using displayLinesFrom.induct with
  | case1 => exact absurd rfl (h rfl)
  | case2 acc hne => simp [displayLinesFrom]
  | case3 cs acc ih => simp [displayLinesFrom, isLineBreak]
  | case4 c cs acc halone hc ih =>
    simp [displayLinesFrom_cons halone, hc]
  | case5 c cs acc halone hc ih =>
    rw [displayLinesFrom_cons halone, if_neg hc, ih fun _ => List.cons_ne_nil _ _]
    simp [hc]

/-- Behind newlines only, a display shows the line that is asked for, up to its first break. -/
lemma getElem?_displayLinesFrom_regular (hu : EndsLine u) (hw : w ≠ []) (h : isRegular u = true) :
    (displayLinesFrom (u ++ w) [])[u.count '\n']? = some (w.takeWhile (!isLineBreak ·)) := by
  have hlength := (length_displayLinesFrom hu fun _ => rfl).2.mp h
  rw [displayLinesFrom_append hu (fun _ => rfl), ← hlength, List.getElem?_append_right
    (Nat.le_refl _), Nat.sub_self, ← List.head?_eq_getElem?,
    head?_displayLinesFrom fun hnil => absurd hnil hw]
  rfl

/-- Behind other breaks, it shows a line that stands in front of the one that is asked for. -/
lemma getElem?_displayLinesFrom_irregular (hu : EndsLine u) (h : isRegular u = false)
    (w : List Char) : ∃ shown, (displayLinesFrom (u ++ w) [])[u.count '\n']? = some shown ∧
      (displayLinesFrom u [])[u.count '\n']? = some shown := by
  have hnil : u = [] → ([] : List Char) = [] := fun _ => rfl
  obtain ⟨hle, hiff⟩ := length_displayLinesFrom hu hnil
  have hne : (displayLinesFrom u []).length ≠ u.count '\n' := fun heq => by simp [hiff.mpr heq] at h
  have hlt : u.count '\n' < (displayLinesFrom u []).length := by omega
  refine ⟨_, ?_, List.getElem?_eq_getElem hlt⟩
  rw [displayLinesFrom_append hu hnil, List.getElem?_append_left hlt,
    List.getElem?_eq_getElem hlt]

example : displayLinesFrom "a\x0cb\nc".toList [] = [['a'], ['b'], ['c']] := by decide

lemma isRegular_of_forall (h : ∀ c ∈ u, isLineBreak c = true → c = '\n') : isRegular u = true := by
  induction u using isRegular.induct with
  | case1 => rfl
  | case2 cs ih => exact ih fun c hc => h c (by simp [hc])
  | case3 c cs halone ih =>
    obtain ⟨hc, hcs⟩ := List.forall_mem_cons.mp h
    rw [isRegular_cons halone, ih hcs, Bool.and_true]
    by_cases hn : c = '\n'
    · simp [hn]
    · simp [show isLineBreak c = false from by simpa using fun hb => hn (hc hb)]

end Stencil.Text

/-! ### Faults in their lines -/

namespace Stencil

open Text Source

/-- The place stands in a line of a source, between newlines, with `u` in front of the line and `v`
behind it, at a character of it. -/
structure Position.InLine (p : Position) (u line v : List Char) : Prop where
  front : EndsLine u
  whole : '\n' ∉ line
  behind : ∀ c ∈ v.head?, c = '\n'
  number : p.line = u.count '\n' + 1
  offset : p.offset + 1 = u.length + p.column
  column : 0 < p.column ∧ p.column ≤ line.length

lemma Position.InLine.ne_nil {p : Position} {u line v : List Char} (h : p.InLine u line v) :
    line ≠ [] := by
  rintro rfl
  exact Nat.not_lt.mpr h.column.2 h.column.1

/-- What is told of a fault with the line given, and a caret under the column. -/
def Diagnostic.under (d : Diagnostic) (line : List Char) : List String :=
  ["Line " ++ Number.natText d.start.line ++ ", column " ++ Number.natText d.start.column ++ ": " ++
      d.message,
    "    " ++ String.ofList line,
    "    " ++ String.ofList (List.replicate (d.start.column - 1) ' ') ++ "^"]

namespace Template

variable {source u v w line : List Char} {t : Token} {d : Diagnostic}

/-- A text is whole lines and the line behind its last newline. -/
lemma exists_lastLine (cs : List Char) : ∃ u, cs = u ++ Position.lastLine cs ∧ EndsLine u ∧
    '\n' ∉ Position.lastLine cs := by
  refine ⟨(cs.reverse.dropWhile (· != '\n')).reverse, ?_, fun c hc => ?_, fun hmem => ?_⟩
  · calc cs = (cs.reverse.takeWhile (· != '\n') ++ cs.reverse.dropWhile (· != '\n')).reverse := by
          rw [List.takeWhile_append_dropWhile, List.reverse_reverse]
      _ = (cs.reverse.dropWhile (· != '\n')).reverse ++ Position.lastLine cs :=
          List.reverse_append
  · rw [List.getLast?_reverse] at hc
    simpa using ends_dropWhile (· != '\n') cs.reverse c hc
  · simpa using List.mem_takeWhile_imp (List.mem_reverse.mp hmem)

/-- A token that is seen starts at a character of a line. -/
lemma inLine_of_marks (h : t.Marks source) (hvisible : t.Visible) :
    ∃ u line v, source = u ++ (line ++ v) ∧ t.start.InLine u line v := by
  obtain ⟨a, b, hsource, hstart⟩ := h
  obtain ⟨ch, cs, hlexeme, hblank⟩ := hvisible
  obtain ⟨u, ha, hu, hlast⟩ := exists_lastLine a
  have hch : (ch != '\n') = true := by
    by_contra hn
    obtain rfl : ch = '\n' := by simpa using hn
    cases hblank
  obtain ⟨w, hw⟩ : ∃ w, (ch :: cs ++ b).takeWhile (· != '\n') = ch :: w :=
    ⟨_, List.takeWhile_cons_of_pos hch⟩
  have hcount : (Position.lastLine a).count '\n' = 0 := List.count_eq_zero.mpr hlast
  refine ⟨u, Position.lastLine a ++ ch :: w, (ch :: cs ++ b).dropWhile (· != '\n'), ?_,
    hu, ?_, ?_, ?_, ?_, ?_⟩
  · rw [hsource, hlexeme, List.append_assoc (Position.lastLine a), ← hw,
      List.takeWhile_append_dropWhile, ← List.append_assoc u, ← ha, List.append_assoc]
  · rw [← hw]
    refine fun hmem => (List.mem_append.mp hmem).elim hlast fun hmem => ?_
    simpa using List.mem_takeWhile_imp hmem
  · intro c hc
    simpa using ends_dropWhile (· != '\n') (ch :: cs ++ b) c hc
  · rw [hstart, Position.line_advance, ha, List.count_append, hcount]
    exact Nat.add_comm _ _
  · rw [hstart, Position.offset_advance_origin, Position.column_advance_origin_eq]
    conv_lhs => rw [ha]
    rw [List.length_append]
    omega
  · rw [hstart, Position.column_advance_origin_eq, List.length_append, List.length_cons]
    omega

/-- Every fault of a source stands in a line of it. -/
lemma inLine_of_mem_errors {source : String} (hd : d ∈ (parse source).errors) :
    ∃ u line v, source.toList = u ++ (line ++ v) ∧ d.start.InLine u line v := by
  obtain ⟨t, ht, htext, hend, hstart⟩ := (parse_tells source).stands d hd
  rw [hstart]
  exact inLine_of_marks (tokenize_marks source t ht) (tokenize_visible source t ht htext hend)

lemma report_eq_under {source : String} {shown : List Char} (hline : 0 < d.start.line)
    (h : (displayLinesFrom source.toList [])[d.start.line - 1]? = some shown) :
    d.report (displayLines source) = d.under shown := by
  unfold Diagnostic.report
  rw [displayLines, List.getElem?_map, h]
  simp only [Option.map_some, if_pos hline]
  rfl

end Template

/-- What a display shows as the line with the number `u.count '\n'`, counted from zero, of a source
with `u` in front of `line`. -/
structure Shows (u line shown : List Char) : Prop where
  /-- Behind newlines alone it is the line, up to its first break. -/
  regular : isRegular u = true → shown = line.takeWhile (!isLineBreak ·)
  /-- Behind any other break it is a line that stands wholly in front. -/
  irregular : isRegular u = false → (displayLinesFrom u [])[u.count '\n']? = some shown
  /-- Without any other break it is the line. -/
  plain : (∀ c ∈ u ++ line, isLineBreak c = true → c = '\n') → shown = line

open Template

lemma exists_shows {u line v : List Char} (hu : EndsLine u) (hline : line ≠ [])
    (hwhole : '\n' ∉ line) (hv : ∀ c ∈ v.head?, c = '\n') : ∃ shown,
    (displayLinesFrom (u ++ (line ++ v)) [])[u.count '\n']? = some shown ∧ Shows u line shown := by
  have hbehind : (line ++ v).takeWhile (!isLineBreak ·) = line.takeWhile (!isLineBreak ·) := by
    have hnone : v.takeWhile (!isLineBreak ·) = [] :=
      takeWhile_eq_nil_iff.mpr fun c hc => by rw [hv c hc]; rfl
    rw [List.takeWhile_append, hnone, List.append_nil]
    split
    · rename_i hlength
      exact ((List.takeWhile_prefix _).eq_of_length hlength).symm
    · rfl
  have hplain (hall : ∀ c ∈ u ++ line, isLineBreak c = true → c = '\n') :
      isRegular u = true ∧ line.takeWhile (!isLineBreak ·) = line := by
    obtain ⟨hfront, hself⟩ := List.forall_mem_append.mp hall
    refine ⟨isRegular_of_forall hfront, List.takeWhile_eq_self_iff.mpr fun c hc => ?_⟩
    have hn : c ≠ '\n' := fun hn => hwhole (hn ▸ hc)
    simpa using fun hb => hn (hself c hc hb)
  cases h : isRegular u with
  | true =>
    have hshown := getElem?_displayLinesFrom_regular (w := line ++ v) hu (by simp [hline]) h
    rw [hbehind] at hshown
    exact ⟨_, hshown, fun _ => rfl, fun hf => by simp [h] at hf, fun hall => (hplain hall).2⟩
  | false =>
    obtain ⟨shown, hshown, hfront⟩ := getElem?_displayLinesFrom_irregular hu h (line ++ v)
    refine ⟨shown, hshown, fun ht => by simp [h] at ht, fun _ => hfront, fun hall => ?_⟩
    rw [(hplain hall).1] at h
    cases h

/-- **Lines under faults**: under each fault of a source a line is shown, and a caret under the
column of the fault. The line and the column of the fault tell where it stands, in a line between
newlines. This line is shown up to its first break, if there are only newlines in front of it, with
or without carriage returns, and is shown as it is if there are no other breaks in it; behind any
other break what is shown is a line that stands wholly in front of it. -/
theorem reportAll_shows (source : String) : ∃ shown : Diagnostic → List Char,
    Diagnostic.reportAll (parse source).errors source =
        "\n".intercalate ((parse source).errors.flatMap fun d => d.under (shown d)) ∧
      ∀ d ∈ (parse source).errors, ∃ u line v, source.toList = u ++ (line ++ v) ∧
        d.start.InLine u line v ∧ Shows u line (shown d) := by
  have hline : ∀ d ∈ (parse source).errors, ∃ u line v, source.toList = u ++ (line ++ v) ∧
      d.start.InLine u line v ∧ ∃ shown,
        (displayLinesFrom source.toList [])[d.start.line - 1]? = some shown ∧
          Shows u line shown := by
    intro d hd
    obtain ⟨u, line, v, hsource, hin⟩ := inLine_of_mem_errors hd
    obtain ⟨shown, hshown, hshows⟩ := exists_shows hin.front hin.ne_nil hin.whole hin.behind
    refine ⟨u, line, v, hsource, hin, shown, ?_, hshows⟩
    rw [hin.number, hsource]
    exact hshown
  refine ⟨fun d => ((displayLinesFrom source.toList [])[d.start.line - 1]?).getD [], ?_, ?_⟩
  · unfold Diagnostic.reportAll
    refine congrArg _ (List.flatMap_congr fun d hd => ?_)
    obtain ⟨u, line, v, -, hin, shown, hshown, -⟩ := hline d hd
    dsimp only
    rw [hshown]
    exact report_eq_under (by rw [hin.number]; exact Nat.succ_pos _) hshown
  · intro d hd
    obtain ⟨u, line, v, hsource, hin, shown, hshown, hshows⟩ := hline d hd
    refine ⟨u, line, v, hsource, hin, ?_⟩
    dsimp only
    rw [hshown]
    exact hshows

end Stencil
