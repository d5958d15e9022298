import Mathlib.Data.List.Induction
import Stencil.Proofs.Text.Pieces
import Stencil.Source.Token

/-!
Places of a source in three ways: by walking over the text in front, which is how tokens get
theirs, by looking up the line that an offset falls in, and by cutting a token's text into lines.
They agree, so that a place may be found in whichever way is at hand.
-/

namespace Stencil

/-- Where lines start behind the newlines of a text that has `n` characters in front. -/
def lineStartsFrom (n : Nat) : List Char → List Nat
  | [] => []
  | c :: cs =>
    if c == '\n' then (n + 1) :: lineStartsFrom (n + 1) cs else lineStartsFrom (n + 1) cs

/-- The offsets at which the lines of a source start. -/
def lineStarts (source : List Char) : List Nat := 0 :: lineStartsFrom 0 source

namespace Position

/-- The place at an offset: in the last line that starts there or before. -/
def located (source : List Char) (n : Nat) : Position :=
  let before := (lineStarts source).takeWhile (· ≤ n)
  ⟨n, before.length, n - before.getLastD 0 + 1⟩

/-! ### Looking up lines -/

lemma lt_of_mem_lineStartsFrom {n k : Nat} {cs : List Char} (h : k ∈ lineStartsFrom n cs) :
    n < k := by
  induction cs generalizing n with
  | nil => cases h
  | cons c cs ih =>
    unfold lineStartsFrom at h
    split at h
    · rcases List.mem_cons.mp h with rfl | h
      · exact Nat.lt_succ_self n
      · exact Nat.lt_of_succ_lt (ih h)
    · exact Nat.lt_of_succ_lt (ih h)

/-- No line behind a newline starts in front of it. -/
lemma takeWhile_lineStartsFrom_self (n : Nat) (cs : List Char) :
    (lineStartsFrom n cs).takeWhile (· ≤ n) = [] := by
  rcases h : lineStartsFrom n cs with _ | ⟨k, ks⟩
  · rfl
  · have hk : n < k := lt_of_mem_lineStartsFrom (by rw [h]; exact List.mem_cons_self)
    simp [hk]

/-- Walking on from a place in a line that starts at `s`. -/
lemma advance_take {p : Position} {s : Nat} (hs : s ≤ p.offset)
    (hcolumn : p.column = p.offset - s + 1) {cs : List Char} {j : Nat} (hj : j ≤ cs.length) :
    p.advance (cs.take j) =
      let before := (lineStartsFrom p.offset cs).takeWhile (· ≤ p.offset + j)
      ⟨p.offset + j, p.line + before.length, p.offset + j - before.getLastD s + 1⟩ := by
  induction cs generalizing p s j with
  | nil =>
    obtain rfl : j = 0 := Nat.le_zero.mp hj
    simp [advance, lineStartsFrom, ← hcolumn]
  | cons c cs ih =>
    rcases j with _ | j
    · simp [advance, takeWhile_lineStartsFrom_self, ← hcolumn]
    have hj : j ≤ cs.length := Nat.le_of_succ_le_succ hj
    have hoffset : p.offset + 1 + j = p.offset + (j + 1) := by omega
    change (p.next c).advance (cs.take j) = _
    by_cases hc : (c == '\n') = true
    · have hnext : p.next c = ⟨p.offset + 1, p.line + 1, 1⟩ := by simp [next, hc]
      rw [hnext, ih (s := p.offset + 1) (Nat.le_refl _) (by simp) hj]
      simp only [lineStartsFrom, hc, if_true, hoffset]
      rw [List.takeWhile_cons_of_pos (by simp)]
      simp only [List.length_cons, List.getLastD_cons, Position.mk.injEq, true_and, and_true]
      omega
    · have hnext : p.next c = ⟨p.offset + 1, p.line, p.column + 1⟩ := by simp [next, hc]
      rw [hnext, ih (s := s) (by simp; omega) (by simp [hcolumn]; omega) hj]
      simp only [lineStartsFrom, hc, hoffset]
      rfl

/-- The place at an offset is the place behind the characters in front of it. -/
lemma located_eq {source : List Char} {n : Nat} (h : n ≤ source.length) :
    located source n = origin.advance (source.take n) := by
  have hfirst : (lineStarts source).takeWhile (· ≤ n) =
      0 :: (lineStartsFrom 0 source).takeWhile (· ≤ n) :=
    List.takeWhile_cons_of_pos (by simp)
  rw [advance_take (s := 0) (Nat.zero_le _) rfl h]
  simp only [located, hfirst, origin, List.length_cons, List.getLastD_cons, Nat.zero_add,
    Nat.add_comm 1]

lemma offset_advance_origin (u : List Char) : (origin.advance u).offset = u.length :=
  (advance_offset origin u).trans (Nat.zero_add _)

lemma located_append (u v : List Char) : located (u ++ v) u.length = origin.advance u := by
  rw [located_eq (by simp), List.take_left]

/-! ### Lines and columns as counts -/

/-- The characters behind the last newline. -/
def lastLine (cs : List Char) : List Char := (cs.reverse.takeWhile (· != '\n')).reverse

lemma advance_snoc (p : Position) (cs : List Char) (c : Char) :
    p.advance (cs ++ [c]) = (p.advance cs).next c := advance_append p cs [c]

lemma line_advance (p : Position) (cs : List Char) :
    (p.advance cs).line = p.line + cs.count '\n' := by
  induction cs using List.reverseRecOn with
  | nil => rfl
  | append_singleton cs c ih =>
    rw [advance_snoc, List.count_append, next]
    split <;> simp_all [Nat.add_assoc]

lemma column_advance_origin_eq (cs : List Char) :
    (origin.advance cs).column = 1 + (lastLine cs).length := by
  induction cs using List.reverseRecOn with
  | nil => rfl
  | append_singleton cs c ih =>
    rw [advance_snoc, next, lastLine]
    split <;> simp_all [lastLine]
    omega

end Position

/-! ### Tokens over several lines -/

namespace Token

/-- The offset behind the characters of a token. -/
def stopOffset (t : Token) : Nat := t.start.offset + t.lexeme.length

/-- The place behind a token, found by cutting its text into lines: on the first it is as many
columns further as there are characters, on another the line alone counts. -/
def stopByLines (t : Token) : Position :=
  let lines := Text.splitBy (· == '\n') t.lexeme.toList
  ⟨t.stopOffset, t.start.line + lines.length - 1,
    if lines.length = 1 then t.start.column + t.lexeme.length else (lines.getLastD []).length + 1⟩

lemma advance_splitBy (p : Position) (cs : List Char) :
    p.advance cs =
      let lines := Text.splitBy (· == '\n') cs
      ⟨p.offset + cs.length, p.line + lines.length - 1,
        if lines.length = 1 then p.column + cs.length else (lines.getLastD []).length + 1⟩ := by
  induction cs generalizing p with
  | nil => simp [Position.advance, Text.splitBy]
  | cons c cs ih =>
    obtain ⟨w, ws, hw⟩ := Text.splitBy_eq_cons (· == '\n') cs
    change (p.next c).advance cs = _
    rw [ih, Text.splitBy, hw]
    by_cases hc : (c == '\n') = true
    · have hnext : p.next c = ⟨p.offset + 1, p.line + 1, 1⟩ := by simp [Position.next, hc]
      simp only [hnext, hc, if_true, List.length_cons, Position.mk.injEq]
      refine ⟨by omega, by omega, ?_⟩
      rcases ws with _ | ⟨v, vs⟩
      · obtain rfl := Text.eq_of_splitBy_eq_singleton hw
        simp [Nat.add_comm]
      · simp
    · have hnext : p.next c = ⟨p.offset + 1, p.line, p.column + 1⟩ := by simp [Position.next, hc]
      simp only [hnext, hc, List.length_cons, Position.mk.injEq]
      refine ⟨by omega, rfl, ?_⟩
      rcases ws with _ | ⟨v, vs⟩
      · simp
        omega
      · simp

lemma stop_eq_stopByLines (t : Token) : t.stop = t.stopByLines := by
  rw [stop, advance_splitBy, String.length_toList]
  rfl

end Token

end Stencil
