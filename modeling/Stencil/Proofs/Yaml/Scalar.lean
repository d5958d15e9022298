import Mathlib.Data.List.TakeWhile
import Stencil.Proofs.Json.Number
import Stencil.Yaml.Scan
import Stencil.Yaml.Write

/-!
Scalars on one line, read back.

What is written inside a line takes as many columns as it has characters (`Cursor.skip_past`). In
quotes each character stands for itself or is escaped, and the reader undoes the escapes, while it
takes blanks in runs (`quotedScalar_quotedText`).

A plain scalar in brackets is one word or several with blanks between them. A word goes on up to a
blank or a mark of the brackets, and a colon is part of it where it goes on behind the colon
(`plainScalar_of_isPlain`).
-/

namespace Stencil.Yaml

open Text (hexDigit hexDigits)

/-! ### Places inside a line -/

/-- A plain ASCII character: it ends no line, and is one column wide. -/
def isInline (c : Char) : Bool := 32 ≤ c.toNat && c.toNat < 127

/-- All characters stand inside a line. -/
def Inline (cs : List Char) : Prop := ∀ c ∈ cs, isInline c = true

lemma Inline.nil : Inline [] := List.forall_mem_nil _

lemma Inline.append {cs ds : List Char} (hcs : Inline cs) (hds : Inline ds) : Inline (cs ++ ds) :=
  fun c hc => (List.mem_append.mp hc).elim (hcs c) (hds c)

lemma Inline.cons {c : Char} {cs : List Char} (hc : isInline c = true) (hcs : Inline cs) :
    Inline (c :: cs) :=
  List.forall_mem_cons.mpr ⟨hc, hcs⟩

lemma Inline.flatMap {α : Type} {f : α → List Char} {as : List α} (h : ∀ a ∈ as, Inline (f a)) :
    Inline (as.flatMap f) := fun c hc => by
  obtain ⟨a, ha, hc⟩ := List.mem_flatMap.mp hc
  exact h a ha c hc

lemma ne_of_isInline {c d : Char} (hc : isInline c = true) (hd : isInline d = false) : c ≠ d := by
  rintro rfl
  exact Bool.false_ne_true (hd.symm.trans hc)

lemma isBreak_of_isInline {c : Char} (h : isInline c = true) : isBreak c = false := by
  simp only [isBreak, Bool.or_eq_false_iff, beq_eq_false_iff_ne]
  exact ⟨⟨⟨⟨ne_of_isInline h (by decide), ne_of_isInline h (by decide)⟩,
    ne_of_isInline h (by decide)⟩, ne_of_isInline h (by decide)⟩, ne_of_isInline h (by decide)⟩

namespace Cursor

/-- Behind a number of characters of the line. -/
def past (c : Cursor) (n : Nat) : Cursor := ⟨c.rest.drop n, c.index + n, c.line, c.column + n⟩

lemma past_zero (c : Cursor) : c.past 0 = c := rfl

lemma past_past (c : Cursor) (m n : Nat) : (c.past m).past n = c.past (m + n) := by
  simp [past, List.drop_drop, Nat.add_assoc]

lemma rest_past {c : Cursor} {w r : List Char} (h : c.rest = w ++ r) :
    (c.past w.length).rest = r := by
  simp [past, h]

lemma next_past {c : Cursor} {ch : Char} {r : List Char} (h : c.rest = ch :: r)
    (hch : isInline ch = true) : c.next = c.past 1 := by
  obtain ⟨rest, i, l, k⟩ := c
  obtain rfl : rest = ch :: r := h
  have hmark : (ch == '\ufeff') = false := beq_eq_false_iff_ne.mpr (ne_of_isInline hch (by decide))
  simp [next, past, isBreak_of_isInline hch, hmark]

lemma skip_past {c : Cursor} {w r : List Char} (h : c.rest = w ++ r) (hw : Inline w) :
    c.skip w.length = c.past w.length := by
  induction w generalizing c with
  | nil => rfl
  | cons ch w ih =>
    obtain ⟨hch, hw⟩ := List.forall_mem_cons.mp hw
    have hrest : (c.past 1).rest = w ++ r := rest_past (w := [ch]) h
    rw [List.length_cons, skip, next_past h hch, ih hrest hw, past_past, Nat.add_comm]

/-- What a run of characters of a line is cut off as. -/
lemma span_past {c : Cursor} {p : Char → Bool} {w r : List Char} (h : c.rest = w ++ r)
    (hw : Inline w) (hp : ∀ ch ∈ w, p ch = true) (hr : Json.HeadFails p r) :
    c.span p = (w, c.past w.length) := by
  rw [span, h, Json.takeWhile_append_of_all hp hr, skip_past h hw]

lemma rest_past_blanks {c : Cursor} {k : Nat} {r : List Char}
    (h : c.rest = List.replicate k ' ' ++ r) : (c.past k).rest = r := by
  have hpast := rest_past h
  rwa [List.length_replicate] at hpast

lemma span_blanks {c : Cursor} {p : Char → Bool} {k : Nat} {ch : Char} {r : List Char}
    (h : c.rest = List.replicate k ' ' ++ ch :: r) (hp : p ' ' = true) (hch : p ch = false) :
    c.span p = (List.replicate k ' ', c.past k) := by
  have hall : ∀ d ∈ List.replicate k ' ', d = ' ' := fun d hd => List.eq_of_mem_replicate hd
  have hspan := span_past h (fun d hd => hall d hd ▸ (by decide)) (fun d hd => hall d hd ▸ hp)
    (by rintro _ ⟨⟩; exact hch)
  rwa [List.length_replicate] at hspan

end Cursor

lemma lineBreak?_of_isInline {c : Cursor} {ch : Char} {r : List Char} (h : c.rest = ch :: r)
    (hch : isInline ch = true) : lineBreak? c = none := by
  have hreturn : ch ≠ '\r' := ne_of_isInline hch (by decide)
  have hsep : ch ≠ '\u2028' := ne_of_isInline hch (by decide)
  have hpar : ch ≠ '\u2029' := ne_of_isInline hch (by decide)
  simp [lineBreak?, h, hreturn, hsep, hpar, isBreak_of_isInline hch]

/-! ### Hexadecimal digits -/

lemma hexValue?_hexDigit : ∀ k < 16, Json.hexValue? (hexDigit k) = some k := by decide

lemma length_hexDigits (width n : Nat) : (hexDigits width n).length = width := by
  induction width generalizing n with
  | zero => rfl
  | succ w ih => rw [hexDigits, List.length_append, ih, List.length_singleton]

lemma hexValue?_of_mem_hexDigits {width n : Nat} {c : Char} (h : c ∈ hexDigits width n) :
    (Json.hexValue? c).isSome = true := by
  induction width generalizing n with
  | zero => cases h
  | succ w ih =>
    rcases List.mem_append.mp h with h | h
    · exact ih h
    · obtain rfl := List.mem_singleton.mp h
      rw [hexValue?_hexDigit _ (Nat.mod_lt _ (by decide))]
      rfl

lemma codeOf_hexDigits (width n : Nat) : codeOf (hexDigits width n) = n % 16 ^ width := by
  induction width generalizing n with
  | zero => exact (Nat.mod_one n).symm
  | succ w ih =>
    have hlast : codeOf (hexDigits (w + 1) n) = codeOf (hexDigits w (n / 16)) * 16 + n % 16 := by
      rw [codeOf, hexDigits, List.foldl_append, List.foldl_cons, List.foldl_nil,
        hexValue?_hexDigit _ (Nat.mod_lt _ (by decide))]
      rfl
    rw [hlast, ih, pow_succ, Nat.mul_comm (16 ^ w), Nat.mod_mul]
    omega

lemma inline_hexDigits (width n : Nat) : Inline (hexDigits width n) := by
  have hdigit : ∀ k < 16, isInline (hexDigit k) = true := by decide
  induction width generalizing n with
  | zero => exact .nil
  | succ w ih =>
    exact (ih _).append (.cons (hdigit _ (Nat.mod_lt _ (by decide))) .nil)

/-! ### Quoted texts -/

lemma inline_quotedChar (c : Char) : Inline (quotedChar c) := by
  unfold quotedChar
  dsimp only
  split_ifs with hquote hplain
  · refine .cons (by decide) (.cons ?_ .nil)
    rcases Bool.or_eq_true_iff.mp hquote with h | h <;> rw [eq_of_beq h] <;> decide
  · exact .cons (by simpa [isInline] using hplain) .nil
  all_goals exact .cons (by decide) (.cons (by decide) (inline_hexDigits _ _))

lemma inline_quotedText (s : String) : Inline (quotedText s).toList := by
  rw [quotedText, String.toList_ofList]
  exact (Inline.cons (by decide) (.flatMap fun c _ => inline_quotedChar c)).append
    (.cons (by decide) .nil)

/-- The code of a character is read back as the character. -/
lemma codeChar_toNat (ch : Char) (c : Cursor) : codeChar ch.toNat c = .ok (ch, c) := by
  have hvalid : ch.toNat < 0xd800 ∨ 0xdfff < ch.toNat ∧ ch.toNat < 0x110000 := ch.valid
  unfold codeChar
  rw [if_neg (by omega), if_neg (by simp; omega), if_neg (by simp; omega), Char.ofNat_toNat]

/-- An escape by number is undone. -/
lemma escaped_hexDigits {ch mark : Char} {width : Nat} (hcode : codeLength? mark = some width)
    (hmark : escapes.lookup mark = none) (hinline : isInline mark = true)
    (hwidth : ch.toNat < 16 ^ width) {c : Cursor} {r : List Char}
    (h : c.rest = mark :: hexDigits width ch.toNat ++ r) :
    escaped c = .ok ([ch], c.past (width + 1)) := by
  have hpeek : c.peek = some mark := by
    rw [Cursor.peek, h]
    rfl
  have hnext : c.next = c.past 1 := Cursor.next_past h hinline
  have hrest : (c.past 1).rest = hexDigits width ch.toNat ++ r := Cursor.rest_past (w := [mark]) h
  have htake : (c.past 1).rest.take width = hexDigits width ch.toNat := by
    rw [hrest, List.take_left' (length_hexDigits width _)]
  have hdigits : (hexDigits width ch.toNat).any (fun d => (Json.hexValue? d).isNone) = false := by
    rw [List.any_eq_false]
    intro d hd
    simpa using Option.isSome_iff_ne_none.mp (hexValue?_of_mem_hexDigits hd)
  have hskip : (c.past 1).skip width = c.past (width + 1) := by
    have := Cursor.skip_past hrest (inline_hexDigits _ _)
    rwa [length_hexDigits, Cursor.past_past, Nat.add_comm] at this
  unfold escaped
  simp only [hpeek, hmark, hcode, hnext, htake, hdigits, hskip, length_hexDigits, codeOf_hexDigits,
    Nat.mod_eq_of_lt hwidth, codeChar_toNat]
  simp [bind, Except.bind, pure, Except.pure]

/-- The character is escaped. -/
def isEscaped (c : Char) : Bool := c == '"' || c == '\\' || !isInline c

lemma quotedChar_of_not_isEscaped {c : Char} (h : isEscaped c = false) : quotedChar c = [c] := by
  obtain ⟨⟨hquote, hslash⟩, hinline⟩ : ((c == '"') = false ∧ (c == '\\') = false) ∧
      isInline c = true := by
    simpa [isEscaped, and_assoc] using h
  have hplain : 32 ≤ c.toNat ∧ c.toNat < 127 := by simpa [isInline] using hinline
  unfold quotedChar
  rw [if_neg (by simp [hquote, hslash])]
  simp [hplain]

/-- What an escape for a character stands for is the character. -/
lemma exists_escape {ch : Char} (h : isEscaped ch = true) :
    ∃ e, quotedChar ch = '\\' :: e ∧ e ≠ [] ∧ ∀ {c : Cursor} {r : List Char}, c.rest = e ++ r →
      escaped c = .ok ([ch], c.past e.length) := by
  have hvalid : ch.toNat < 0xd800 ∨ 0xdfff < ch.toNat ∧ ch.toNat < 0x110000 := ch.valid
  unfold quotedChar
  dsimp only
  split_ifs with hquote hplain hbyte hshort
  · refine ⟨[ch], rfl, List.cons_ne_nil _ _, fun {c r} hrest => ?_⟩
    have hnext : c.next = c.past 1 := by
      refine Cursor.next_past hrest ?_
      rcases Bool.or_eq_true_iff.mp hquote with h | h <;> rw [eq_of_beq h] <;> decide
    have hpeek : c.peek = some ch := by
      rw [Cursor.peek, hrest]
      rfl
    have hlookup : escapes.lookup ch = some ch := by
      rcases Bool.or_eq_true_iff.mp hquote with h | h <;> rw [eq_of_beq h] <;> rfl
    unfold escaped
    simp only [hpeek, hlookup, hnext]
    rfl
  · simp only [isEscaped, isInline, hplain, Bool.not_true, Bool.or_false] at h
    exact absurd h hquote
  · refine ⟨_, rfl, List.cons_ne_nil _ _, fun hrest => ?_⟩
    rw [List.length_cons, length_hexDigits]
    exact escaped_hexDigits rfl rfl (by decide) (by omega) hrest
  · refine ⟨_, rfl, List.cons_ne_nil _ _, fun hrest => ?_⟩
    rw [List.length_cons, length_hexDigits]
    exact escaped_hexDigits rfl rfl (by decide) (by omega) hrest
  · refine ⟨_, rfl, List.cons_ne_nil _ _, fun hrest => ?_⟩
    rw [List.length_cons, length_hexDigits]
    exact escaped_hexDigits rfl rfl (by decide) (by omega) hrest

lemma quotedFrom_end {c : Cursor} {r : List Char} (h : c.rest = '"' :: r) (n : Nat)
    (text : List Char) : quotedFrom true (n + 1) text c = .ok (text, c.past 1) := by
  rw [← Cursor.next_past h (by decide)]
  simp [quotedFrom, h]

lemma quotedFrom_escape {c : Cursor} {r e : List Char} {d : Cursor} (h : c.rest = '\\' :: r)
    (he : escaped (c.past 1) = .ok (e, d)) (n : Nat) (text : List Char) :
    quotedFrom true (n + 1) text c = quotedFrom true n (e.reverse ++ text) d := by
  simp [quotedFrom, h, Cursor.next_past h (by decide), he]

/-- A character that stands for itself, and is no blank. -/
lemma quotedFrom_plain {c : Cursor} {ch : Char} {r : List Char} (h : c.rest = ch :: r)
    (hch : isEscaped ch = false) (hblank : ch ≠ ' ') (n : Nat) (text : List Char) :
    quotedFrom true (n + 1) text c = quotedFrom true n (ch :: text) (c.past 1) := by
  obtain ⟨⟨hquote, hslash⟩, hinline⟩ : (ch ≠ '"' ∧ ch ≠ '\\') ∧ isInline ch = true := by
    simpa [isEscaped, and_assoc] using hch
  have htab : ch ≠ '\t' := ne_of_isInline hinline (by decide)
  rw [← Cursor.next_past h hinline]
  conv_lhs => unfold quotedFrom
  rw [h]
  split
  · rename_i heq
    cases heq
  · rename_i heq
    obtain ⟨rfl, -⟩ := List.cons.inj heq
    rfl
  · rename_i heq
    obtain ⟨rfl, -⟩ := List.cons.inj heq
    simp [hquote, hslash, hblank, htab, isBreak_of_isInline hinline]

/-- A run of blanks is read at once. -/
lemma quotedFrom_blanks {c : Cursor} {k : Nat} {ch : Char} {r : List Char}
    (h : c.rest = List.replicate (k + 1) ' ' ++ ch :: r) (hinline : isInline ch = true)
    (hblank : ch ≠ ' ') (n : Nat) (text : List Char) :
    quotedFrom true (n + 1) text c =
      quotedFrom true n (List.replicate (k + 1) ' ' ++ text) (c.past (k + 1)) := by
  have htab : ch ≠ '\t' := ne_of_isInline hinline (by decide)
  have hspan : c.span (fun ch => ch == ' ' || ch == '\t') =
      (List.replicate (k + 1) ' ', c.past (k + 1)) :=
    Cursor.span_blanks h rfl (by simp [hblank, htab])
  have hrest : (c.past (k + 1)).rest = ch :: r := Cursor.rest_past_blanks h
  have hbreak : lineBreak? (c.past (k + 1)) = none := lineBreak?_of_isInline hrest hinline
  have hpeek : (c.past (k + 1)).peek = some ch := by
    rw [Cursor.peek, hrest]
    rfl
  have hblanks : quotedBlanks c = .ok (List.replicate (k + 1) ' ', c.past (k + 1)) := by
    simp [quotedBlanks, hspan, hbreak, hpeek, pure, Except.pure]
  rw [List.replicate_succ, List.cons_append] at h
  simp [quotedFrom, h, hblanks]

/-- What follows a run of blanks in quotes is no blank. -/
lemma exists_cons_flatMap_quotedChar {cs : List Char} (h : cs.head? ≠ some ' ') (r : List Char) :
    ∃ ch r', cs.flatMap quotedChar ++ '"' :: r = ch :: r' ∧ isInline ch = true ∧ ch ≠ ' ' := by
  rcases cs with _ | ⟨ch, cs⟩
  · exact ⟨'"', r, rfl, by decide, by decide⟩
  · cases hch : isEscaped ch with
    | true =>
      obtain ⟨e, he, -, -⟩ := exists_escape hch
      rw [List.flatMap_cons, he]
      exact ⟨'\\', _, rfl, by decide, by decide⟩
    | false =>
      rw [List.flatMap_cons, quotedChar_of_not_isEscaped hch]
      have hinline : isInline ch = true := by
        simp only [isEscaped, Bool.or_eq_false_iff, Bool.not_eq_false'] at hch
        exact hch.2
      exact ⟨ch, _, rfl, hinline, fun hblank => h (congrArg some hblank)⟩

/-- The blanks at the start of a text, split off. -/
lemma exists_blanks (cs : List Char) :
    ∃ k ds, cs = List.replicate k ' ' ++ ds ∧ ds.head? ≠ some ' ' := by
  induction cs with
  | nil => exact ⟨0, [], rfl, by simp⟩
  | cons c cs ih =>
    by_cases hc : c = ' '
    · obtain ⟨k, ds, hds, hhead⟩ := ih
      exact ⟨k + 1, ds, by rw [hc, hds, List.replicate_succ, List.cons_append], hhead⟩
    · exact ⟨0, c :: cs, rfl, by simpa using hc⟩

lemma flatMap_quotedChar_blanks (k : Nat) :
    (List.replicate k ' ').flatMap quotedChar = List.replicate k ' ' := by
  induction k with
  | zero => rfl
  | succ k ih =>
    rw [List.replicate_succ, List.flatMap_cons, ih]
    rfl

/-- The escapes of characters are undone, up to the closing quote. -/
lemma quotedFrom_flatMap {cs : List Char} {c : Cursor} {r : List Char}
    (h : c.rest = cs.flatMap quotedChar ++ '"' :: r) {n : Nat}
    (hn : (cs.flatMap quotedChar).length < n) (text : List Char) :
    quotedFrom true n text c =
      .ok (cs.reverse ++ text, c.past ((cs.flatMap quotedChar).length + 1)) := by
  -- blanks come in runs, so the induction is on the length
  induction hlength : cs.length using Nat.strong_induction_on generalizing cs c n text with
  | _ l ih =>
    subst hlength
    obtain ⟨n, rfl⟩ := Nat.exists_eq_add_one_of_ne_zero (Nat.ne_zero_of_lt hn)
    rcases cs with _ | ⟨ch, cs⟩
    · exact quotedFrom_end h n text
    rw [List.flatMap_cons, List.length_append] at hn
    cases hch : isEscaped ch with
    | true =>
      obtain ⟨e, he, hne, hescape⟩ := exists_escape hch
      rw [List.flatMap_cons, he] at h
      rw [he] at hn
      have hrest : (c.past 1).rest = e ++ (cs.flatMap quotedChar ++ '"' :: r) := by
        have := Cursor.rest_past (w := ['\\']) (r := e ++ (cs.flatMap quotedChar ++ '"' :: r))
          (by simpa using h)
        exact this
      have hrest' : ((c.past 1).past e.length).rest = cs.flatMap quotedChar ++ '"' :: r :=
        Cursor.rest_past hrest
      rw [quotedFrom_escape h (hescape hrest), ih cs.length (by simp) hrest' (by
        rw [List.length_cons] at hn
        omega) _ rfl, Cursor.past_past, Cursor.past_past, List.flatMap_cons, he]
      simp [Nat.add_comm, Nat.add_left_comm]
    | false =>
      have hquoted := quotedChar_of_not_isEscaped hch
      rw [hquoted] at hn
      by_cases hblank : ch = ' '
      · obtain ⟨k, ds, hds, hhead⟩ := exists_blanks cs
        subst hblank hds
        obtain ⟨d, r', hr', hd, hne⟩ := exists_cons_flatMap_quotedChar hhead r
        rw [← List.cons_append, ← List.replicate_succ] at h ⊢
        rw [List.flatMap_append, flatMap_quotedChar_blanks, List.append_assoc] at h
        have hrest := Cursor.rest_past_blanks h
        rw [hr'] at h
        rw [List.flatMap_append, flatMap_quotedChar_blanks, List.length_append,
          List.length_replicate, List.length_singleton] at hn
        rw [quotedFrom_blanks h hd hne, ih ds.length (by
            rw [List.length_cons, List.length_append, List.length_replicate]
            omega) hrest (by omega) _ rfl,
          Cursor.past_past, List.flatMap_append, flatMap_quotedChar_blanks, List.length_append,
          List.length_replicate, List.reverse_append, List.reverse_replicate, List.append_assoc,
          ← Nat.add_assoc]
      · rw [List.flatMap_cons, hquoted] at h
        have hrest : (c.past 1).rest = cs.flatMap quotedChar ++ '"' :: r :=
          Cursor.rest_past (w := [ch]) h
        rw [quotedFrom_plain h hch hblank, ih cs.length (by simp) hrest (by
          rw [List.length_singleton] at hn
          omega) _ rfl, Cursor.past_past, List.flatMap_cons, hquoted]
        simp [Nat.add_comm]

/-- **A text in quotes is read as the text.** -/
lemma quotedScalar_quotedText {s : String} {c : Cursor} {r : List Char}
    (h : c.rest = (quotedText s).toList ++ r) :
    quotedScalar true c = .ok (s, c.past (quotedText s).length) := by
  have hlength : (quotedText s).length = (s.toList.flatMap quotedChar).length + 2 := by
    rw [← String.length_toList, quotedText, String.toList_ofList]
    simp
  rw [quotedText, String.toList_ofList, List.cons_append, List.cons_append, List.append_assoc,
    List.singleton_append] at h
  have hrest : (c.past 1).rest = s.toList.flatMap quotedChar ++ '"' :: r :=
    Cursor.rest_past (w := ['"']) h
  have hfuel : (s.toList.flatMap quotedChar).length < c.rest.length + 1 := by
    rw [h]
    simp
    omega
  have hread := quotedFrom_flatMap hrest hfuel []
  rw [Cursor.past_past, Nat.add_comm 1, List.append_nil] at hread
  rw [quotedScalar, Cursor.next_past h (by decide), hread, hlength]
  simp [bind, Except.bind, pure, Except.pure]

/-- A character that may stand in a word wherever it stands. -/
def isOrdinary (c : Char) : Bool := isInline c && !" ,?[]\x7b\x7d:#".toList.contains c

/-- Ordinary characters, and colons in front of such. -/
def isWord : List Char → Bool
  | [] => true
  | ':' :: c :: cs => isOrdinary c && isWord (c :: cs)
  | c :: cs => isOrdinary c && isWord cs

lemma isWord_of_forall {cs : List Char} (h : ∀ c ∈ cs, isOrdinary c = true) :
    isWord cs = true := by
  fun_induction isWord cs with
  | case1 => rfl
  | case2 c cs ih =>
    exact absurd (h ':' List.mem_cons_self) (by decide)
  | case3 c cs _ ih =>
    obtain ⟨hc, hcs⟩ := List.forall_mem_cons.mp h
    rw [hc, ih hcs]
    rfl

lemma isWord_cons {c : Char} {cs : List Char} (hc : isOrdinary c = true)
    (hcs : isWord cs = true) : isWord (c :: cs) = true := by
  have hcolon : c ≠ ':' := by
    rintro rfl
    exact absurd hc (by decide)
  rw [isWord, hc, hcs]
  · rfl
  · exact fun d ds heq => absurd heq hcolon

lemma isWord_append {u v : List Char} (hu : isWord u = true) (hv : isWord v = true) :
    isWord (u ++ v) = true := by
  fun_induction isWord u with
  | case1 => exact hv
  | case2 c cs ih =>
    obtain ⟨hc, hcs⟩ := Bool.and_eq_true_iff.mp hu
    simpa [isWord, hc] using ih hcs
  | case3 c cs hcolon ih =>
    obtain ⟨hc, hcs⟩ := Bool.and_eq_true_iff.mp hu
    have hne : c ≠ ':' := by
      rintro rfl
      exact absurd hc (by decide)
    rw [List.cons_append, isWord, hc, ih hcs]
    · rfl
    · intro d ds hd
      exact absurd hd hne

lemma isInline_of_isOrdinary {c : Char} (h : isOrdinary c = true) : isInline c = true :=
  (Bool.and_eq_true_iff.mp h).1

lemma ne_of_isOrdinary {c d : Char} (hc : isOrdinary c = true) (hd : isOrdinary d = false) :
    c ≠ d := by
  rintro rfl
  exact Bool.false_ne_true (hd.symm.trans hc)

lemma endsWord_of_isInline {c : Char} (hc : isInline c = true) (hblank : c ≠ ' ') :
    endsWord (some c) = false := by
  have htab : c ≠ '\t' := ne_of_isInline hc (by decide)
  simp [endsWord, hblank, htab, isBreak_of_isInline hc]

lemma endsWord_of_isOrdinary {c : Char} (h : isOrdinary c = true) :
    endsWord (some c) = false :=
  endsWord_of_isInline (isInline_of_isOrdinary h) (ne_of_isOrdinary h (by decide))

lemma inline_of_isWord {w : List Char} (h : isWord w = true) : Inline w := by
  fun_induction isWord w with
  | case1 => simp [Inline]
  | case2 c cs ih =>
    obtain ⟨-, hcs⟩ := Bool.and_eq_true_iff.mp h
    exact .cons (by decide) (ih hcs)
  | case3 c cs _ ih =>
    obtain ⟨hc, hcs⟩ := Bool.and_eq_true_iff.mp h
    exact .cons (isInline_of_isOrdinary hc) (ih hcs)

lemma head_of_isWord {c : Char} {cs : List Char} (h : isWord (c :: cs) = true) :
    isInline c = true ∧ c ≠ ' ' ∧ c ≠ '#' := by
  by_cases hcolon : c = ':'
  · subst hcolon
    decide
  · have hc : isOrdinary c = true := by
      rw [isWord] at h
      · exact (Bool.and_eq_true_iff.mp h).1
      · exact fun d ds hd => absurd hd hcolon
    exact ⟨isInline_of_isOrdinary hc, ne_of_isOrdinary hc (by decide),
      ne_of_isOrdinary hc (by decide)⟩

/-- A word is read up to what ends it. -/
lemma plainWord_append {w r : List Char} (hw : isWord w = true) (hr : endsPlain true r = true) :
    plainWord true (w ++ r) = w := by
  fun_induction isWord w with
  | case1 =>
    rcases r with _ | ⟨c, r⟩
    · rfl
    · rw [List.nil_append, plainWord, if_pos hr]
  | case2 c cs ih =>
    obtain ⟨hc, hcs⟩ := Bool.and_eq_true_iff.mp hw
    have hmark : ",[]\x7b\x7d".toList.contains c = false := by
      simp [ne_of_isOrdinary hc (d := ',') (by decide), ne_of_isOrdinary hc (d := '[') (by decide),
        ne_of_isOrdinary hc (d := ']') (by decide), ne_of_isOrdinary hc (d := '\x7b') (by decide),
        ne_of_isOrdinary hc (d := '\x7d') (by decide)]
    have hgoes : endsPlain true (':' :: c :: (cs ++ r)) = false := by
      simp only [endsPlain, List.head?_cons, endsWord_of_isOrdinary hc, Option.any_some, hmark]
      rfl
    rw [List.cons_append, List.cons_append, plainWord, if_neg (by simp [hgoes]),
      ← List.cons_append, ih hcs]
  | case3 c cs _ ih =>
    obtain ⟨hc, hcs⟩ := Bool.and_eq_true_iff.mp hw
    have hgoes : endsPlain true (c :: (cs ++ r)) = false := by
      have hmark : ",?[]\x7b\x7d".toList.contains c = false := by
        simp [ne_of_isOrdinary hc (d := ',') (by decide),
          ne_of_isOrdinary hc (d := '?') (by decide), ne_of_isOrdinary hc (d := '[') (by decide),
          ne_of_isOrdinary hc (d := ']') (by decide),
          ne_of_isOrdinary hc (d := '\x7b') (by decide),
          ne_of_isOrdinary hc (d := '\x7d') (by decide)]
      have hcolon : (c == ':') = false := beq_eq_false_iff_ne.mpr (ne_of_isOrdinary hc (by decide))
      simp only [endsPlain, endsWord_of_isOrdinary hc, hcolon, hmark]
      rfl
    rw [List.cons_append, plainWord, if_neg (by simp [hgoes]), ih hcs]

/-- Words with blanks between them. -/
def IsPlain (cs : List Char) : Prop :=
  ∃ w ws, cs = w ++ ws.flatMap (' ' :: ·) ∧ ∀ v ∈ w :: ws, v ≠ [] ∧ isWord v = true

lemma IsPlain.of_isWord {w : List Char} (hw : isWord w = true) (hne : w ≠ []) : IsPlain w :=
  ⟨w, [], by simp, by simp [hw, hne]⟩

lemma IsPlain.inline {cs : List Char} (h : IsPlain cs) : Inline cs := by
  obtain ⟨w, ws, rfl, hws⟩ := h
  obtain ⟨⟨-, hw⟩, hws⟩ := List.forall_mem_cons.mp hws
  exact (inline_of_isWord hw).append
    (.flatMap fun v hv => .cons (by decide) (inline_of_isWord (hws v hv).2))

/-! ### Plain scalars -/

/-- A plain scalar can begin with the character, whatever follows. -/
def canLead (c : Char) : Bool := isOrdinary c && !"-&*!|>'\"%@\x60".toList.contains c

/-- A text in brackets begins as a plain scalar does. -/
def LeadsPlain (cs : List Char) : Prop :=
  ∃ c cs', cs = c :: cs' ∧
    (canLead c = true ∨ c = '-' ∧ ∃ d ds, cs' = d :: ds ∧ isOrdinary d = true)

/-- The rest of a text stops a plain scalar in brackets, blanks apart. -/
def StopsPlain (r : List Char) : Prop :=
  ∃ c r', r = c :: r' ∧ endsPlain true r = true ∧ isInline c = true ∧ c ≠ ' ' ∧ c ≠ '#'

/-- The blanks behind a word, where the line goes on. -/
lemma gap_blanks {c : Cursor} {k : Nat} {ch : Char} {r : List Char}
    (h : c.rest = List.replicate k ' ' ++ ch :: r) (hch : isInline ch = true) (hblank : ch ≠ ' ') :
    gap c = ⟨List.replicate k ' ', false, c.past k⟩ := by
  have hspan : c.span (· == ' ') = (List.replicate k ' ', c.past k) :=
    Cursor.span_blanks h rfl (by simpa using hblank)
  have hrest : (c.past k).rest = ch :: r := Cursor.rest_past_blanks h
  simp [gap, hspan, lineBreak?_of_isInline hrest hch]

lemma sees_eq_false {c : Cursor} {ch d : Char} {r : List Char} (h : c.rest = ch :: r)
    (hne : ch ≠ d) : c.sees d = false := by
  simp [Cursor.sees, Cursor.peek, h, hne]

/-- A word is read, and the blanks behind it. -/
lemma plainFrom_word {w r : List Char} {k : Nat} {ch : Char} (hw : isWord w = true) (hne : w ≠ [])
    (hends : endsPlain true (List.replicate k ' ' ++ ch :: r) = true)
    (hch : isInline ch = true ∧ ch ≠ ' ' ∧ ch ≠ '#') {c : Cursor}
    (h : c.rest = w ++ (List.replicate k ' ' ++ ch :: r)) (n : Nat)
    (indent : Int) (text between : List Char) (broken : Bool) :
    plainFrom true indent (n + 1) text between broken c =
      if k = 0 then (w.reverse ++ (between.reverse ++ text), false, c.past w.length)
      else plainFrom true indent n (w.reverse ++ (between.reverse ++ text))
        (List.replicate k ' ') false (c.past (w.length + k)) := by
  have hword : plainWord true c.rest = w := by rw [h, plainWord_append hw hends]
  have hcomment : c.sees '#' = false := by
    obtain ⟨d, ds, rfl⟩ := List.exists_cons_of_ne_nil hne
    exact sees_eq_false h (head_of_isWord hw).2.2
  have hpast := Cursor.rest_past h
  have hgap : gap (c.skip w.length) = ⟨List.replicate k ' ', false, c.past (w.length + k)⟩ := by
    rw [Cursor.skip_past h (inline_of_isWord hw), gap_blanks hpast hch.1 hch.2.1, Cursor.past_past]
  have hbehind : (c.past (w.length + k)).sees '#' = false := by
    rw [← Cursor.past_past]
    exact sees_eq_false (Cursor.rest_past_blanks hpast) hch.2.2
  have hempty : w.isEmpty = false := by simpa using hne
  rw [plainFrom]
  simp only [hword, hcomment, hempty, hgap, hbehind]
  rcases k with _ | k
  · simp
  · simp [List.replicate_succ]

/-- Words are read up to what stops them, and the blanks behind the last one. -/
lemma plainFrom_words {w : List Char} {ws : List (List Char)} {r : List Char} {k : Nat}
    (hws : ∀ v ∈ w :: ws, v ≠ [] ∧ isWord v = true) (hr : StopsPlain r) {c : Cursor}
    (h : c.rest = w ++ (ws.flatMap (' ' :: ·) ++ (List.replicate k ' ' ++ r))) {n : Nat}
    (hn : ws.length + 1 < n) (indent : Int) (text between : List Char) (broken : Bool) :
    plainFrom true indent n text between broken c =
      ((ws.flatMap (' ' :: ·)).reverse ++ (w.reverse ++ (between.reverse ++ text)), false,
        c.past (w.length + ((ws.flatMap (' ' :: ·)).length + k))) := by
  induction ws generalizing w c n text between broken with
  | nil =>
    obtain ⟨n, rfl⟩ := Nat.exists_eq_add_one_of_ne_zero (Nat.ne_zero_of_lt hn)
    obtain ⟨hne, hword⟩ := hws w List.mem_cons_self
    obtain ⟨ch, r', rfl, hends, hch⟩ := hr
    have hends' : endsPlain true (List.replicate k ' ' ++ ch :: r') = true := by
      rcases k with _ | k
      · exact hends
      · rfl
    rw [List.flatMap_nil, List.nil_append] at h
    rw [plainFrom_word hword hne hends' hch h]
    split
    · rename_i hk
      simp [hk]
    · have hrest : (c.past (w.length + k)).rest = ch :: r' := by
        rw [← Cursor.past_past]
        exact Cursor.rest_past_blanks (Cursor.rest_past h)
      obtain ⟨n, rfl⟩ := Nat.exists_eq_add_one_of_ne_zero (n := n) (by
        rw [List.length_nil] at hn
        omega)
      have hempty : plainWord true (c.past (w.length + k)).rest = [] := by
        rw [hrest, plainWord, if_pos hends]
      rw [plainFrom]
      simp [hempty]
  | cons v vs ih =>
    obtain ⟨n, rfl⟩ := Nat.exists_eq_add_one_of_ne_zero (Nat.ne_zero_of_lt hn)
    obtain ⟨⟨hne, hword⟩, hvs⟩ := List.forall_mem_cons.mp hws
    obtain ⟨hne', hword'⟩ := hvs v List.mem_cons_self
    obtain ⟨d, ds, rfl⟩ := List.exists_cons_of_ne_nil hne'
    have h' : c.rest = w ++ (List.replicate 1 ' ' ++ d :: (ds ++ (vs.flatMap (' ' :: ·) ++
        (List.replicate k ' ' ++ r)))) := by
      simpa using h
    have hrest : (c.past (w.length + 1)).rest = d :: ds ++ (vs.flatMap (' ' :: ·) ++
        (List.replicate k ' ' ++ r)) := by
      rw [← Cursor.past_past]
      exact Cursor.rest_past_blanks (Cursor.rest_past h')
    rw [plainFrom_word hword hne rfl (head_of_isWord hword') h', if_neg one_ne_zero,
      ih hvs hrest (by
        rw [List.length_cons] at hn
        omega), Cursor.past_past]
    simp [Nat.add_assoc, Nat.add_comm, Nat.add_left_comm]

/-- **A text of words is read as it is**, up to what stops it. -/
lemma plainScalar_of_isPlain {cs r : List Char} {k : Nat} (hcs : IsPlain cs) (hr : StopsPlain r)
    {c : Cursor} (h : c.rest = cs ++ (List.replicate k ' ' ++ r)) (indent : Int) :
    plainScalar true indent c = (String.ofList cs, false, c.past (cs.length + k)) := by
  obtain ⟨w, ws, rfl, hws⟩ := hcs
  rw [List.append_assoc] at h
  have hlength : ws.length ≤ (ws.flatMap (' ' :: ·)).length := by
    rw [List.length_flatMap]
    refine (List.length_map _).symm.trans_le (List.length_le_sum_of_one_le _ fun n hn => ?_)
    obtain ⟨v, -, rfl⟩ := List.mem_map.mp hn
    simp
  have hfuel : ws.length + 1 < c.rest.length + 1 := by
    obtain ⟨hne, -⟩ := hws w List.mem_cons_self
    have := List.length_pos_iff.mpr hne
    rw [h, List.length_append, List.length_append]
    omega
  rw [plainScalar, plainFrom_words hws hr h hfuel]
  simp [Nat.add_assoc]

end Stencil.Yaml
