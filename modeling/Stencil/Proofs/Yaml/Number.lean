import Stencil.Proofs.Number.Spelled
import Stencil.Proofs.Yaml.Scalar
import Stencil.Yaml.Kind

/-!
Numbers written as YAML, read back.

An integer is digits without a zero in front, and looks like nothing else (`readInt_intText`). A
finite double is written with a point, and looks like a number with one; what is read from its
digits rounds to the double (`readFloat_doubleText`).
-/

namespace Stencil.Yaml

open Number
open Json (AllDigits IsWhole Parts isAsciiDigit digitsOf signText)

/-! ### Words -/

/-- Numbers and dates begin with such a character, and words do not. -/
def leadsNumber (c : Char) : Bool := isAsciiDigit c || c == '-' || c == '.'

/-- The words that plain scalars of other kinds consist of. -/
def kindWords : List String :=
  truthWords.flatMap (fun e => [e.1, e.1.capitalize, e.1.toUpper]) ++
    ["<<", "~", "null", "Null", "NULL", "", "="]

lemma kindWords_all : (kindWords.all fun w => !w.toList.head?.any leadsNumber) = true := by
  decide +kernel

/-- What begins as a number does is none of the words. -/
lemma notMem_kindWords {s : String} {c : Char} {cs : List Char} (h : s.toList = c :: cs)
    (hc : leadsNumber c = true) : s ∉ kindWords := by
  intro hmem
  have hall := List.all_eq_true.mp kindWords_all s hmem
  rw [h] at hall
  simp [hc] at hall

lemma looksBool_of_notMem {s : String} (h : s ∉ kindWords) : looksBool s = false := by
  refine List.any_eq_false.mpr fun e he hword => h (List.mem_append_left _ ?_)
  refine List.mem_flatMap.mpr ⟨e, he, ?_⟩
  simpa [or_assoc] using hword

/-- The kind of what begins as a number does is known from how it looks. -/
lemma plainKind_of_leadsNumber {s : String} {c : Char} {cs : List Char} (h : s.toList = c :: cs)
    (hc : leadsNumber c = true) : plainKind s =
      if looksFloat s.toList then .float
      else if looksInt s.toList then .int
      else if looksTimestamp s.toList then .timestamp
      else .text := by
  have hwords := notMem_kindWords h hc
  have hne (w : String) (hw : w ∈ kindWords) : (s == w) = false :=
    beq_eq_false_iff_ne.mpr fun heq => hwords (heq ▸ hw)
  have hnull : ["~", "null", "Null", "NULL", ""].contains s = false := by
    simp only [List.contains_eq_any_beq, List.any_eq_false]
    intro w hw
    rw [hne w (List.mem_append_right _ (List.mem_cons_of_mem _ (List.mem_append_left ["="] hw)))]
    exact Bool.false_ne_true
  unfold plainKind
  simp only [looksBool_of_notMem hwords, hne "<<" (by decide +kernel),
    hne "=" (by decide +kernel), hnull]
  rfl

/-! ### Digits -/

variable {n : ℤ} {ds : List Char}

lemma isDigit_eq (c : Char) : c.isDigit = isAsciiDigit c := by
  rw [Char.isDigit, isAsciiDigit, ← Bool.decide_and]
  rfl

lemma isDigitOrLine_of_isAsciiDigit {c : Char} (h : isAsciiDigit c = true) :
    isDigitOrLine c = true := by
  rw [isDigitOrLine, isDigit_eq, h, Bool.true_or]

/-- Digits have no sign in front of them. -/
lemma unsigned_signText (negative : Bool) {c : Char} {cs : List Char}
    (hc : isAsciiDigit c = true) : unsigned (signText negative ++ c :: cs) = c :: cs := by
  cases negative with
  | true => rfl
  | false =>
    unfold unsigned
    split
    · rename_i heq
      exact absurd (List.cons.inj heq).1 (ne_of_isAsciiDigit (by decide) hc)
    · rename_i heq
      exact absurd (List.cons.inj heq).1 (ne_of_isAsciiDigit (by decide) hc)
    · rfl

lemma IsWhole.exists_cons (h : IsWhole ds) : ∃ c cs, ds = c :: cs ∧ isAsciiDigit c = true ∧
    AllDigits cs ∧ (c = '0' → cs = []) := by
  rcases h with rfl | ⟨hds, c, cs, rfl, hc⟩
  · exact ⟨'0', [], rfl, by decide, List.forall_mem_nil _, fun _ => rfl⟩
  · obtain ⟨hd, hcs⟩ := List.forall_mem_cons.mp hds
    exact ⟨c, cs, rfl, hd, hcs, fun hzero => absurd hzero hc⟩

lemma looksFloat_of_digits (negative : Bool) {c : Char} {cs : List Char}
    (hc : isAsciiDigit c = true) (hcs : AllDigits cs) :
    looksFloat (signText negative ++ c :: cs) = false := by
  have hrest : cs.dropWhile isDigitOrLine = [] :=
    List.dropWhile_eq_nil_iff.mpr fun d hd => isDigitOrLine_of_isAsciiDigit (hcs d hd)
  unfold looksFloat
  rw [unsigned_signText negative hc]
  dsimp only
  split
  · rename_i heq
    exact absurd (List.cons.inj heq).1 (ne_of_isAsciiDigit (by decide) hc)
  · rename_i heq
    obtain ⟨rfl, rfl⟩ := List.cons.inj heq
    rw [isDigit_eq, hc, hrest]
    rfl
  · rfl

lemma looksInt_of_isWhole (negative : Bool) (h : IsWhole ds) :
    looksInt (signText negative ++ ds) = true := by
  obtain ⟨c, cs, rfl, hc, hcs, hzero⟩ := IsWhole.exists_cons h
  have hrest : cs.dropWhile isDigitOrLine = [] :=
    List.dropWhile_eq_nil_iff.mpr fun d hd => isDigitOrLine_of_isAsciiDigit (hcs d hd)
  unfold looksInt
  rw [unsigned_signText negative hc]
  split
  · rename_i heq
    obtain ⟨rfl, rfl⟩ := List.cons.inj heq
    cases hzero rfl
  · rename_i heq
    obtain ⟨rfl, rfl⟩ := List.cons.inj heq
    cases hzero rfl
  · rename_i heq
    obtain ⟨rfl, rfl⟩ := List.cons.inj heq
    rw [hzero rfl]
    rfl
  · rename_i heq
    obtain ⟨rfl, rfl⟩ := List.cons.inj heq
    rw [isDigit_eq, hc, hrest]
    rfl
  · rename_i heq
    cases heq

lemma leadsNumber_signText (negative : Bool) {c : Char} (cs : List Char)
    (hc : isAsciiDigit c = true) :
    ∃ d ds, signText negative ++ c :: cs = d :: ds ∧ leadsNumber d = true := by
  cases negative with
  | true => exact ⟨'-', _, rfl, rfl⟩
  | false => exact ⟨c, cs, rfl, by simp [leadsNumber, hc]⟩

/-! ### Integers -/

lemma plainKind_intText (n : ℤ) : plainKind (intText n) = .int := by
  have htext := Json.toList_intText n
  obtain ⟨c, cs, hds, hc, hcs, -⟩ := IsWhole.exists_cons (Json.isWhole_toDigits n.natAbs)
  obtain ⟨d, ds, hd, hlead⟩ := leadsNumber_signText (n < 0) cs hc
  have hfloat := looksFloat_of_digits (n < 0) hc hcs
  have hint := looksInt_of_isWhole (n < 0) (Json.isWhole_toDigits n.natAbs)
  rw [plainKind_of_leadsNumber (by rw [htext, hds, hd]) hlead, htext, hint, hds, hfloat]
  rfl

lemma decimalInt_digits (h : AllDigits ds) (hne : ds ≠ [])
    (hshort : ds.length ≤ ValueFault.digitLimit) : decimalInt ds = .ok (digitsOf ds) := by
  have hcount : (ds.filter Text.isDigit).length = ds.length := by
    rw [List.filter_eq_self.mpr fun c hc => Text.isDigit_of_isAsciiDigit (h c hc)]
  have htrim : Text.trimBlanks ds = ds := by
    have := Text.trimBlanks_padded (List.forall_mem_nil _) (List.forall_mem_nil _) hne
      fun c hc => Text.isBlank_of_isAsciiDigit (h c hc)
    rwa [List.nil_append, List.append_nil] at this
  have hsign : takeSign ds = (false, ds) := by
    obtain ⟨c, cs, rfl⟩ := List.exists_cons_of_ne_nil hne
    have hc := h c List.mem_cons_self
    unfold takeSign
    simp [ne_of_isAsciiDigit (d := '-') (by decide) hc,
      ne_of_isAsciiDigit (d := '+') (by decide) hc]
  have hread : readInt? (String.ofList ds) = some (digitsOf ds : ℤ) := by
    unfold readInt?
    rw [String.toList_ofList, htrim, hsign]
    simp [groupedDigits?_of_allDigits h hne, digitsValue_digits]
  unfold decimalInt
  rw [hread]
  simp only [hcount, if_neg (not_lt.mpr hshort)]

/-- Signs and digits are no lines that are left out between digits. -/
lemma filter_signText {negative : Bool} (h : AllDigits ds) :
    (signText negative ++ ds).filter (· != '_') = signText negative ++ ds := by
  refine List.filter_eq_self.mpr fun c hc => bne_iff_ne.mpr ?_
  rcases List.mem_append.mp hc with hc | hc
  · cases negative with
    | true =>
      obtain rfl := List.mem_singleton.mp hc
      decide
    | false => cases hc
  · exact ne_of_isAsciiDigit (by decide) (h c hc)

lemma head?_signText {negative : Bool} {c : Char} {cs : List Char} (hc : isAsciiDigit c = true) :
    ((signText negative ++ c :: cs).head? == some '-') = negative := by
  cases negative with
  | true => rfl
  | false => simpa [signText] using ne_of_isAsciiDigit (d := '-') (by decide) hc

/-- An integer that is not too long to be written is read as itself. -/
lemma readInt_intText (hn : n.natAbs < 10 ^ ValueFault.digitLimit) :
    readInt (intText n) = .ok n := by
  have htext := Json.toList_intText n
  have hall := Json.allDigits_toDigits n.natAbs
  have hdecimal := decimalInt_digits hall Nat.toDigits_ne_nil (Json.length_toDigits_le hn)
  rw [Json.digitsOf_toDigits] at hdecimal
  obtain ⟨c, cs, hds, hc, hcs, hzero⟩ := IsWhole.exists_cons (Json.isWhole_toDigits n.natAbs)
  have hvalue : (if n < 0 then -1 else 1 : ℤ) * n.natAbs = n := by
    split_ifs <;> omega
  have hcolon : (c :: cs).contains ':' = false := by
    rw [← hds]
    simpa using fun hmem => absurd (hall ':' hmem) (by decide)
  have hempty : (signText (decide (n < 0)) ++ c :: cs).isEmpty = false := by
    cases decide (n < 0) <;> rfl
  rw [hds] at htext hall hdecimal
  unfold readInt
  rw [htext, filter_signText hall]
  simp only [hempty, head?_signText hc, unsigned_signText _ hc, decide_eq_true_eq,
    Bool.false_eq_true, if_false]
  by_cases hc0 : c = '0'
  · obtain rfl := hzero hc0
    subst hc0
    have hnat : n.natAbs = 0 := by
      rw [← Json.digitsOf_toDigits n.natAbs, hds]
      rfl
    obtain rfl := Int.natAbs_eq_zero.mp hnat
    rfl
  · split
    · rename_i heq
      cases heq
    · rename_i heq
      exact absurd (List.cons.inj heq).1 hc0
    · rename_i heq
      exact absurd (List.cons.inj heq).1 hc0
    · rename_i heq
      exact absurd (List.cons.inj heq).1 hc0
    · rename_i heq
      exact absurd (List.cons.inj heq).1 hc0
    · rw [hcolon, if_neg Bool.false_ne_true, hdecimal]
      exact congrArg Except.ok hvalue

/-! ### Doubles -/

lemma optionalDigits?_of_allDigits (h : AllDigits ds) :
    optionalDigits? ds = some (ds.map (·.toNat - 48)) := by
  unfold optionalDigits?
  split
  · rename_i hempty
    rw [List.isEmpty_iff.mp hempty]
    rfl
  · rename_i hne
    exact groupedDigits?_of_allDigits h (by simpa using hne)

/-- The exponent of a number in its parts. -/
lemma readExponent?_exponentText (width : ℕ) (k : ℤ) :
    readExponent? ((if k < 0 then '-' else '+') :: (paddedText width k.natAbs).toList) =
      some k := by
  have hsign : takeSign ((if k < 0 then '-' else '+') :: (paddedText width k.natAbs).toList) =
      (decide (k < 0), (paddedText width k.natAbs).toList) := by
    by_cases hk : k < 0 <;> simp [hk, takeSign]
  have hvalue : (if k < 0 then -(k.natAbs : ℤ) else k.natAbs) = k := by
    split_ifs <;> omega
  unfold readExponent?
  rw [hsign]
  simp only [groupedDigits?_of_allDigits (Json.allDigits_paddedText width _)
    (Json.paddedText_ne_nil width _), decide_eq_true_eq, Option.bind_eq_bind, Option.bind_some,
    digitsValue_digits, Json.digitsOf_paddedText, hvalue]
  rfl

/-- What stands before an exponent. -/
lemma mem_mantissa {p : Parts} (h : p.Proper) {c : Char}
    (hc : c ∈ p.whole ++ Parts.fractionText p.fraction) : isAsciiDigit c = true ∨ c = '.' := by
  obtain ⟨whole, fraction, exponent⟩ := p
  rcases List.mem_append.mp hc with hc | hc
  · exact .inl (Json.IsWhole.allDigits h.isWhole c hc)
  · rcases fraction with _ | ds
    · cases hc
    · exact (List.mem_cons.mp hc).symm.imp ((h.fraction ds rfl).1 c) id

lemma contains_point {p : Parts} (h : p.Proper) :
    (p.whole ++ Parts.fractionText p.fraction).contains '.' = p.fraction.isSome := by
  obtain ⟨whole, fraction, exponent⟩ := p
  have hno : whole.contains '.' = false := by
    simpa using fun hmem => absurd (Json.IsWhole.allDigits h.isWhole '.' hmem) (by decide)
  rcases fraction with _ | ds
  · rwa [Parts.fractionText, List.append_nil]
  · simp [Parts.fractionText]

/-- A number in its parts is read as the double nearest to it, whatever reads it. -/
lemma readMagnitude?_text {p : Parts} (h : p.Proper) (negative : Bool) :
    readMagnitude? negative p.text = some (ofDecimal negative p.digits p.power) := by
  have hmantissa : ∀ c ∈ p.whole ++ Parts.fractionText p.fraction,
      (c != 'e' && c != 'E') = true := fun c hc => by
    rcases mem_mantissa h hc with hdigit | rfl
    · simp [ne_of_isAsciiDigit (d := 'e') (by decide) hdigit,
        ne_of_isAsciiDigit (d := 'E') (by decide) hdigit]
    · decide
  have hcontains := contains_point h
  obtain ⟨whole, fraction, exponent⟩ := p
  obtain ⟨hwhole, hfraction, -⟩ := h
  have hdigits : AllDigits whole := Json.IsWhole.allDigits hwhole
  have hnopoint : ∀ c ∈ whole, (c != '.') = true := fun c hc =>
    bne_iff_ne.mpr (ne_of_isAsciiDigit (by decide) (hdigits c hc))
  have hexponent : Json.HeadFails (fun c => c != 'e' && c != 'E')
      (Parts.exponentText exponent) := by
    rcases exponent with _ | ⟨width, k⟩
    · exact .nil
    · rintro _ ⟨⟩
      rfl
  have hpoint : Json.HeadFails (· != '.') (Parts.fractionText fraction) := by
    rcases fraction with _ | ds
    · exact .nil
    · rintro _ ⟨⟩
      rfl
  unfold readMagnitude? Parts.text
  rw [← List.append_assoc, Json.takeWhile_append_of_all hmantissa hexponent,
    Json.dropWhile_append_of_all hmantissa hexponent]
  dsimp only
  rw [Json.takeWhile_append_of_all hnopoint hpoint, Json.dropWhile_append_of_all hnopoint hpoint,
    hcontains, optionalDigits?_of_allDigits hdigits]
  rcases fraction with _ | ds <;> rcases exponent with _ | ⟨width, k⟩
  · simp [Parts.exponentText, Parts.digits, Parts.power, digitsValue_digits,
      Json.IsWhole.ne_nil hwhole]
  · simp [Parts.exponentText, Parts.digits, Parts.power, digitsValue_digits,
      Json.IsWhole.ne_nil hwhole, readExponent?_exponentText]
  · have hds := (hfraction ds rfl).1
    simp [Parts.exponentText, Parts.fractionText, Parts.digits, Parts.power, digitsValue_digits,
      Json.IsWhole.ne_nil hwhole, optionalDigits?_of_allDigits hds, ← List.map_append]
  · have hds := (hfraction ds rfl).1
    simp [Parts.exponentText, Parts.fractionText, Parts.digits, Parts.power, digitsValue_digits,
      Json.IsWhole.ne_nil hwhole, optionalDigits?_of_allDigits hds, ← List.map_append,
      readExponent?_exponentText]

/-- The parts with a point among them: a zero behind it where there was none. -/
def withPoint (p : Parts) : Parts := { p with fraction := some (p.fraction.getD ['0']) }

lemma withPoint_spells {p : Parts} {value : ℚ} (h : p.Spells value) :
    (withPoint p).Spells value := by
  obtain ⟨whole, fraction, exponent⟩ := p
  rcases fraction with _ | ds
  · have hdigits : digitsOf (whole ++ ['0']) = digitsOf whole * 10 := by
      rw [Json.digitsOf_append]
      rfl
    have hne : digitsOf whole ≠ 0 := by
      simpa [Parts.digits] using h.digits_ne
    refine ⟨⟨h.isWhole, ?_, .inl (Option.some_ne_none _)⟩, ?_, ?_⟩
    · rintro _ ⟨⟩
      exact ⟨Json.allDigits_zeros 1, List.cons_ne_nil _ _⟩
    · simpa [withPoint, Parts.digits, hdigits] using hne
    · rw [← h.value_eq]
      simp only [withPoint, Parts.digits, Parts.power, Option.getD_some, Option.getD_none, hdigits,
        List.append_nil, List.length_singleton, List.length_nil]
      push_cast
      rw [mul_assoc, ← zpow_one_add₀ (by norm_num)]
      congr 2
      ring
  · exact h

/-- The characters of a number's text. -/
lemma mem_text {p : Parts} (h : p.Proper) {c : Char} (hc : c ∈ p.text) :
    isAsciiDigit c = true ∨ c = '.' ∨ c = 'e' ∨ c = '-' ∨ c = '+' := by
  obtain ⟨whole, fraction, exponent⟩ := p
  simp only [Parts.text, List.mem_append] at hc
  rcases hc with hc | hc | hc
  · exact .inl (Json.IsWhole.allDigits h.isWhole c hc)
  · rcases fraction with _ | ds
    · cases hc
    · rcases List.mem_cons.mp hc with rfl | hc
      · exact .inr (.inl rfl)
      · exact .inl ((h.fraction ds rfl).1 c hc)
  · rcases exponent with _ | ⟨width, k⟩
    · cases hc
    · simp only [Parts.exponentText, List.mem_cons] at hc
      rcases hc with rfl | rfl | hc
      · exact .inr (.inr (.inl rfl))
      · split_ifs
        · exact .inr (.inr (.inr (.inl rfl)))
        · exact .inr (.inr (.inr (.inr rfl)))
      · exact .inl (Json.allDigits_paddedText width _ c hc)

/-- The characters of a number's text with its sign. -/
lemma mem_signed {negative : Bool} {p : Parts} (h : p.Proper) {c : Char}
    (hc : c ∈ signText negative ++ p.text) :
    isAsciiDigit c = true ∨ c = '.' ∨ c = 'e' ∨ c = '-' ∨ c = '+' := by
  rcases List.mem_append.mp hc with hc | hc
  · cases negative with
    | true =>
      obtain rfl := List.mem_singleton.mp hc
      exact .inr (.inr (.inr (.inl rfl)))
    | false => cases hc
  · exact mem_text h hc

lemma pointed_text (negative : Bool) {p : Parts} (h : p.Proper) :
    (pointed (String.ofList (signText negative ++ p.text))).toList =
      signText negative ++ (withPoint p).text := by
  have hmantissa : ∀ c ∈ signText negative ++ (p.whole ++ Parts.fractionText p.fraction),
      (c != 'e') = true := fun c hc => by
    rcases List.mem_append.mp hc with hc | hc
    · cases negative with
      | true =>
        obtain rfl := List.mem_singleton.mp hc
        decide
      | false => cases hc
    · rcases mem_mantissa h hc with hdigit | rfl
      · exact bne_iff_ne.mpr (ne_of_isAsciiDigit (by decide) hdigit)
      · decide
  have hexponent : Json.HeadFails (· != 'e') (Parts.exponentText p.exponent) := by
    rcases p.exponent with _ | ⟨width, k⟩
    · exact .nil
    · rintro _ ⟨⟩
      rfl
  have hcontains : (signText negative ++ (p.whole ++ Parts.fractionText p.fraction)).contains '.' =
      p.fraction.isSome := by
    rw [← contains_point h]
    cases negative <;> simp [signText]
  have htext : signText negative ++ p.text =
      signText negative ++ (p.whole ++ Parts.fractionText p.fraction) ++
        Parts.exponentText p.exponent := by
    simp [Parts.text]
  unfold pointed
  rw [String.toList_ofList, htext]
  dsimp only
  rw [Json.takeWhile_append_of_all hmantissa hexponent,
    Json.dropWhile_append_of_all hmantissa hexponent, hcontains]
  obtain ⟨whole, fraction, exponent⟩ := p
  rcases fraction with _ | ds
  · simp [withPoint, Parts.text, Parts.fractionText]
  · simp [withPoint, Parts.text, Parts.fractionText]

/-- A finite double's text has a point in it, and the digits are those of a number that rounds to
the double. -/
lemma exists_parts_doubleText (s : Bool) {m : ℕ} {e : ℤ} (h : Double.Canonical m e) :
    ∃ p : Parts, p.Proper ∧ p.fraction ≠ none ∧
      (doubleText (.finite s m e h)).toList = signText s ++ p.text ∧
      ofDecimal false p.digits p.power = .finite false m e h := by
  have hsplit : doubleText (.finite s m e h) =
      pointed (String.ofList (doubleTextIn plain (.finite s m e h)).toList) := by
    rw [String.ofList_toList]
    rfl
  rw [hsplit, Json.toList_doubleTextIn]
  split_ifs with hzero
  · subst hzero
    have hproper : Parts.Proper ⟨['0'], some ['0'], none⟩ := ⟨.inl rfl, by
      rintro _ ⟨⟩
      exact ⟨Json.allDigits_zeros 1, List.cons_ne_nil _ _⟩, .inl (Option.some_ne_none _)⟩
    have hpointed := pointed_text s hproper
    refine ⟨_, hproper, Option.some_ne_none _, hpointed, ?_⟩
    obtain rfl : e = -1074 := by
      obtain ⟨-, -, -, hnormal | hleast⟩ := h
      · exact absurd hnormal (by decide)
      · exact hleast
    rfl
  · have hm := Nat.pos_of_ne_zero hzero
    obtain ⟨hdigits, hrounds⟩ := rounds_shortestDecimal (e := e) hm h.1
    obtain ⟨p, hp, hspells⟩ := Json.exists_parts plain hdigits
    have hpoint := withPoint_spells hspells
    rw [← hpoint.value_eq] at hrounds
    refine ⟨withPoint p, hpoint.toProper, Option.some_ne_none _, ?_,
      ofDecimal_of_rounds h hm hpoint.digits_ne hrounds false⟩
    rw [← hp, pointed_text s hspells.toProper]

/-- A number with a point looks like one. -/
lemma looksFloat_text (negative : Bool) {p : Parts} (h : p.Proper) (hpoint : p.fraction ≠ none) :
    looksFloat (signText negative ++ p.text) = true := by
  obtain ⟨whole, fraction, exponent⟩ := p
  obtain ⟨ds, rfl⟩ := Option.ne_none_iff_exists'.mp hpoint
  obtain ⟨c, cs, rfl, hc, hcs, -⟩ := IsWhole.exists_cons h.isWhole
  have hrest : (cs ++ ('.' :: (ds ++ Parts.exponentText exponent))).dropWhile isDigitOrLine =
      '.' :: (ds ++ Parts.exponentText exponent) := by
    refine Json.dropWhile_append_of_all (fun d hd => isDigitOrLine_of_isAsciiDigit (hcs d hd)) ?_
    rintro _ ⟨⟩
    rfl
  have hend : (ds ++ Parts.exponentText exponent).dropWhile isDigitOrLine =
      Parts.exponentText exponent := by
    refine Json.dropWhile_append_of_all
      (fun d hd => isDigitOrLine_of_isAsciiDigit ((h.fraction ds rfl).1 d hd)) ?_
    rcases exponent with _ | ⟨width, k⟩
    · exact .nil
    · rintro _ ⟨⟩
      rfl
  have hexponent : isExponent (Parts.exponentText exponent) = true := by
    rcases exponent with _ | ⟨width, k⟩
    · rfl
    · have hdigits : (paddedText width k.natAbs).toList.all Char.isDigit = true :=
        List.all_eq_true.mpr fun d hd => by
          rw [isDigit_eq]
          exact Json.allDigits_paddedText width _ d hd
      have hne := Json.paddedText_ne_nil width k.natAbs
      by_cases hk : k < 0 <;> simp [Parts.exponentText, isExponent, hk, hdigits, hne]
  have htext : signText negative ++ (Parts.mk (c :: cs) (some ds) exponent).text =
      signText negative ++ c :: (cs ++ ('.' :: (ds ++ Parts.exponentText exponent))) := rfl
  rw [htext]
  unfold looksFloat
  rw [unsigned_signText negative hc]
  dsimp only
  split
  · rename_i heq
    exact absurd (List.cons.inj heq).1 (ne_of_isAsciiDigit (by decide) hc)
  · rename_i heq
    obtain ⟨rfl, rfl⟩ := List.cons.inj heq
    rw [isDigit_eq, hc, hrest]
    simp [hend, hexponent]
  · rename_i heq
    cases heq

lemma toLower_of_mem_signed (negative : Bool) {p : Parts} (h : p.Proper) {c : Char}
    (hc : c ∈ signText negative ++ p.text) : c.toLower = c := by
  rcases mem_signed h hc with hc | rfl | rfl | rfl | rfl
  · have hrange : 48 ≤ c.toNat ∧ c.toNat ≤ 57 := of_decide_eq_true hc
    refine dif_neg ?_
    simp [UInt32.le_iff_toNat_le]
    omega
  all_goals decide

lemma leadsDigit_text {p : Parts} (h : p.Proper) :
    ∃ c cs, p.text = c :: cs ∧ isAsciiDigit c = true :=
  h.leadsDigit

/-- A number's text, read by what reads doubles as such. -/
lemma readDouble?_text {p : Parts} (h : p.Proper) :
    readDouble? (String.ofList p.text) = some (ofDecimal false p.digits p.power) := by
  obtain ⟨c, cs, htext, hc⟩ := leadsDigit_text h
  have hblank : ∀ d ∈ p.text, Text.isBlank d = false := fun d hd => by
    rcases mem_text h hd with hd | rfl | rfl | rfl | rfl
    · exact Text.isBlank_of_isAsciiDigit hd
    all_goals decide
  have htrim : Text.trimBlanks p.text = p.text := by
    have := Text.trimBlanks_padded (List.forall_mem_nil _) (List.forall_mem_nil _)
      (by simp [htext]) hblank
    rwa [List.nil_append, List.append_nil] at this
  have hsign : takeSign p.text = (false, p.text) := by
    rw [htext]
    unfold takeSign
    simp [ne_of_isAsciiDigit (d := '-') (by decide) hc,
      ne_of_isAsciiDigit (d := '+') (by decide) hc]
  have hname (w : String) (hw : w.toList.head?.any isAsciiDigit = false) :
      (String.ofList (p.text.map Char.toLower) == w) = false := by
    rw [beq_eq_false_iff_ne]
    rintro rfl
    have hlower : p.text.map Char.toLower = p.text := (List.map_congr_left fun d hd =>
      toLower_of_mem_signed false h hd).trans (List.map_id' _)
    rw [String.toList_ofList, hlower, htext] at hw
    simp [hc] at hw
  unfold readDouble?
  rw [String.toList_ofList, htrim, hsign]
  dsimp only
  rw [hname "inf" (by decide), hname "infinity" (by decide), hname "nan" (by decide)]
  simp [readMagnitude?_text h]

/-- **A double is read as it is written.** -/
lemma readFloat_doubleText (x : Double) : readFloat (doubleText x) = .ok x := by
  cases x with
  | nan => decide +kernel
  | infinite s => cases s <;> decide +kernel
  | finite s m e h =>
    obtain ⟨p, hproper, -, htext, hvalue⟩ := exists_parts_doubleText s h
    obtain ⟨c, cs, hp, hc⟩ := leadsDigit_text hproper
    have hfilter : (signText s ++ p.text).filter (· != '_') = signText s ++ p.text := by
      refine List.filter_eq_self.mpr fun d hd => ?_
      rcases mem_signed hproper hd with hd | rfl | rfl | rfl | rfl
      · exact bne_iff_ne.mpr (ne_of_isAsciiDigit (by decide) hd)
      all_goals decide
    have hlower : (signText s ++ p.text).map Char.toLower = signText s ++ p.text :=
      (List.map_congr_left fun d hd => toLower_of_mem_signed _ hproper hd).trans (List.map_id' _)
    have hempty : (signText s ++ p.text).isEmpty = false := by
      rw [hp]
      cases s <;> rfl
    have hhead : ((signText s ++ p.text).head? == some '-') = s := by
      rw [hp]
      exact head?_signText hc
    have hunsigned : unsigned (signText s ++ p.text) = p.text := by
      rw [hp]
      exact unsigned_signText s hc
    have hname (w : List Char) (hw : w.head?.any isAsciiDigit = false) : (p.text == w) = false := by
      rw [beq_eq_false_iff_ne]
      rintro rfl
      rw [hp] at hw
      simp [hc] at hw
    have hcolon : p.text.contains ':' = false := by
      rw [List.contains_eq_any_beq, List.any_eq_false]
      intro d hd
      rw [beq_iff_eq]
      rintro rfl
      rcases mem_text hproper hd with hd | hd | hd | hd | hd <;> exact absurd hd (by decide)
    have hdouble : decimalDouble p.text = .ok (.finite false m e h) := by
      rw [decimalDouble, readDouble?_text hproper, hvalue]
    unfold readFloat
    rw [htext, hfilter, hlower]
    simp only [hempty, hhead, hunsigned, hname ".inf".toList (by decide),
      hname ".nan".toList (by decide), hcolon, hdouble]
    cases s <;> rfl

lemma plainKind_doubleText (x : Double) : plainKind (doubleText x) = .float := by
  cases x with
  | nan => decide +kernel
  | infinite s => cases s <;> decide +kernel
  | finite s m e h =>
    obtain ⟨p, hproper, hpoint, htext, -⟩ := exists_parts_doubleText s h
    obtain ⟨c, cs, hp, hc⟩ := leadsDigit_text hproper
    obtain ⟨d, ds, hd, hlead⟩ := leadsNumber_signText s cs hc
    rw [plainKind_of_leadsNumber (by rw [htext, hp, hd]) hlead, htext,
      looksFloat_text s hproper hpoint]
    rfl

/-! ### Texts without quotes -/

/-- The text can stand without quotes in brackets. -/
def IsBare (s : String) : Prop := IsPlain s.toList ∧ LeadsPlain s.toList

lemma isOrdinary_of_isAsciiDigit {c : Char} (h : isAsciiDigit c = true) :
    isOrdinary c = true := by
  have hrange : 48 ≤ c.toNat ∧ c.toNat ≤ 57 := of_decide_eq_true h
  have hinline : isInline c = true := by
    simp [isInline]
    omega
  have hmark : " ,?[]\x7b\x7d:#".toList.contains c = false := by
    rw [List.contains_eq_any_beq, List.any_eq_false]
    intro d hd
    have hnone := List.all_eq_true.mp (show (" ,?[]\x7b\x7d:#".toList.all
      fun d => !isAsciiDigit d) = true by decide) d hd
    rw [beq_iff_eq]
    rintro rfl
    simp [h] at hnone
  rw [isOrdinary, hinline, hmark]
  rfl

lemma canLead_of_isAsciiDigit {c : Char} (h : isAsciiDigit c = true) : canLead c = true := by
  have hmark : "-&*!|>'\"%@\x60".toList.contains c = false := by
    rw [List.contains_eq_any_beq, List.any_eq_false]
    intro d hd
    have hnone := List.all_eq_true.mp (show ("-&*!|>'\"%@\x60".toList.all
      fun d => !isAsciiDigit d) = true by decide) d hd
    rw [beq_iff_eq]
    rintro rfl
    simp [h] at hnone
  rw [canLead, isOrdinary_of_isAsciiDigit h, hmark]
  rfl

/-- Digits lead a plain scalar, a sign in front of them or not. -/
lemma leadsPlain_signText {negative : Bool} {c : Char} {cs : List Char}
    (hc : isAsciiDigit c = true) : LeadsPlain (signText negative ++ c :: cs) := by
  cases negative with
  | true => exact ⟨'-', _, rfl, .inr ⟨rfl, c, cs, rfl, isOrdinary_of_isAsciiDigit hc⟩⟩
  | false => exact ⟨c, cs, rfl, .inl (canLead_of_isAsciiDigit hc)⟩

lemma isBare_intText (n : ℤ) : IsBare (intText n) := by
  obtain ⟨c, cs, hds, hc, hcs, -⟩ := IsWhole.exists_cons (Json.isWhole_toDigits n.natAbs)
  rw [IsBare, Json.toList_intText, hds]
  refine ⟨.of_isWord (isWord_of_forall fun d hd => ?_) (by simp), leadsPlain_signText hc⟩
  rcases List.mem_append.mp hd with hd | hd
  · unfold signText at hd
    split at hd
    · obtain rfl := List.mem_singleton.mp hd
      decide
    · cases hd
  · rcases List.mem_cons.mp hd with rfl | hd
    · exact isOrdinary_of_isAsciiDigit hc
    · exact isOrdinary_of_isAsciiDigit (hcs d hd)

lemma isBare_doubleText (x : Double) : IsBare (doubleText x) := by
  cases x with
  | nan => exact ⟨.of_isWord (by decide) (by decide), '.', _, rfl, .inl (by decide)⟩
  | infinite s =>
    cases s with
    | true =>
      exact ⟨.of_isWord (by decide) (by decide),
        '-', _, rfl, .inr ⟨rfl, '.', _, rfl, by decide⟩⟩
    | false => exact ⟨.of_isWord (by decide) (by decide), '.', _, rfl, .inl (by decide)⟩
  | finite s m e h =>
    obtain ⟨p, hproper, -, htext, -⟩ := exists_parts_doubleText s h
    obtain ⟨c, cs, hp, hc⟩ := leadsDigit_text hproper
    rw [IsBare, htext]
    refine ⟨.of_isWord (isWord_of_forall fun d hd => ?_) (by simp [hp]),
      hp ▸ leadsPlain_signText hc⟩
    rcases mem_signed hproper hd with hd | rfl | rfl | rfl | rfl
    · exact isOrdinary_of_isAsciiDigit hd
    all_goals decide

end Stencil.Yaml
