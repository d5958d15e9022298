import Stencil.Proofs.Yaml.Number

/-!
Dates and times written as YAML, read back.

Years have four digits and the other fields two, so each field is read up to its last digit
(`stamp?_date`, `stamp?_moment`), and a date of the calendar passes the checks of the reader
(`readTimestamp_date`, `readTimestamp_moment`).
-/

namespace Stencil.Yaml

open Number
open Json (AllDigits HeadFails isAsciiDigit digitsOf)

/-! ### Fields -/

lemma length_paddedText {w n : ℕ} (hw : 0 < w) (h : n < 10 ^ w) :
    (paddedText w n).toList.length = w := by
  have hle := (Nat.length_toDigits_le_iff (b := 10) (n := n) (by decide) hw).mpr h
  rw [paddedText, String.toList_ofList, List.length_append, List.length_replicate]
  omega

lemma digitsNat_paddedText (width n : ℕ) : digitsNat (paddedText width n).toList = n := by
  rw [digitsNat, digitsValue_digits, Json.digitsOf_paddedText]

lemma takeWhile_isDigit {ds r : List Char} (hds : AllDigits ds) (hr : HeadFails isAsciiDigit r) :
    (ds ++ r).takeWhile Char.isDigit = ds := by
  rw [show Char.isDigit = isAsciiDigit from funext isDigit_eq]
  exact Json.takeWhile_append_of_all hds hr

/-- A number of two digits is read up to its end. -/
lemma shortNumber?_paddedText (exact : Bool) {n : ℕ} (hn : n < 100) {r : List Char}
    (hr : HeadFails isAsciiDigit r) : shortNumber? exact ((paddedText 2 n).toList ++ r) =
      some ((paddedText 2 n).toList, r) := by
  have hlength := length_paddedText (w := 2) (by decide) hn
  have htake : ((paddedText 2 n).toList).take 2 = (paddedText 2 n).toList :=
    List.take_of_length_le hlength.le
  have hne : (paddedText 2 n).toList.isEmpty = false := by
    simpa using Json.paddedText_ne_nil 2 n
  unfold shortNumber?
  rw [takeWhile_isDigit (Json.allDigits_paddedText 2 n) hr]
  simp only [htake, hne, hlength, List.drop_left' hlength]
  simp

/-! ### Dates -/

variable {d : Date}

/-- What is known of a date of the calendar. -/
lemma bounds_of_exists? (h : d.exists? = true) :
    1 ≤ d.year ∧ d.year ≤ 9999 ∧ 1 ≤ d.month ∧ d.month ≤ 12 ∧ d.day < 100 := by
  unfold Date.exists? at h
  simp only [Bool.and_eq_true, decide_eq_true_eq] at h
  obtain ⟨⟨⟨⟨⟨hyear, hyear'⟩, hmonth⟩, hmonth'⟩, -⟩, hday⟩ := h
  refine ⟨hyear, hyear', hmonth, hmonth', ?_⟩
  have hmost : Date.daysIn d.year d.month ≤ 31 := by
    unfold Date.daysIn
    split_ifs <;> decide
  omega

lemma toList_date (d : Date) (r : List Char) : d.text.toList ++ r =
    (paddedText 4 d.year).toList ++ '-' :: ((paddedText 2 d.month).toList ++
      '-' :: ((paddedText 2 d.day).toList ++ r)) := by
  simp [Date.text, String.toList_append]

/-- What is made of the characters behind a date with two digits each for month and day. -/
def stampFrom (d : Date) : List Char → Option Stamp
  | [] => some ⟨d, true, none⟩
  | c :: rest =>
    if c == 'T' || c == 't' then (clock? rest).bind fun k => some ⟨d, true, some k⟩
    else if c == ' ' || c == '\t' then
      (clock? (rest.dropWhile fun ch => ch == ' ' || ch == '\t')).bind fun k =>
        some ⟨d, true, some k⟩
    else none

/-- The fields of a date are read up to their ends. -/
lemma stamp?_date (h : d.exists? = true) {r : List Char} (hr : HeadFails isAsciiDigit r) :
    stamp? (d.text.toList ++ r) = stampFrom d r := by
  obtain ⟨-, hyear, -, hmonth, hday⟩ := bounds_of_exists? h
  have hlength := length_paddedText (w := 4) (n := d.year) (by decide) (by omega)
  have htake : ((paddedText 4 d.year).toList ++ '-' :: ((paddedText 2 d.month).toList ++
      '-' :: ((paddedText 2 d.day).toList ++ r))).take 4 = (paddedText 4 d.year).toList :=
    List.take_left' hlength
  have hdrop : ((paddedText 4 d.year).toList ++ '-' :: ((paddedText 2 d.month).toList ++
      '-' :: ((paddedText 2 d.day).toList ++ r))).drop 4 = '-' :: ((paddedText 2 d.month).toList ++
        '-' :: ((paddedText 2 d.day).toList ++ r)) :=
    List.drop_left' hlength
  have hall : (paddedText 4 d.year).toList.all Char.isDigit = true :=
    List.all_eq_true.mpr fun c hc => by
      rw [isDigit_eq]
      exact Json.allDigits_paddedText 4 _ c hc
  have hmonth' := shortNumber?_paddedText false (n := d.month) (by omega)
    (.cons (c := '-') (by decide) ((paddedText 2 d.day).toList ++ r))
  have hday' := shortNumber?_paddedText false hday hr
  have hmonthLength := length_paddedText (w := 2) (n := d.month) (by decide) (by omega)
  have hdayLength := length_paddedText (w := 2) (n := d.day) (by decide) hday
  rw [toList_date]
  unfold stamp? stampFrom
  simp only [htake, hdrop, hall, hlength, after?, hmonth', hday', Option.bind_eq_bind,
    Option.bind_some, digitsNat_paddedText, hmonthLength, hdayLength, beq_self_eq_true, if_true]
  rcases r with _ | ⟨c, rest⟩ <;> rfl

lemma checkDate_of_exists? (h : d.exists? = true) : checkDate d = .ok () := by
  obtain ⟨hyear, hyear', hmonth, hmonth', -⟩ := bounds_of_exists? h
  unfold checkDate
  rw [if_neg (by omega), if_neg (by simp; omega), h]
  rfl

/-- **A date of the calendar is read as it is written.** -/
lemma readTimestamp_date (h : d.exists? = true) : readTimestamp d.text = .ok (.date d) := by
  have hstamp := stamp?_date h (r := []) .nil
  rw [List.append_nil] at hstamp
  unfold readTimestamp
  rw [hstamp]
  simp only [stampFrom, checkDate_of_exists? h]
  rfl

/-! ### Times -/

variable {m : Moment}

/-- A time of day, and an offset in minutes that is less than a day. -/
structure IsTime (m : Moment) : Prop where
  hour : m.hour ≤ 23
  minute : m.minute ≤ 59
  second : m.second ≤ 59
  microsecond : m.microsecond < 1000000
  offset : ∀ s ∈ m.offset, s.natAbs < 86400 ∧ 60 ∣ s

/-- The fraction of a second as it is written. -/
def fractionText (microsecond : ℕ) : List Char :=
  if microsecond = 0 then [] else '.' :: (paddedText 6 microsecond).toList

/-- The offset of a time as it is written. -/
def zoneText : Option ℤ → List Char
  | none => []
  | some s => (Moment.offsetText s).toList

/-- The time behind a date as it is written. -/
def timeText (m : Moment) : List Char :=
  (paddedText 2 m.hour).toList ++ ':' :: ((paddedText 2 m.minute).toList ++
    ':' :: ((paddedText 2 m.second).toList ++ (fractionText m.microsecond ++ zoneText m.offset)))

lemma toList_moment (m : Moment) :
    m.text.toList = m.date.text.toList ++ ' ' :: timeText m := by
  obtain ⟨date, hour, minute, second, microsecond, offset⟩ := m
  rcases offset with _ | s <;> by_cases hzero : microsecond = 0 <;>
    simp [Moment.text, Moment.textWith, timeText, fractionText, zoneText, hzero,
      String.toList_append]

/-- An offset in minutes has hours and minutes, and nothing else. -/
lemma toList_offsetText {s : ℤ} (h : 60 ∣ s) : (Moment.offsetText s).toList =
    (if s < 0 then '-' else '+') :: ((paddedText 2 (s.natAbs / 3600)).toList ++
      ':' :: (paddedText 2 (s.natAbs / 60 % 60)).toList) := by
  have hwhole : s.natAbs % 60 = 0 := by omega
  by_cases hs : s < 0 <;> simp [Moment.offsetText, hwhole, hs, String.toList_append]

lemma zone?_signed {c : Char} (hc : c = '-' ∨ c = '+') {h n : ℕ} (hh : h < 100) (hn : n < 100) :
    zone? (c :: ((paddedText 2 h).toList ++ ':' :: (paddedText 2 n).toList)) =
      some (some (if c == '-' then -(h * 3600 + n * 60 : ℤ) else h * 3600 + n * 60)) := by
  have hhours := shortNumber?_paddedText false hh
    (.cons (c := ':') (by decide) (paddedText 2 n).toList)
  have hminutes := shortNumber?_paddedText true hn (r := []) .nil
  rw [List.append_nil] at hminutes
  rcases hc with rfl | rfl <;> simp [zone?, hhours, hminutes, after?, digitsNat_paddedText]

lemma zone?_zoneText {offset : Option ℤ} (h : ∀ s ∈ offset, s.natAbs < 86400 ∧ 60 ∣ s) :
    zone? (zoneText offset) = some offset := by
  rcases offset with _ | s
  · rfl
  · obtain ⟨hless, hwhole⟩ := h s rfl
    have hsigned := zone?_signed (c := if s < 0 then '-' else '+') (by split_ifs <;> simp)
      (h := s.natAbs / 3600) (n := s.natAbs / 60 % 60) (by omega) (by omega)
    rw [zoneText, toList_offsetText hwhole, hsigned]
    congr 2
    by_cases hs : s < 0
    · simp only [hs, if_true, beq_self_eq_true]
      omega
    · simp only [hs, if_false, show ('+' == '-') = false from rfl, Bool.false_eq_true]
      omega

/-- Hours, minutes and seconds are read up to their ends, and what follows them. -/
lemma clock?_timeText (h : IsTime m) : clock? (timeText m) =
    some ⟨m.hour, m.minute, m.second, m.microsecond, m.offset⟩ := by
  have hzone : HeadFails isAsciiDigit (zoneText m.offset) ∧
      ∀ r, zoneText m.offset ≠ '.' :: r := by
    cases hoffset : m.offset with
    | none => exact ⟨.nil, by simp [zoneText]⟩
    | some s =>
      rw [zoneText, toList_offsetText (h.offset s (by simp [hoffset])).2]
      split_ifs
      · exact ⟨.cons (by decide) _, by simp⟩
      · exact ⟨.cons (by decide) _, by simp⟩
  have htail : HeadFails isAsciiDigit (fractionText m.microsecond ++ zoneText m.offset) := by
    unfold fractionText
    split_ifs
    · exact hzone.1
    · exact .cons (by decide) _
  have hhour := shortNumber?_paddedText false (n := m.hour) (by have := h.hour; omega)
    (.cons (c := ':') (by decide) ((paddedText 2 m.minute).toList ++
      ':' :: ((paddedText 2 m.second).toList ++
        (fractionText m.microsecond ++ zoneText m.offset))))
  have hminute := shortNumber?_paddedText true (n := m.minute) (by have := h.minute; omega)
    (.cons (c := ':') (by decide) ((paddedText 2 m.second).toList ++
      (fractionText m.microsecond ++ zoneText m.offset)))
  have hsecond := shortNumber?_paddedText true (n := m.second) (by have := h.second; omega) htail
  have hoffset := zone?_zoneText h.offset
  unfold clock? timeText
  simp only [hhour, hminute, hsecond, after?, Option.bind_eq_bind, Option.bind_some,
    beq_self_eq_true, if_true, digitsNat_paddedText]
  by_cases hzero : m.microsecond = 0
  · have hnone : digitsNat (([] ++ List.replicate 6 '0').take 6) = 0 := by decide
    rw [fractionText, if_pos hzero, List.nil_append, hzero]
    split
    · rename_i f heq
      exact absurd heq (hzone.2 f)
    · rw [hoffset, hnone]
      rfl
  · have hlength := length_paddedText (w := 6) (by decide) h.microsecond
    have hdrop : ((paddedText 6 m.microsecond).toList ++ zoneText m.offset).dropWhile
        Char.isDigit = zoneText m.offset := by
      rw [show Char.isDigit = isAsciiDigit from funext isDigit_eq]
      exact Json.dropWhile_append_of_all (Json.allDigits_paddedText 6 _) hzone.1
    rw [fractionText, if_neg hzero]
    simp only [List.cons_append, takeWhile_isDigit (Json.allDigits_paddedText 6 _) hzone.1, hdrop,
      List.take_left' hlength, digitsNat_paddedText, hoffset]
    rfl

lemma stamp?_moment (hdate : m.date.exists? = true) (htime : IsTime m) :
    stamp? m.text.toList = some ⟨m.date, true,
      some ⟨m.hour, m.minute, m.second, m.microsecond, m.offset⟩⟩ := by
  have hblank : (timeText m).dropWhile (fun ch => ch == ' ' || ch == '\t') = timeText m := by
    obtain ⟨c, cs, hcs⟩ := List.exists_cons_of_ne_nil (Json.paddedText_ne_nil 2 m.hour)
    have hc : isAsciiDigit c = true := Json.allDigits_paddedText 2 m.hour c (by simp [hcs])
    have hne : c ≠ ' ' ∧ c ≠ '\t' :=
      ⟨ne_of_isAsciiDigit (by decide) hc, ne_of_isAsciiDigit (by decide) hc⟩
    simp [timeText, hcs, hne]
  rw [toList_moment, stamp?_date hdate (.cons (by decide) _), stampFrom]
  simp [hblank, clock?_timeText htime]

/-- **A moment of the calendar is read as it is written.** -/
lemma readTimestamp_moment (hdate : m.date.exists? = true) (htime : IsTime m) :
    readTimestamp m.text = .ok (.moment m) := by
  have hclock : checkClock ⟨m.hour, m.minute, m.second, m.microsecond, m.offset⟩ = .ok () := by
    have := htime.hour
    have := htime.minute
    have := htime.second
    unfold checkClock
    simp only
    rw [if_neg (by omega), if_neg (by omega), if_neg (by omega)]
  have hoffset : checkOffset m.offset = .ok () := by
    cases ho : m.offset with
    | none => rfl
    | some s =>
      have hless := (htime.offset s (by simp [ho])).1
      exact if_neg (not_le.mpr hless)
  unfold readTimestamp
  rw [stamp?_moment hdate htime]
  simp only [hoffset, checkDate_of_exists? hdate, hclock]
  rfl

/-! ### Kinds -/

/-- A date's text begins with four digits and a hyphen. -/
lemma exists_year (h : d.exists? = true) : ∃ a b r, isAsciiDigit a = true ∧
    isAsciiDigit b = true ∧ ∃ ds, AllDigits ds ∧ d.text.toList = a :: b :: (ds ++ '-' :: r) := by
  obtain ⟨-, hyear, -⟩ := bounds_of_exists? h
  have hlength := length_paddedText (w := 4) (n := d.year) (by decide) (by omega)
  have hall := Json.allDigits_paddedText 4 d.year
  have htext := toList_date d []
  rw [List.append_nil] at htext
  rcases hcs : (paddedText 4 d.year).toList with _ | ⟨a, _ | ⟨b, ds⟩⟩
  · rw [hcs] at hlength
    cases hlength
  · rw [hcs] at hlength
    cases hlength
  · rw [hcs] at hall htext
    obtain ⟨ha, hall⟩ := List.forall_mem_cons.mp hall
    obtain ⟨hb, hds⟩ := List.forall_mem_cons.mp hall
    exact ⟨a, b, _, ha, hb, ds, hds, htext⟩

/-- Behind the first digit of a date there are digits up to a hyphen. -/
lemma exists_yearDigits (h : d.exists? = true) (r : List Char) :
    ∃ a b r', isAsciiDigit a = true ∧ isAsciiDigit b = true ∧
      d.text.toList ++ r = a :: b :: r' ∧ unsigned (a :: b :: r') = a :: b :: r' ∧ '-' ∈ r' ∧
      ∃ rest, (b :: r').dropWhile isDigitOrLine = '-' :: rest := by
  obtain ⟨a, b, r', ha, hb, ds, hds, htext⟩ := exists_year h
  refine ⟨a, b, ds ++ '-' :: (r' ++ r), ha, hb, by simp [htext], unsigned_signText false ha,
    by simp, r' ++ r, ?_⟩
  rw [← List.cons_append]
  refine Json.dropWhile_append_of_all (List.forall_mem_cons.mpr
    ⟨isDigitOrLine_of_isAsciiDigit hb, fun c hc => isDigitOrLine_of_isAsciiDigit (hds c hc)⟩) ?_
  rintro _ ⟨⟩
  rfl

lemma looksFloat_date (h : d.exists? = true) (r : List Char) :
    looksFloat (d.text.toList ++ r) = false := by
  obtain ⟨a, b, r', ha, -, hlist, hunsigned, -, rest, hrest⟩ := exists_yearDigits h r
  rw [hlist]
  unfold looksFloat
  rw [hunsigned]
  dsimp only
  split
  · rename_i heq
    exact absurd (List.cons.inj heq).1 (ne_of_isAsciiDigit (by decide) ha)
  · rename_i heq
    obtain ⟨rfl, rfl⟩ := List.cons.inj heq
    rw [isDigit_eq, ha, hrest]
    rfl
  · rfl

lemma looksInt_date (h : d.exists? = true) (r : List Char) :
    looksInt (d.text.toList ++ r) = false := by
  obtain ⟨a, b, r', ha, hb, hlist, hunsigned, hmem, rest, hrest⟩ := exists_yearDigits h r
  rw [hlist]
  unfold looksInt
  rw [hunsigned]
  split
  · rename_i heq
    obtain ⟨-, heq⟩ := List.cons.inj heq
    exact absurd (List.cons.inj heq).1 (ne_of_isAsciiDigit (by decide) hb)
  · rename_i heq
    obtain ⟨-, heq⟩ := List.cons.inj heq
    exact absurd (List.cons.inj heq).1 (ne_of_isAsciiDigit (by decide) hb)
  · rename_i heq
    obtain ⟨-, rfl⟩ := List.cons.inj heq
    rw [List.all_eq_false]
    exact ⟨'-', List.mem_cons_of_mem _ hmem, by decide⟩
  · rename_i heq
    obtain ⟨rfl, rfl⟩ := List.cons.inj heq
    rw [isDigit_eq, ha, hrest]
    rfl
  · rfl

/-- What begins with a date and looks like a time is read as one. -/
lemma plainKind_of_date {s : String} {r : List Char} (h : d.exists? = true)
    (hs : s.toList = d.text.toList ++ r) (hstamp : looksTimestamp s.toList = true) :
    plainKind s = .timestamp := by
  obtain ⟨a, b, r', ha, -, hlist, -⟩ := exists_yearDigits h r
  rw [plainKind_of_leadsNumber (hs.trans hlist) (by simp [leadsNumber, ha]), hs,
    looksFloat_date h, looksInt_date h, ← hs, hstamp]
  rfl

lemma plainKind_date (h : d.exists? = true) : plainKind d.text = .timestamp := by
  have hstamp := stamp?_date h (r := []) .nil
  rw [List.append_nil] at hstamp
  refine plainKind_of_date h (List.append_nil _).symm ?_
  rw [looksTimestamp, hstamp]
  rfl

lemma plainKind_moment (hdate : m.date.exists? = true) (htime : IsTime m) :
    plainKind m.text = .timestamp := by
  refine plainKind_of_date hdate (toList_moment m) ?_
  rw [looksTimestamp, stamp?_moment hdate htime]
  rfl

/-! ### Characters -/

lemma isOrdinary_of_mem_paddedText {width n : ℕ} {c : Char}
    (h : c ∈ (paddedText width n).toList) : isOrdinary c = true :=
  isOrdinary_of_isAsciiDigit (Json.allDigits_paddedText width n c h)

lemma isOrdinary_of_mem_date {c : Char} (h : c ∈ d.text.toList) : isOrdinary c = true := by
  have htext := toList_date d []
  rw [List.append_nil] at htext
  simp only [htext, List.append_nil, List.mem_append, List.mem_cons] at h
  rcases h with h | rfl | h | rfl | h
  · exact isOrdinary_of_mem_paddedText h
  · decide
  · exact isOrdinary_of_mem_paddedText h
  · decide
  · exact isOrdinary_of_mem_paddedText h

/-- The time behind a date is one word. -/
lemma isWord_timeText (h : ∀ s ∈ m.offset, 60 ∣ s) : isWord (timeText m) = true := by
  have hfield (width n : ℕ) : isWord (paddedText width n).toList = true :=
    isWord_of_forall fun c hc => isOrdinary_of_mem_paddedText hc
  -- a colon in front of two digits is part of the word
  have hcolon (width n : ℕ) (cs : List Char) (hcs : isWord cs = true) :
      isWord (':' :: ((paddedText width n).toList ++ cs)) = true := by
    obtain ⟨c, ds, hds⟩ := List.exists_cons_of_ne_nil (Json.paddedText_ne_nil width n)
    have hc : isOrdinary c = true := isOrdinary_of_mem_paddedText (by rw [hds]; simp)
    have hword := isWord_append (hfield width n) hcs
    rw [hds] at hword ⊢
    simpa [isWord, hc] using hword
  have hfraction : isWord (fractionText m.microsecond) = true := by
    unfold fractionText
    split_ifs
    · rfl
    · exact isWord_cons (by decide) (hfield 6 _)
  have hzone : isWord (zoneText m.offset) = true := by
    cases hoffset : m.offset with
    | none => rfl
    | some s =>
      have hhours := isWord_append (hfield 2 (s.natAbs / 3600))
        (hcolon 2 (s.natAbs / 60 % 60) [] rfl)
      rw [List.append_nil] at hhours
      rw [zoneText, toList_offsetText (h s (by simp [hoffset]))]
      split_ifs
      · exact isWord_cons (by decide) hhours
      · exact isWord_cons (by decide) hhours
  exact isWord_append (hfield 2 _) (hcolon 2 _ _ (hcolon 2 _ _ (isWord_append hfraction hzone)))

lemma leadsPlain_date (h : d.exists? = true) (r : List Char) : LeadsPlain (d.text.toList ++ r) := by
  obtain ⟨a, b, r', ha, -, hlist, -⟩ := exists_yearDigits h r
  exact ⟨a, b :: r', hlist, .inl (canLead_of_isAsciiDigit ha)⟩

lemma isBare_date (h : d.exists? = true) : IsBare d.text := by
  have hlead := leadsPlain_date h []
  rw [List.append_nil] at hlead
  refine ⟨.of_isWord (isWord_of_forall fun c hc => isOrdinary_of_mem_date hc) ?_, hlead⟩
  obtain ⟨a, cs, hcs, -⟩ := hlead
  simp [hcs]

lemma isBare_moment (hdate : m.date.exists? = true) (htime : IsTime m) : IsBare m.text := by
  rw [IsBare, toList_moment]
  refine ⟨⟨m.date.text.toList, [timeText m], by rw [List.flatMap_singleton], fun v hv => ?_⟩,
    leadsPlain_date hdate _⟩
  rcases List.mem_cons.mp hv with rfl | hv
  · obtain ⟨a, b, r', -, -, hlist, -⟩ := exists_yearDigits hdate []
    rw [List.append_nil] at hlist
    exact ⟨by simp [hlist], isWord_of_forall fun c hc => isOrdinary_of_mem_date hc⟩
  · obtain rfl := List.mem_singleton.mp hv
    exact ⟨by simp [timeText], isWord_timeText fun s hs => (htime.offset s hs).2⟩

end Stencil.Yaml
