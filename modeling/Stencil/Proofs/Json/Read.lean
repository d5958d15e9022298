import Stencil.Proofs.Context.Binding
import Stencil.Proofs.Json.Number

/-!
Values in a JSON text, read back.

What a piece of text is read as (`ReadsAs`) is said before any rest that does not continue a
number, and with as many steps as the text is long. Texts in quotes, numbers and words are read as
what they were written for; items between brackets and entries between braces are read one after
the other, each as what it is read as by itself.
-/

namespace Stencil.Json

/-! ### Texts -/

lemma takeUnit?_hexDigits {n : ℕ} (hn : n < 32) (rest : List Char) :
    takeUnit? (Text.hexDigits 4 n ++ rest) = some (n, rest) := by
  interval_cases n <;> rfl

/-- A character is read back from what stands for it. -/
lemma takeChar?_escapedChar (c : Char) (rest : List Char) :
    takeChar? (escapedChar false c ++ rest) = some (some c, rest) := by
  unfold escapedChar
  split_ifs with hquote hnewline hreturn htab hback hfeed hcontrol
  · rcases (Bool.or_eq_true _ _).mp hquote with h | h
    · obtain rfl := eq_of_beq h
      rfl
    · obtain rfl := eq_of_beq h
      rfl
  · obtain rfl := eq_of_beq hnewline
    rfl
  · obtain rfl := eq_of_beq hreturn
    rfl
  · obtain rfl := eq_of_beq htab
    rfl
  · obtain rfl : c = Char.ofNat 8 := by rw [← eq_of_beq hback, Char.ofNat_toNat]
    rfl
  · obtain rfl : c = Char.ofNat 12 := by rw [← eq_of_beq hfeed, Char.ofNat_toNat]
    rfl
  · -- a control character, by its code
    have hcode : takeUnit? (Text.hexDigits 4 c.toNat ++ rest) = some (c.toNat, rest) :=
      takeUnit?_hexDigits hcontrol rest
    unfold unitEscapes
    rw [if_pos (by omega)]
    have hhigh : ¬ (0xd800 ≤ c.toNat ∧ c.toNat < 0xdc00) := by omega
    have hlow : ¬ (0xdc00 ≤ c.toNat ∧ c.toNat < 0xe000) := by omega
    simp [takeChar?, hcode, hhigh, hlow]
  · rename_i hascii
    cases hascii
  · have hclosing : c ≠ '"' := by
      rintro rfl
      exact hquote rfl
    have hescape : c ≠ '\\' := by
      rintro rfl
      exact hquote rfl
    rw [List.singleton_append, takeChar?.eq_def]
    simp [hescape, not_lt.mp hcontrol]

lemma length_le_flatMap (cs : List Char) :
    cs.length ≤ (cs.flatMap (escapedChar false)).length := by
  induction cs with
  | nil => exact Nat.zero_le _
  | cons c cs ih =>
    have hpos : 0 < (escapedChar false c).length := by
      unfold escapedChar unitEscapes
      split_ifs <;> simp
    rw [List.flatMap_cons, List.length_append, List.length_cons]
    omega

lemma takeString?_escaped {cs : List Char} {n : ℕ} (hn : cs.length < n) (acc rest : List Char) :
    takeString? n acc (cs.flatMap (escapedChar false) ++ '"' :: rest) =
      some (String.ofList (acc.reverse ++ cs), rest) := by
  induction cs generalizing n acc with
  | nil =>
    obtain ⟨n, rfl⟩ := Nat.exists_eq_succ_of_ne_zero (by simp at hn; omega : n ≠ 0)
    rw [takeString?.eq_def]
    simp [takeChar?]
  | cons c cs ih =>
    obtain ⟨n, rfl⟩ := Nat.exists_eq_succ_of_ne_zero (by simp at hn; omega : n ≠ 0)
    rw [List.flatMap_cons, List.append_assoc, takeString?.eq_def]
    simp only [takeChar?_escapedChar]
    rw [ih (by simp at hn; omega)]
    simp

/-- A text is read back from behind its opening quote. -/
lemma takeString?_quoted (s : String) (rest : List Char) :
    takeString? ((s.toList.flatMap (escapedChar false) ++ '"' :: rest).length + 1) []
      (s.toList.flatMap (escapedChar false) ++ '"' :: rest) = some (s, rest) := by
  have hlength := length_le_flatMap s.toList
  rw [takeString?_escaped (by rw [List.length_append]; omega), List.reverse_nil, List.nil_append,
    String.ofList_toList]

/-! ### Pieces -/

def isBlank (c : Char) : Bool := c == ' ' || c == '\t' || c == '\n' || c == '\r'

/-- A piece of text is read as a value, before any rest that does not continue a number. It begins
neither with a blank nor with a closing bracket. -/
structure ReadsAs (text : List Char) (v : Value) : Prop where
  lead : ∃ c cs, text = c :: cs ∧ isBlank c = false ∧ c ≠ ']'
  read : ∀ n rest, StopsNumber rest → 2 * (text ++ rest).length < n →
    takeValue n (text ++ rest) = .ok (v, rest)

lemma skipBlanks_of_head {c : Char} (hc : isBlank c = false) (cs : List Char) :
    skipBlanks (c :: cs) = c :: cs := by
  unfold skipBlanks
  exact List.dropWhile_cons_of_neg (by simpa [isBlank] using hc)

lemma ReadsAs.skipBlanks {text : List Char} {v : Value} (h : ReadsAs text v) (rest : List Char) :
    skipBlanks (text ++ rest) = text ++ rest := by
  obtain ⟨c, cs, rfl, hc, -⟩ := h.lead
  exact skipBlanks_of_head hc _

section

variable {c : Char} (hquote : c ≠ '"') (hbracket : c ≠ '[') (hbrace : c ≠ '\x7b')

include hquote hbracket hbrace

/-- A piece that begins neither with a quote nor with a bracket is a word, ... -/
lemma takeValue_word {cs : List Char} {r : Value × List Char} (h : takeLiteral? (c :: cs) = some r)
    (n : ℕ) : takeValue (n + 1) (c :: cs) = .ok r := by
  rw [takeValue.eq_def]
  simp [hquote, hbracket, hbrace, h]

/-- ... or else a number. -/
lemma takeValue_number {cs : List Char} (h : takeLiteral? (c :: cs) = none) (n : ℕ) :
    takeValue (n + 1) (c :: cs) = takeNumber (c :: cs) := by
  rw [takeValue.eq_def]
  simp [hquote, hbracket, hbrace, h]

end

lemma readsAs_null : ReadsAs "null".toList .null where
  lead := ⟨'n', _, rfl, rfl, by decide⟩
  read n rest hrest hn := by
    obtain ⟨n, rfl⟩ := Nat.exists_eq_succ_of_ne_zero (by omega : n ≠ 0)
    exact takeValue_word (by decide) (by decide) (by decide) rfl n

lemma readsAs_bool (b : Bool) : ReadsAs (if b then "true" else "false").toList (.bool b) where
  lead := by cases b <;> exact ⟨_, _, rfl, rfl, by decide⟩
  read n rest hrest hn := by
    obtain ⟨n, rfl⟩ := Nat.exists_eq_succ_of_ne_zero (by omega : n ≠ 0)
    cases b <;> exact takeValue_word (by decide) (by decide) (by decide) rfl n

lemma toList_quotedText (s : String) : (quotedText false s).toList =
    '"' :: (s.toList.flatMap (escapedChar false) ++ ['"']) := String.toList_ofList

lemma readsAs_text (s : String) : ReadsAs (quotedText false s).toList (.text s) := by
  rw [toList_quotedText]
  refine ⟨⟨'"', _, rfl, rfl, by decide⟩, fun n rest hrest hn => ?_⟩
  obtain ⟨n, rfl⟩ := Nat.exists_eq_succ_of_ne_zero (by omega : n ≠ 0)
  rw [List.cons_append, List.append_assoc, takeValue.eq_def]
  simp only [List.singleton_append, takeString?_quoted]

lemma dropLead?_of_ne {a c : Char} (h : a ≠ c) (w cs : List Char) :
    Text.dropLead? (a :: w) (c :: cs) = none := if_neg (by simpa using h)

/-- What begins like a number is no word. -/
lemma takeLiteral?_of_leadsNumber {text : List Char} (h : LeadsNumber text) (rest : List Char) :
    takeLiteral? (text ++ rest) = none := by
  obtain ⟨negative, _, rfl, c, cs, rfl, hc⟩ := h
  have hne : ∀ d, isAsciiDigit d = false → d ≠ c := by
    rintro d hd rfl
    rw [hc] at hd
    cases hd
  unfold takeLiteral?
  rw [List.findSome?_eq_none_iff]
  rintro ⟨w, v⟩ hw
  refine Option.map_eq_none_iff.mpr ?_
  simp only [literals, List.mem_cons, Prod.mk.injEq, List.not_mem_nil, or_false] at hw
  cases negative with
  | false =>
    change Text.dropLead? w (c :: (cs ++ rest)) = none
    rcases hw with ⟨rfl, -⟩ | ⟨rfl, -⟩ | ⟨rfl, -⟩ | ⟨rfl, -⟩ | ⟨rfl, -⟩ | ⟨rfl, -⟩
    · exact dropLead?_of_ne (hne 'n' rfl) _ _
    · exact dropLead?_of_ne (hne 't' rfl) _ _
    · exact dropLead?_of_ne (hne 'f' rfl) _ _
    · exact dropLead?_of_ne (hne 'N' rfl) _ _
    · exact dropLead?_of_ne (hne 'I' rfl) _ _
    · exact dropLead?_of_ne (hne '-' rfl) _ _
  | true =>
    change Text.dropLead? w ('-' :: c :: (cs ++ rest)) = none
    rcases hw with ⟨rfl, -⟩ | ⟨rfl, -⟩ | ⟨rfl, -⟩ | ⟨rfl, -⟩ | ⟨rfl, -⟩ | ⟨rfl, -⟩
    iterate 5 exact if_neg (by decide)
    exact (if_pos rfl).trans (dropLead?_of_ne (hne 'I' rfl) _ _)

/-- A number is not a word, and is read as a number. -/
lemma readsAs_number {text : List Char} {v : Value} (hlead : LeadsNumber text)
    (hread : ∀ rest, StopsNumber rest → takeNumber (text ++ rest) = .ok (v, rest)) :
    ReadsAs text v := by
  have hword := takeLiteral?_of_leadsNumber hlead
  obtain ⟨c, cs, rfl, hc⟩ : ∃ c cs, text = c :: cs ∧ (c = '-' ∨ isAsciiDigit c = true) := by
    obtain ⟨negative, _, rfl, c, cs, rfl, hc⟩ := hlead
    cases negative
    · exact ⟨c, cs, rfl, .inr hc⟩
    · exact ⟨'-', c :: cs, rfl, .inl rfl⟩
  have hne : ∀ d, d ≠ '-' → isAsciiDigit d = false → c ≠ d := by
    rintro d hminus hdigit rfl
    rcases hc with hc | hc
    · exact hminus hc
    · rw [hc] at hdigit
      cases hdigit
  refine ⟨⟨c, cs, rfl, ?_, hne ']' (by decide) rfl⟩, fun n rest hrest hn => ?_⟩
  · have hblank := fun d hminus hdigit => beq_eq_false_iff_ne.mpr (hne d hminus hdigit)
    simp [isBlank, hblank ' ' (by decide) rfl, hblank '\t' (by decide) rfl,
      hblank '\n' (by decide) rfl, hblank '\r' (by decide) rfl]
  · obtain ⟨n, rfl⟩ := Nat.exists_eq_succ_of_ne_zero (by omega : n ≠ 0)
    rw [← hread rest hrest]
    exact takeValue_number (hne _ (by decide) rfl) (hne _ (by decide) rfl) (hne _ (by decide) rfl)
      (hword rest) n

/-! ### Collections -/

lemma stopsNumber_cons {c : Char} (hc : continuesNumber c = false) (cs : List Char) :
    StopsNumber (c :: cs) := by
  rintro _ ⟨⟩
  exact hc

lemma readsAs_emptyList : ReadsAs ['[', ']'] (.list []) where
  lead := ⟨'[', _, rfl, rfl, by decide⟩
  read n rest hrest hn := by
    obtain ⟨n, rfl⟩ := Nat.exists_eq_succ_of_ne_zero (by omega : n ≠ 0)
    rw [takeValue.eq_def]
    rfl

lemma intercalate_cons_eq (sep t : List Char) (ts : List (List Char)) :
    ∃ more, sep.intercalate (t :: ts) = t ++ more := by
  rcases ts with _ | ⟨t', ts⟩
  · exact ⟨[], by rw [List.intercalate_singleton, List.append_nil]⟩
  · exact ⟨sep ++ sep.intercalate (t' :: ts), by rw [List.intercalate_cons_cons, List.append_assoc]⟩

/-- Items begin as their first does. -/
lemma ReadsAs.lead_intercalate {t : List Char} {v : Value} (h : ReadsAs t v)
    (ts : List (List Char)) (rest : List Char) :
    ∃ c cs, [','].intercalate (t :: ts) ++ rest = c :: cs ∧ isBlank c = false ∧ c ≠ ']' := by
  obtain ⟨more, hmore⟩ := intercalate_cons_eq [','] t ts
  obtain ⟨c, cs, rfl, hc⟩ := h.lead
  exact ⟨c, cs ++ more ++ rest, by rw [hmore]; rfl, hc⟩

/-- Items are read one after the other. -/
lemma takeItems_of_readsAs {texts : List (List Char)} {vs : List Value}
    (h : List.Forall₂ ReadsAs texts vs) (hne : texts ≠ []) (n : ℕ) (acc : List Value)
    (rest : List Char)
    (hn : 2 * ([','].intercalate texts ++ ']' :: rest).length + 1 < n) :
    takeItems n acc ([','].intercalate texts ++ ']' :: rest) =
      .ok (.list (acc.reverse ++ vs), rest) := by
  induction h generalizing n acc with
  | nil => exact absurd rfl hne
  | @cons t v ts vs ht hts ih =>
    obtain ⟨n, rfl⟩ := Nat.exists_eq_succ_of_ne_zero (by omega : n ≠ 0)
    rcases ts with _ | ⟨t', ts⟩
    · cases hts
      rw [List.intercalate_singleton] at hn ⊢
      have hread := ht.read n (']' :: rest) (stopsNumber_cons rfl rest) (by omega)
      rw [takeItems.eq_def]
      simp [hread, skipBlanks_of_head (c := ']') rfl, bind, Except.bind]
    · rw [List.intercalate_cons_cons, List.append_assoc, List.append_assoc,
        List.singleton_append] at hn ⊢
      have hread := ht.read n (',' :: ([','].intercalate (t' :: ts) ++ ']' :: rest))
        (stopsNumber_cons rfl _) (by omega)
      have hskip : skipBlanks ([','].intercalate (t' :: ts) ++ ']' :: rest) =
          [','].intercalate (t' :: ts) ++ ']' :: rest := by
        obtain ⟨v', -, ht', -, -⟩ := List.forall₂_cons_left_iff.mp hts
        obtain ⟨c, cs, hcs, hblank, -⟩ := ht'.lead_intercalate ts (']' :: rest)
        rw [hcs, skipBlanks_of_head hblank]
      have hrest := ih nofun n (v :: acc)
        (by simp only [List.length_append, List.length_cons] at hn ⊢; omega)
      rw [takeItems.eq_def]
      simp only [hread, bind, Except.bind, skipBlanks_of_head (c := ',') rfl, hskip, hrest]
      simp

/-- A list is read from its items. -/
lemma readsAs_list {texts : List (List Char)} {vs : List Value}
    (h : List.Forall₂ ReadsAs texts vs) :
    ReadsAs ('[' :: [','].intercalate texts ++ [']']) (.list vs) := by
  rcases h with _ | @⟨t, v, ts, vs, ht, hts⟩
  · exact readsAs_emptyList
  refine ⟨⟨'[', _, rfl, rfl, by decide⟩, fun n rest hrest hn => ?_⟩
  obtain ⟨n, rfl⟩ := Nat.exists_eq_succ_of_ne_zero (by omega : n ≠ 0)
  have hitems := takeItems_of_readsAs (.cons ht hts) nofun n [] rest
    (by simp only [List.length_append, List.length_cons, List.length_nil] at hn ⊢; omega)
  obtain ⟨c, cs, hcs, hblank, hclose⟩ := ht.lead_intercalate ts (']' :: rest)
  rw [List.cons_append, List.cons_append, List.append_assoc, List.singleton_append]
  rw [hcs] at hitems ⊢
  rw [takeValue.eq_def]
  simp only [skipBlanks_of_head hblank]
  split
  · rename_i heq
    exact absurd (List.cons.inj heq).1 hclose
  · exact hitems

/-! ### Mappings -/

/-- An entry as it is written: its key in quotes, and what its value is read from. -/
def entryText (z : String × List Char) : List Char :=
  (quotedText false z.1).toList ++ ':' :: z.2

lemma readsAs_emptyDict : ReadsAs ['\x7b', '\x7d'] (.dict []) where
  lead := ⟨'\x7b', _, rfl, rfl, by decide⟩
  read n rest hrest hn := by
    obtain ⟨n, rfl⟩ := Nat.exists_eq_succ_of_ne_zero (by omega : n ≠ 0)
    rw [takeValue.eq_def]
    rfl

lemma entryText_append (key : String) (text tail : List Char) :
    entryText (key, text) ++ tail =
      '"' :: (key.toList.flatMap (escapedChar false) ++ '"' :: (':' :: (text ++ tail))) := by
  simp [entryText, toList_quotedText]

section

variable {key : String} {text : List Char} {v : Value} (hv : ReadsAs text v) (n : ℕ)
  (acc : List (Value × Value)) (rest : List Char)

include hv

lemma takeEntries_last
    (hn : 2 * (entryText (key, text) ++ '\x7d' :: rest).length < n) :
    takeEntries (n + 1) acc (entryText (key, text) ++ '\x7d' :: rest) =
      .ok (Value.dictOf ((.text key, v) :: acc).reverse, rest) := by
  have hread := hv.read n ('\x7d' :: rest) (stopsNumber_cons rfl rest)
    (by
      rw [entryText_append] at hn
      simp only [List.length_append, List.length_cons] at hn ⊢
      omega)
  rw [entryText_append, takeEntries.eq_def]
  simp only [takeString?_quoted, skipBlanks_of_head (c := ':') rfl, hv.skipBlanks, hread, bind,
    Except.bind, skipBlanks_of_head (c := '\x7d') rfl]

lemma takeEntries_more
    (hn : 2 * (entryText (key, text) ++ ',' :: rest).length < n) :
    takeEntries (n + 1) acc (entryText (key, text) ++ ',' :: rest) =
      takeEntries n ((.text key, v) :: acc) (skipBlanks rest) := by
  have hread := hv.read n (',' :: rest) (stopsNumber_cons rfl rest)
    (by
      rw [entryText_append] at hn
      simp only [List.length_append, List.length_cons] at hn ⊢
      omega)
  rw [entryText_append, takeEntries.eq_def]
  simp only [takeString?_quoted, skipBlanks_of_head (c := ':') rfl, hv.skipBlanks, hread, bind,
    Except.bind, skipBlanks_of_head (c := ',') rfl]

end

/-- Entries begin with the quote of the first key. -/
lemma entries_eq_cons (z : String × List Char) (zs : List (String × List Char))
    (rest : List Char) :
    ∃ cs, [','].intercalate ((z :: zs).map entryText) ++ rest = '"' :: cs := by
  obtain ⟨more, hmore⟩ := intercalate_cons_eq [','] (entryText z) (zs.map entryText)
  rw [List.map_cons, hmore, List.append_assoc, entryText_append z.1 z.2]
  exact ⟨_, rfl⟩

/-- Entries are read one after the other. -/
lemma takeEntries_of_readsAs {zs : List (String × List Char)} {es : List (Value × Value)}
    (h : List.Forall₂ (fun z e => e.1 = .text z.1 ∧ ReadsAs z.2 e.2) zs es) (hne : zs ≠ []) (n : ℕ)
    (acc : List (Value × Value)) (rest : List Char)
    (hn : 2 * ([','].intercalate (zs.map entryText) ++ '\x7d' :: rest).length + 1 < n) :
    takeEntries n acc ([','].intercalate (zs.map entryText) ++ '\x7d' :: rest) =
      .ok (Value.dictOf (acc.reverse ++ es), rest) := by
  induction h generalizing n acc with
  | nil => exact absurd rfl hne
  | @cons z e zs es hz hzs ih =>
    obtain ⟨key, text⟩ := z
    obtain ⟨_, v⟩ := e
    obtain ⟨rfl, hv : ReadsAs text v⟩ := hz
    obtain ⟨n, rfl⟩ := Nat.exists_eq_succ_of_ne_zero (by omega : n ≠ 0)
    rcases zs with _ | ⟨z', zs⟩
    · cases hzs
      rw [List.map_singleton, List.intercalate_singleton] at hn ⊢
      rw [takeEntries_last hv n acc rest (by omega), List.reverse_cons]
    · obtain ⟨cs, hcs⟩ := entries_eq_cons z' zs ('\x7d' :: rest)
      rw [List.map_cons, List.map_cons, List.intercalate_cons_cons, List.append_assoc,
        List.append_assoc, List.singleton_append, ← List.map_cons] at hn ⊢
      rw [takeEntries_more hv n acc _ (by omega), hcs, skipBlanks_of_head (c := '"') rfl, ← hcs,
        ih nofun n _ (by simp only [List.length_append, List.length_cons] at hn ⊢; omega)]
      simp

/-- A mapping is read from its entries. -/
lemma readsAs_dict {zs : List (String × List Char)} {es : List (Value × Value)}
    (h : List.Forall₂ (fun z e => e.1 = .text z.1 ∧ ReadsAs z.2 e.2) zs es) :
    ReadsAs ('\x7b' :: [','].intercalate (zs.map entryText) ++ ['\x7d']) (Value.dictOf es) := by
  rcases h with _ | @⟨z, e, zs, es, hz, hzs⟩
  · exact readsAs_emptyDict
  refine ⟨⟨'\x7b', _, rfl, rfl, by decide⟩, fun n rest hrest hn => ?_⟩
  obtain ⟨n, rfl⟩ := Nat.exists_eq_succ_of_ne_zero (by omega : n ≠ 0)
  have hentries := takeEntries_of_readsAs (.cons hz hzs) nofun n [] rest
    (by simp only [List.length_append, List.length_cons, List.length_nil] at hn ⊢; omega)
  obtain ⟨cs, hcs⟩ := entries_eq_cons z zs ('\x7d' :: rest)
  rw [List.cons_append, List.cons_append, List.append_assoc, List.singleton_append]
  rw [hcs] at hentries ⊢
  rw [takeValue.eq_def]
  simp only [skipBlanks_of_head (c := '"') rfl]
  exact hentries

/-- **A text is read as what it is read as before any rest.** -/
theorem read_of_readsAs {s : String} {v : Value} (h : ReadsAs s.toList v) : read s = .ok v := by
  have hread := h.read (2 * s.toList.length + 2) [] nofun (by rw [List.append_nil]; omega)
  have hskip := h.skipBlanks []
  rw [List.append_nil] at hread hskip
  unfold read
  dsimp only
  rw [hskip, hread]
  rfl

end Stencil.Json
