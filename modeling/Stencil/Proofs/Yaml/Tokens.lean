import Stencil.Proofs.Value.Written
import Stencil.Proofs.Yaml.Date
import Stencil.Proofs.Yaml.Keys

/-!
The tokens of written values.

Values that YAML can give back (`Readable`) are scalars, and collections whose keys are scalars
that differ. What is written for such a value is read as its tokens, wherever it stands in
brackets (`reads_writeFlow`): a scalar by what follows it, a collection item by item. A mapping on
lines of its own is read line by line (`tokenize_writeBlock`).
-/

namespace Stencil.Yaml

open Number

/-! ### Values that can be read -/

/-- The value is written as one scalar. -/
def isScalar : Value → Bool
  | .null | .bool _ | .int _ | .float _ | .text _ | .bytes _ | .date _ | .moment _ => true
  | .list _ | .tuple _ | .dict _ | .context _ => false

/-- The value is written in brackets or quotes. -/
def isMarked : Value → Bool
  | .text _ | .bytes _ | .list _ | .tuple _ | .dict _ => true
  | .null | .bool _ | .int _ | .float _ | .date _ | .moment _ | .context _ => false

/-- The keys of some entries differ from each other. -/
def KeysDiffer (es : List (Value × Value)) : Prop := es.Pairwise fun a b => a.1.same b.1 = false

mutual

/-- Dates and times are of the calendar, and keys are scalars that differ from each other. -/
def Readable : Value → Prop
  | .null | .bool _ | .int _ | .float _ | .text _ | .bytes _ => True
  | .date d => d.exists? = true
  | .moment m => m.date.exists? = true ∧ IsTime m
  | .list vs => ReadableItems vs
  | .tuple vs => ReadableItems vs
  | .dict es => ReadableEntries es ∧ KeysDiffer es
  | .context _ => False

def ReadableItems : List Value → Prop
  | [] => True
  | v :: vs => Readable v ∧ ReadableItems vs

def ReadableEntries : List (Value × Value) → Prop
  | [] => True
  | (k, v) :: es => (isScalar k = true ∧ Readable k) ∧ Readable v ∧ ReadableEntries es

end

/-- The characters of bytes are those of numbers below 64, and the pad. -/
lemma forall_mem_base64 {P : Char → Prop} (hdigit : ∀ n < 64, P (base64Digit n)) (hpad : P '=')
    (bs : List UInt8) : ∀ c ∈ base64 bs, P c := by
  fun_induction base64 bs with
  | case1 => exact List.forall_mem_nil _
  | case2 a n =>
    have := a.toNat_lt
    simp only [List.forall_mem_cons]
    exact ⟨hdigit _ (by omega), hdigit _ (by omega), hpad, hpad, List.forall_mem_nil _⟩
  | case3 a b n =>
    have := a.toNat_lt
    have := b.toNat_lt
    simp only [List.forall_mem_cons]
    exact ⟨hdigit _ (by omega), hdigit _ (by omega), hdigit _ (by omega), hpad,
      List.forall_mem_nil _⟩
  | case4 a b c rest n ih =>
    have := a.toNat_lt
    have := b.toNat_lt
    have := c.toNat_lt
    simp only [List.forall_mem_cons]
    exact ⟨hdigit _ (by omega), hdigit _ (by omega), hdigit _ (by omega), hdigit _ (by omega), ih⟩

/-! ### Tokens -/

mutual

/-- The tokens of a value in brackets. -/
def tokens : Value → List Token
  | .null => [.scalar "null" true]
  | .bool b => [.scalar (if b then "true" else "false") true]
  | .int n => [.scalar (intText n) true]
  | .float x => [.scalar (doubleText x) true]
  | .text t => [.scalar (rereadText t) false]
  | .bytes bs => [.tag Scan.binaryMark, .scalar (String.ofList (base64 bs)) false]
  | .date d => [.scalar d.text true]
  | .moment m => [.scalar m.text true]
  | .list vs =>
    .flowSequenceStart :: ([.flowEntry].intercalate (itemTokens vs) ++ [.flowSequenceEnd])
  | .tuple vs =>
    .flowSequenceStart :: ([.flowEntry].intercalate (itemTokens vs) ++ [.flowSequenceEnd])
  | .dict es =>
    .flowMappingStart :: ([.flowEntry].intercalate (entryTokens es) ++ [.flowMappingEnd])
  | .context _ => []

def itemTokens : List Value → List (List Token)
  | [] => []
  | v :: vs => tokens v :: itemTokens vs

def entryTokens : List (Value × Value) → List (List Token)
  | [] => []
  | (k, v) :: es => (.key :: (tokens k ++ .value :: tokens v)) :: entryTokens es

end

namespace Scan

variable {s : Scanner} {ts us : List Token} {flow bound : ℕ} {key : Bool} {w rest : List Char}

lemma At.mono (h : At s ts flow bound key rest) {b : ℕ} (hb : bound ≤ b) :
    At s ts flow b key rest :=
  { h with places := fun e he => ⟨(h.places e he).1.trans_le hb, (h.places e he).2⟩ }

lemma At.blanks {k : ℕ} (h : At s ts flow bound key (List.replicate k ' ' ++ rest)) :
    At s ts flow bound key rest := by
  induction k with
  | zero => exact h
  | succ k ih => exact ih h.blank

/-! ### Scalars -/

/-- The text is read as tokens that can be a key; in brackets something that stops a scalar has to
follow, perhaps behind blanks. -/
structure ReadsScalar (flow : ℕ) (w : List Char) (us : List Token) : Prop where
  inline : Inline w
  reaches : ∀ {s ts key k rest}, (0 < flow → StopsPlain rest) →
    At s ts flow flow key (w ++ (List.replicate k ' ' ++ rest)) →
    ∃ s', Reaches s s' ∧ At s' (ts ++ us) flow (boundAfter key flow flow) false rest

lemma readsScalar_plain {t : String} (h : IsBare t) (hflow : 0 < flow) :
    ReadsScalar flow t.toList [.scalar t true] where
  inline := h.1.inline
  reaches hstops hat := by
    obtain ⟨s', hnext, hat'⟩ :=
      exists_next_plain h.1 h.2 (hstops hflow) hflow (Nat.le_succ flow) hat
    rw [String.ofList_toList] at hat'
    exact ⟨s', .single hnext, hat'⟩

lemma readsScalar_quoted (flow : ℕ) (t : String) :
    ReadsScalar flow (quotedText t).toList [.scalar t false] where
  inline := inline_quotedText t
  reaches _ hat := by
    obtain ⟨s', hnext, hat'⟩ := exists_next_quoted (Nat.le_succ flow) hat
    exact ⟨s', .single hnext, hat'.blanks⟩

lemma quotedText_base64 (bs : List UInt8) :
    (quotedText (String.ofList (base64 bs))).toList = '"' :: (base64 bs ++ ['"']) := by
  have hplain : ∀ c ∈ base64 bs, quotedChar c = [c] :=
    forall_mem_base64 (P := fun c => quotedChar c = [c]) (by decide) (by decide) bs
  rw [quotedText, String.toList_ofList, String.toList_ofList, List.cons_append,
    List.flatMap_congr hplain, List.flatMap_singleton']

lemma readsScalar_bytes (flow : ℕ) (bs : List UInt8) :
    ReadsScalar flow ("!!binary \"" ++ String.ofList (base64 bs) ++ "\"").toList
      [.tag binaryMark, .scalar (String.ofList (base64 bs)) false] := by
  have htext : ("!!binary \"" ++ String.ofList (base64 bs) ++ "\"").toList =
      "!!binary".toList ++ ' ' :: (quotedText (String.ofList (base64 bs))).toList := by
    rw [quotedText_base64]
    simp [String.toList_append]
  rw [htext]
  refine ⟨?_, fun {s ts key k rest} _ hat => ?_⟩
  · exact Inline.append (fun c hc => List.all_eq_true.mp (by decide) c hc)
      (.cons (by decide) (inline_quotedText _))
  · rw [List.append_assoc, List.cons_append] at hat
    obtain ⟨s₁, htag, hat₁⟩ := exists_next_tag (Nat.le_succ flow) hat
    obtain ⟨s', hnext, hat'⟩ := exists_next_quoted (boundAfter_le (Nat.le_succ flow)) hat₁
    rw [List.append_assoc] at hat'
    exact ⟨s', .head htag (.single hnext), hat'.blanks⟩

/-! ### Brackets -/

lemma stopsPlain_mark {c : Char} (hc : c = ',' ∨ c = ']' ∨ c = '\x7d') (r : List Char) :
    StopsPlain (c :: r) := by
  refine ⟨c, r, rfl, ?_, ?_⟩ <;> rcases hc with rfl | rfl | rfl
  all_goals first | rfl | decide

lemma stopsPlain_colon (r : List Char) : StopsPlain (':' :: ' ' :: r) :=
  ⟨':', _, rfl, rfl, by decide⟩

/-- The text is read as the tokens, as a scalar or a collection. -/
structure Reads (flow : ℕ) (w : List Char) (us : List Token) : Prop where
  inline : Inline w
  reaches : ∀ {s ts key rest}, (0 < flow → StopsPlain rest) →
    At s ts flow flow key (w ++ rest) →
    ∃ s', Reaches s s' ∧ At s' (ts ++ us) flow (flow + 1) false rest

lemma ReadsScalar.reads (h : ReadsScalar flow w us) : Reads flow w us where
  inline := h.inline
  reaches hstops hat := by
    obtain ⟨s', hreaches, hat'⟩ := h.reaches (k := 0) hstops hat
    exact ⟨s', hreaches, hat'.mono (boundAfter_le (Nat.le_succ flow))⟩

/-- The text is read as the tokens of an item in brackets. -/
structure ReadsItem (flow : ℕ) (w : List Char) (us : List Token) : Prop where
  inline : Inline w
  reaches : ∀ {s ts rest}, StopsPlain rest → At s ts flow flow true (w ++ rest) →
    ∃ s', Reaches s s' ∧ At s' (ts ++ us) flow (flow + 1) false rest

lemma Reads.item (h : Reads flow w us) : ReadsItem flow w us :=
  ⟨h.inline, fun hstops hat => h.reaches (fun _ => hstops) hat⟩

lemma stopsPlain_items (ws : List String) (hrest : StopsPlain rest) :
    StopsPlain (ws.flatMap (fun w => ',' :: ' ' :: w.toList) ++ rest) := by
  cases ws with
  | nil => exact hrest
  | cons w ws => exact stopsPlain_mark (.inl rfl) _

/-- Items behind the first one, with commas in front of them. -/
lemma exists_reaches_items {ws : List String} {uss : List (List Token)}
    (h : List.Forall₂ (fun w us => ReadsItem flow w.toList us) ws uss) (hrest : StopsPlain rest)
    (hat : At s ts flow (flow + 1) false (ws.flatMap (fun w => ',' :: ' ' :: w.toList) ++ rest)) :
    ∃ s', Reaches s s' ∧
      At s' (ts ++ uss.flatMap (.flowEntry :: ·)) flow (flow + 1) false rest := by
  induction h generalizing s ts with
  | nil =>
    rw [List.flatMap_nil, List.append_nil]
    exact ⟨s, .refl, hat⟩
  | @cons w us ws uss hitem _ ih =>
    rw [List.flatMap_cons, List.append_assoc, List.cons_append, List.cons_append] at hat
    obtain ⟨s₁, hcomma, hat₁⟩ := exists_next_comma le_rfl hat
    obtain ⟨s₂, hreaches, hat₂⟩ := hitem.reaches (stopsPlain_items ws hrest) hat₁.blank
    obtain ⟨s', hreaches', hat'⟩ := ih hat₂
    refine ⟨s', .head hcomma (hreaches.trans hreaches'), ?_⟩
    simpa using hat'

lemma intercalate_cons {α : Type} (sep x : List α) (xs : List (List α)) :
    sep.intercalate (x :: xs) = x ++ xs.flatMap (sep ++ ·) := by
  induction xs generalizing x with
  | nil => simp [List.intercalate_singleton]
  | cons y ys ih => rw [List.intercalate_cons_cons, ih, List.flatMap_cons, List.append_assoc,
      List.append_assoc]

lemma toList_intercalate_comma (w : String) (ws : List String) :
    (", ".intercalate (w :: ws)).toList =
      w.toList ++ ws.flatMap (fun w => ',' :: ' ' :: w.toList) := by
  rw [String.toList_intercalate, List.map_cons, intercalate_cons, List.flatMap_map]
  rfl

lemma inline_intercalate_comma {ws : List String} {uss : List (List Token)}
    (h : List.Forall₂ (fun w us => ReadsItem flow w.toList us) ws uss) :
    Inline (", ".intercalate ws).toList := by
  have htail : Inline (ws.flatMap fun w => ',' :: ' ' :: w.toList) := by
    induction h with
    | nil => exact .nil
    | cons hitem _ ih => exact .append (.cons (by decide) (.cons (by decide) hitem.inline)) ih
  rcases ws with _ | ⟨w, ws⟩
  · exact .nil
  · rw [toList_intercalate_comma]
    exact fun c hc => htail c (List.mem_cons_of_mem _ (List.mem_cons_of_mem _ hc))

/-- A collection is read item by item. -/
lemma reads_brackets {l r : String} {t u : Token}
    (hbrackets : l = "[" ∧ t = .flowSequenceStart ∧ r = "]" ∧ u = .flowSequenceEnd ∨
      l = "\x7b" ∧ t = .flowMappingStart ∧ r = "\x7d" ∧ u = .flowMappingEnd)
    {ws : List String} {uss : List (List Token)}
    (h : List.Forall₂ (fun w us => ReadsItem (flow + 1) w.toList us) ws uss) :
    Reads flow (l ++ ", ".intercalate ws ++ r).toList
      (t :: ([Token.flowEntry].intercalate uss ++ [u])) := by
  obtain ⟨c, d, hl, hr, hopen, hclose⟩ : ∃ c d, l.toList = [c] ∧ r.toList = [d] ∧
      (c = '[' ∧ t = .flowSequenceStart ∨ c = '\x7b' ∧ t = .flowMappingStart) ∧
      (d = ']' ∧ u = .flowSequenceEnd ∨ d = '\x7d' ∧ u = .flowMappingEnd) := by
    rcases hbrackets with ⟨rfl, rfl, rfl, rfl⟩ | ⟨rfl, rfl, rfl, rfl⟩
    · exact ⟨'[', ']', rfl, rfl, .inl ⟨rfl, rfl⟩, .inl ⟨rfl, rfl⟩⟩
    · exact ⟨'\x7b', '\x7d', rfl, rfl, .inr ⟨rfl, rfl⟩, .inr ⟨rfl, rfl⟩⟩
  have hstops (rest : List Char) : StopsPlain (d :: rest) :=
    stopsPlain_mark (.inr (hclose.imp And.left And.left)) rest
  rw [String.toList_append, String.toList_append, hl, hr]
  refine ⟨?_, fun {s ts key rest} _ hat => ?_⟩
  · refine .append (.cons ?_ (inline_intercalate_comma h)) (.cons ?_ .nil)
    · rcases hopen with ⟨rfl, -⟩ | ⟨rfl, -⟩ <;> decide
    · rcases hclose with ⟨rfl, -⟩ | ⟨rfl, -⟩ <;> decide
  · rw [List.append_assoc, List.append_assoc, List.singleton_append] at hat
    obtain ⟨s₁, hstart, hat₁⟩ := exists_next_open hopen (Nat.le_succ flow) hat
    cases h with
    | nil =>
      obtain ⟨s', hend, hat'⟩ := exists_next_close hclose (Nat.le_succ _) hat₁
      refine ⟨s', .head hstart (.single hend), ?_⟩
      simpa using hat'
    | @cons w us ws uss hitem hitems =>
      rw [toList_intercalate_comma, List.append_assoc] at hat₁
      obtain ⟨s₂, hreaches, hat₂⟩ := hitem.reaches (stopsPlain_items ws (hstops rest)) hat₁
      obtain ⟨s₃, hreaches', hat₃⟩ := exists_reaches_items hitems (hstops rest) hat₂
      obtain ⟨s', hend, hat'⟩ := exists_next_close hclose le_rfl hat₃
      refine ⟨s', .head hstart ((hreaches.trans hreaches').tail hend), ?_⟩
      rw [intercalate_cons]
      simpa using hat'

/-! ### Entries -/

/-- An entry whose key is a short text. -/
lemma readsItem_short {t : String} (hshort : (quotedText t).length ≤ simpleKeyLimit)
    (hvalue : Reads flow w us) (hflow : 0 < flow) :
    ReadsItem flow ((quotedText t).toList ++ ':' :: ' ' :: w)
      (.key :: ([.scalar t false] ++ .value :: us)) where
  inline := (inline_quotedText t).append (.cons (by decide) (.cons (by decide) hvalue.inline))
  reaches hstops hat := by
    rw [List.append_assoc, List.cons_append] at hat
    obtain ⟨s₁, hreaches, hat₁⟩ := exists_reaches_key hshort hflow hat
    obtain ⟨s', hreaches', hat'⟩ := hvalue.reaches (fun _ => hstops) hat₁.blank
    refine ⟨s', hreaches.trans hreaches', ?_⟩
    simpa [keyTokens] using hat'

/-- An entry whose key has a mark. -/
lemma readsItem_marked {kw : List Char} {kus : List Token} (hkey : ReadsScalar flow kw kus)
    (hvalue : Reads flow w us) (hflow : 0 < flow) :
    ReadsItem flow ('?' :: ' ' :: (kw ++ ' ' :: ':' :: ' ' :: w))
      (.key :: (kus ++ .value :: us)) where
  inline := .cons (by decide) (.cons (by decide) (hkey.inline.append
    (.cons (by decide) (.cons (by decide) (.cons (by decide) hvalue.inline)))))
  reaches {s ts rest} hstops hat := by
    have hcolon : StopsPlain (':' :: ' ' :: (w ++ rest)) := stopsPlain_colon _
    obtain ⟨s₁, hmark, hat₁⟩ := exists_next_mark hflow (Nat.le_succ flow) hat
    have hblank : At s₁ (ts ++ [.key]) flow flow false
        (kw ++ (List.replicate 1 ' ' ++ ':' :: ' ' :: (w ++ rest))) := by
      simpa using hat₁.blank
    obtain ⟨s₂, hreaches, hat₂⟩ := hkey.reaches (fun _ => hcolon) hblank
    obtain ⟨s₃, hnext, hat₃⟩ := exists_next_colon hflow hat₂
    obtain ⟨s', hreaches', hat'⟩ := hvalue.reaches (fun _ => hstops) hat₃.blank
    refine ⟨s', .head hmark ((hreaches.tail hnext).trans hreaches'), ?_⟩
    simpa using hat'

/-- A scalar is read as its tokens in brackets, and a text or bytes everywhere. -/
lemma readsScalar_writeFlow {v : Value} {t : String} (hscalar : isScalar v = true)
    (hv : Readable v) (hflow : 0 < flow ∨ isMarked v = true) (h : writeFlow v = .ok t) :
    ReadsScalar flow t.toList (tokens v) := by
  have hpos (hmark : isMarked v = false) : 0 < flow :=
    hflow.resolve_right fun hmarked => Bool.false_ne_true (hmark.symm.trans hmarked)
  cases v with
  | null =>
    obtain rfl := Except.ok.inj h
    exact readsScalar_plain ⟨.of_isWord (by decide) (by decide), 'n', _, rfl, .inl (by decide)⟩
      (hpos rfl)
  | bool b =>
    obtain rfl := Except.ok.inj h
    cases b with
    | true =>
      exact readsScalar_plain ⟨.of_isWord (by decide) (by decide), 't', _, rfl, .inl (by decide)⟩
        (hpos rfl)
    | false =>
      exact readsScalar_plain ⟨.of_isWord (by decide) (by decide), 'f', _, rfl, .inl (by decide)⟩
        (hpos rfl)
  | int n =>
    obtain ⟨-, rfl⟩ := Value.showInt_eq_ok h
    exact readsScalar_plain (isBare_intText n) (hpos rfl)
  | float x =>
    obtain rfl := Except.ok.inj h
    exact readsScalar_plain (isBare_doubleText x) (hpos rfl)
  | text t =>
    obtain rfl := Except.ok.inj h
    exact readsScalar_quoted flow _
  | bytes bs =>
    obtain rfl := Except.ok.inj h
    exact readsScalar_bytes flow bs
  | date d =>
    obtain rfl := Except.ok.inj h
    exact readsScalar_plain (isBare_date hv) (hpos rfl)
  | moment m =>
    obtain rfl := Except.ok.inj h
    exact readsScalar_plain (isBare_moment hv.1 hv.2) (hpos rfl)
  | list | tuple | dict | context => cases hscalar

lemma readsItem_keyed {k : Value} {kt vt : String} (hscalar : isScalar k = true)
    (hk : Readable k) (hkey : writeFlow k = .ok kt) (hvalue : Reads flow vt.toList us)
    (hflow : 0 < flow) :
    ReadsItem flow (keyed kt k " " ++ " " ++ vt).toList (.key :: (tokens k ++ .value :: us)) := by
  unfold keyed
  split
  · rename_i hsimple
    cases k with
    | text t =>
      obtain rfl := Except.ok.inj hkey
      simp only [isSimpleKey, decide_eq_true_eq] at hsimple
      have hitem := readsItem_short hsimple hvalue hflow
      simpa [String.toList_append, tokens] using hitem
    | _ => cases hsimple
  · have hitem := readsItem_marked (readsScalar_writeFlow hscalar hk (.inl hflow) hkey) hvalue hflow
    simpa [String.toList_append] using hitem

/-! ### Values -/

mutual

/-- **A value is read as its tokens in brackets**, and where it is written in brackets or quotes
everywhere. -/
lemma reads_writeFlow : ∀ (v : Value) (flow : ℕ) {t : String}, Readable v →
    (0 < flow ∨ isMarked v = true) → writeFlow v = .ok t → Reads flow t.toList (tokens v)
  | .list vs, flow => fun hv _ h => by
    obtain ⟨ts, hts, h⟩ := Except.bind_eq_ok.mp h
    obtain rfl := Except.ok.inj h
    have hitems := reads_writeItems vs (flow + 1) hv (Nat.succ_pos flow) hts
    exact reads_brackets (.inl ⟨rfl, rfl, rfl, rfl⟩) hitems
  | .tuple vs, flow => fun hv _ h => by
    obtain ⟨ts, hts, h⟩ := Except.bind_eq_ok.mp h
    obtain rfl := Except.ok.inj h
    have hitems := reads_writeItems vs (flow + 1) hv (Nat.succ_pos flow) hts
    exact reads_brackets (.inl ⟨rfl, rfl, rfl, rfl⟩) hitems
  | .dict es, flow => fun hv _ h => by
    obtain ⟨ts, hts, h⟩ := Except.bind_eq_ok.mp h
    obtain rfl := Except.ok.inj h
    have hitems := reads_writeEntries es (flow + 1) hv.1 (Nat.succ_pos flow) hts
    exact reads_brackets (.inr ⟨rfl, rfl, rfl, rfl⟩) hitems
  | .context _, _ => fun hv _ _ => hv.elim
  | .null, _ | .bool _, _ | .int _, _ | .float _, _ | .text _, _ | .bytes _, _ | .date _, _
  | .moment _, _ => fun hv hflow h => (readsScalar_writeFlow rfl hv hflow h).reads

lemma reads_writeItems : ∀ (vs : List Value) (flow : ℕ) {ts : List String}, ReadableItems vs →
    0 < flow → writeItems vs = .ok ts →
    List.Forall₂ (fun t us => ReadsItem flow t.toList us) ts (itemTokens vs)
  | [], _ => fun _ _ h => by
    obtain rfl := Except.ok.inj h
    exact .nil
  | v :: vs, flow => fun hv hflow h => by
    obtain ⟨t, ht, h⟩ := Except.bind_eq_ok.mp h
    obtain ⟨ts, hts, h⟩ := Except.bind_eq_ok.mp h
    obtain rfl := Except.ok.inj h
    exact .cons (reads_writeFlow v flow hv.1 (.inl hflow) ht).item
      (reads_writeItems vs flow hv.2 hflow hts)

lemma reads_writeEntries : ∀ (es : List (Value × Value)) (flow : ℕ) {ts : List String},
    ReadableEntries es → 0 < flow → writeEntries es = .ok ts →
    List.Forall₂ (fun t us => ReadsItem flow t.toList us) ts (entryTokens es)
  | [], _ => fun _ _ h => by
    obtain rfl := Except.ok.inj h
    exact .nil
  | (k, v) :: es, flow => fun hes hflow h => by
    obtain ⟨kt, hkt, h⟩ := Except.bind_eq_ok.mp h
    obtain ⟨vt, hvt, h⟩ := Except.bind_eq_ok.mp h
    obtain ⟨ts, hts, h⟩ := Except.bind_eq_ok.mp h
    obtain rfl := Except.ok.inj h
    obtain ⟨⟨hscalar, hk⟩, hv, hes⟩ := hes
    exact .cons
      (readsItem_keyed hscalar hk hkt (reads_writeFlow v flow hv (.inl hflow) hvt) hflow)
      (reads_writeEntries es flow hes hflow hts)

end

/-! ### Lines -/

/-- The value behind a key can stand on the key's line or on lines of its own: it is written in
brackets or quotes, and so are its items if it is a list. -/
def OnLines : Value → Prop
  | .list vs => ∀ v ∈ vs, isMarked v = true
  | v => isMarked v = true

/-- The tokens of a value behind a key; a list has its items on lines of their own. -/
def valueTokens : Value → List Token
  | .list (v :: vs) => (itemTokens (v :: vs)).flatMap (.blockEntry :: ·)
  | v => tokens v

/-- The tokens of an entry on lines of its own. -/
def lineTokens (e : Value × Value) : List Token :=
  .key :: (tokens e.1 ++ .value :: valueTokens e.2)

/-- The text behind the colon of a key is read as the tokens. -/
structure ReadsBehind (body : List Char) (us : List Token) : Prop where
  allowed : ∀ c ∈ body, isInline c = true ∨ c = '\n'
  endsWord : ∀ rest, endsWord (body ++ rest).head? = true
  reaches : ∀ {s ts rest}, At s ts 0 0 false (body ++ '\n' :: rest) →
    ∃ s', Reaches s s' ∧ At s' (ts ++ us) 0 1 false ('\n' :: rest)

lemma Reads.behind (h : Reads 0 w us) : ReadsBehind (' ' :: w) us where
  allowed c hc := .inl ((Inline.cons (by decide) h.inline) c hc)
  endsWord _ := rfl
  reaches hat := h.reaches (fun hpos => absurd hpos (lt_irrefl 0)) hat.blank

/-- Items on lines of their own. -/
lemma exists_reaches_lineItems {ws : List String} {uss : List (List Token)}
    (h : List.Forall₂ (fun w us => Reads 0 w.toList us) ws uss)
    (hat : At s ts 0 1 false
      (ws.flatMap (fun w => '\n' :: '-' :: ' ' :: w.toList) ++ '\n' :: rest)) :
    ∃ s', Reaches s s' ∧ At s' (ts ++ uss.flatMap (.blockEntry :: ·)) 0 1 false ('\n' :: rest) := by
  induction h generalizing s ts with
  | nil =>
    rw [List.flatMap_nil, List.append_nil]
    exact ⟨s, .refl, hat⟩
  | @cons w us ws uss hitem _ ih =>
    rw [List.flatMap_cons, List.append_assoc] at hat
    obtain ⟨s₁, hmark, hat₁⟩ := exists_next_item hat
    obtain ⟨s₂, hreaches, hat₂⟩ := hitem.reaches (fun hpos => absurd hpos (lt_irrefl 0)) hat₁
    obtain ⟨s', hreaches', hat'⟩ := ih hat₂
    refine ⟨s', .head hmark (hreaches.trans hreaches'), ?_⟩
    simpa using hat'

lemma readsBehind_items {ws : List String} {uss : List (List Token)} (hws : ws ≠ [])
    (h : List.Forall₂ (fun w us => Reads 0 w.toList us) ws uss) :
    ReadsBehind (ws.flatMap fun w => '\n' :: '-' :: ' ' :: w.toList)
      (uss.flatMap (.blockEntry :: ·)) where
  allowed c hc := by
    induction h with
    | nil => cases hc
    | @cons w us ws uss hitem hitems ih =>
      rw [List.flatMap_cons, List.cons_append, List.cons_append, List.cons_append] at hc
      simp only [List.mem_cons, List.mem_append] at hc
      rcases hc with rfl | rfl | rfl | hc | hc
      · exact .inr rfl
      · exact .inl rfl
      · exact .inl rfl
      · exact .inl (hitem.inline c hc)
      · exact ih (by rintro rfl; cases hc) hc
  endsWord rest := by
    cases ws with
    | nil => exact absurd rfl hws
    | cons w ws => rfl
  reaches hat := exists_reaches_lineItems h (hat.mono zero_le_one)

lemma reads_lineItems {vs : List Value} {ws : List String} (hvs : ReadableItems vs)
    (hmarked : ∀ v ∈ vs, isMarked v = true) (h : writeItems vs = .ok ws) :
    List.Forall₂ (fun w us => Reads 0 w.toList us) ws (itemTokens vs) := by
  induction vs generalizing ws with
  | nil =>
    obtain rfl := Except.ok.inj h
    exact .nil
  | cons v vs ih =>
    obtain ⟨w, hw, h⟩ := Except.bind_eq_ok.mp h
    obtain ⟨ws, hws, h⟩ := Except.bind_eq_ok.mp h
    obtain rfl := Except.ok.inj h
    obtain ⟨hv, hrest⟩ := List.forall_mem_cons.mp hmarked
    exact .cons (reads_writeFlow v 0 hvs.1 (.inr hv) hw) (ih hvs.2 hrest hws)

/-- Where the items end their lines, and where they begin them. -/
lemma toList_lineItems (ws : List String) :
    '\n' :: (String.join (ws.map fun w => "- " ++ w ++ "\n")).toList =
      ws.flatMap (fun w => '\n' :: '-' :: ' ' :: w.toList) ++ ['\n'] := by
  induction ws with
  | nil => rfl
  | cons w ws ih =>
    rw [List.flatMap_cons, List.append_assoc, ← ih]
    simp [String.toList_append]

/-- The text of an entry is its key, a colon, and what is read as the tokens of the value. -/
lemma exists_behind {t w : String} {v : Value}
    (hshort : (quotedText (rereadText t)).length ≤ simpleKeyLimit) (hv : Readable v)
    (hlines : OnLines v) (h : writeLines (.text t, v) = .ok w) :
    ∃ body, w.toList = (quotedText (rereadText t)).toList ++ ':' :: (body ++ ['\n']) ∧
      ReadsBehind body (valueTokens v) := by
  have hkeyed : keyed (quotedText (rereadText t)) (.text t) "\n" =
      quotedText (rereadText t) ++ ":" :=
    if_pos (decide_eq_true hshort)
  unfold writeLines at h
  obtain ⟨key, hkey, h⟩ := Except.bind_eq_ok.mp h
  obtain rfl := Except.ok.inj hkey
  simp only [hkeyed] at h
  split at h
  · rename_i u us
    obtain ⟨ws, hws, h⟩ := Except.bind_eq_ok.mp h
    obtain rfl := Except.ok.inj h
    have hitems := reads_lineItems hv hlines hws
    refine ⟨_, ?_, readsBehind_items ?_ hitems⟩
    · rw [← toList_lineItems]
      simp [String.toList_append]
    · rintro rfl
      cases hitems
  · rename_i hsingle
    obtain ⟨u, hu, h⟩ := Except.bind_eq_ok.mp h
    obtain rfl := Except.ok.inj h
    have hflow : isMarked v = true ∧ valueTokens v = tokens v := by
      cases v with
      | list vs =>
        cases vs with
        | nil => exact ⟨rfl, rfl⟩
        | cons u us => exact (hsingle u us rfl).elim
      | _ => exact ⟨hlines, rfl⟩
    refine ⟨' ' :: u.toList, by simp [String.toList_append], ?_⟩
    rw [hflow.2]
    exact (reads_writeFlow v 0 hv (.inr hflow.1) hu).behind

/-- The entry can stand on lines of its own: its key is a short text. -/
structure IsLine (e : Value × Value) : Prop where
  key : ∃ t, e.1 = .text t ∧ (quotedText (rereadText t)).length ≤ simpleKeyLimit
  readable : Readable e.2
  onLines : OnLines e.2

/-- The lines behind the first one. -/
lemma exists_reaches_lines {es : List (Value × Value)} (hes : ∀ e ∈ es, IsLine e) {w : String}
    (hw : writeBlock es = .ok w) (hat : At s ts 0 bound key ('\n' :: w.toList)) :
    ∃ s' bound key, Reaches s s' ∧ At s' (ts ++ es.flatMap lineTokens) 0 bound key ['\n'] := by
  induction es generalizing s ts bound key w with
  | nil =>
    obtain rfl := Except.ok.inj hw
    rw [List.flatMap_nil, List.append_nil]
    exact ⟨s, bound, key, .refl, hat⟩
  | cons e es ih =>
    obtain ⟨k, v⟩ := e
    obtain ⟨u, hu, hw⟩ := Except.bind_eq_ok.mp hw
    obtain ⟨w, hw', hw⟩ := Except.bind_eq_ok.mp hw
    obtain rfl := Except.ok.inj hw
    obtain ⟨⟨⟨t, rfl, hshort⟩, hv, hlines⟩, hrest⟩ := List.forall_mem_cons.mp hes
    obtain ⟨body, hbody, hbehind⟩ := exists_behind hshort hv hlines hu
    rw [String.toList_append, hbody, List.append_assoc, List.cons_append, List.append_assoc,
      List.singleton_append] at hat
    obtain ⟨s₁, hreaches₁, hat₁⟩ := exists_reaches_line hshort (hbehind.endsWord _) hat
    obtain ⟨s₂, hreaches₂, hat₂⟩ := hbehind.reaches hat₁
    obtain ⟨s', b, k, hreaches', hat'⟩ := ih hrest hw' hat₂
    refine ⟨s', b, k, hreaches₁.trans (hreaches₂.trans hreaches'), ?_⟩
    simpa [lineTokens, keyTokens, tokens] using hat'

lemma isAllowed_of_isInline {c : Char} (h : isInline c = true) : isAllowed c = true := by
  simp only [isInline, Bool.and_eq_true, decide_eq_true_eq] at h
  have hrange : (0x20 ≤ c.toNat && c.toNat ≤ 0x7e) = true := by
    simp only [Bool.and_eq_true, decide_eq_true_eq]
    omega
  simp [isAllowed, hrange]

lemma allowed_writeBlock {es : List (Value × Value)} (hes : ∀ e ∈ es, IsLine e) {w : String}
    (hw : writeBlock es = .ok w) : ∀ c ∈ w.toList, isInline c = true ∨ c = '\n' := by
  induction es generalizing w with
  | nil =>
    obtain rfl := Except.ok.inj hw
    exact List.forall_mem_nil _
  | cons e es ih =>
    obtain ⟨k, v⟩ := e
    obtain ⟨u, hu, hw⟩ := Except.bind_eq_ok.mp hw
    obtain ⟨w, hw', hw⟩ := Except.bind_eq_ok.mp hw
    obtain rfl := Except.ok.inj hw
    obtain ⟨⟨⟨t, rfl, hshort⟩, hv, hlines⟩, hrest⟩ := List.forall_mem_cons.mp hes
    obtain ⟨body, hbody, hbehind⟩ := exists_behind hshort hv hlines hu
    intro c hc
    rw [String.toList_append, hbody] at hc
    simp only [List.mem_append, List.mem_cons, List.not_mem_nil, or_false] at hc
    rcases hc with (hc | rfl | hc | rfl) | hc
    · exact .inl (inline_quotedText _ c hc)
    · exact .inl (by decide)
    · exact hbehind.allowed c hc
    · exact .inr rfl
    · exact ih hrest hw' c hc

/-- At the beginning of a text nothing has been read. -/
lemma run_settle_start {first : Bool} (h : AtLine s ts first rest) (hrest : BeginsToken rest) :
    settle.run s = .ok ((), s) := by
  have htoken : (toNextToken (s.cursor.rest.length + 1)).run s = .ok ((), s) :=
    run_toNextToken_stay (by rw [h.rest_eq]; exact hrest) _
  have hstale : dropStale.run s = .ok ((), s) := by
    have hdrop := run_dropStale (s := s) (by simp [h.places_eq])
    rwa [h.places_eq, List.filter_nil, ← h.places_eq] at hdrop
  have hindent : s.indent ≤ s.cursor.column := by
    have := h.opened
    rw [h.column_eq]
    cases first with
    | true =>
      rw [this.2.1]
      decide
    | false => exact this.1.le
  unfold settle
  rw [run_bind, run_get]
  dsimp only [Except.bind]
  rw [run_bind, htoken]
  dsimp only [Except.bind]
  rw [run_bind, hstale]
  exact run_unwindTo (.inr hindent)

end Scan

/-- The tokens of a mapping on lines of its own. -/
def blockTokens (es : List (Value × Value)) : List Token :=
  .blockMappingStart :: (es.flatMap Scan.lineTokens ++ [.blockEnd, .streamEnd])

/-- **A written mapping is read as its tokens, line by line.** -/
lemma tokenize_writeBlock {es : List (Value × Value)} (hne : es ≠ [])
    (hes : ∀ e ∈ es, Scan.IsLine e) {w : String} (hw : writeBlock es = .ok w) :
    tokenize w = .ok (blockTokens es) := by
  obtain ⟨⟨k, v⟩, es, rfl⟩ := List.exists_cons_of_ne_nil hne
  have hallowed := Scan.allowed_writeBlock hes hw
  obtain ⟨u, hu, hw⟩ := Except.bind_eq_ok.mp hw
  obtain ⟨w, hw', hw⟩ := Except.bind_eq_ok.mp hw
  obtain rfl := Except.ok.inj hw
  obtain ⟨⟨⟨t, rfl, hshort⟩, hv, hlines⟩, hrest⟩ := List.forall_mem_cons.mp hes
  obtain ⟨body, hbody, hbehind⟩ := Scan.exists_behind hshort hv hlines hu
  have htext : (u ++ w).toList =
      (quotedText (rereadText t)).toList ++ ':' :: (body ++ '\n' :: w.toList) := by
    rw [String.toList_append, hbody]
    simp
  let s₀ : Scanner := { cursor := { rest := (u ++ w).toList } }
  have hat₀ : Scan.AtLine s₀ [] true
      ((quotedText (rereadText t)).toList ++ ':' :: (body ++ '\n' :: w.toList)) :=
    ⟨rfl, rfl, rfl, htext, rfl, ⟨rfl, rfl, rfl⟩, rfl⟩
  have hquote : (quotedText (rereadText t)).toList =
      '"' :: ((rereadText t).toList.flatMap quotedChar ++ ['"']) := by
    rw [quotedText, String.toList_ofList, List.cons_append]
  have hsettle := Scan.run_settle_start hat₀ (by
    rw [hquote]
    rintro _ ⟨⟩
    decide)
  obtain ⟨s₁, s₂, htake, hrest₁, hnext, hat₂⟩ :=
    Scan.exists_next_lineKey hshort (hbehind.endsWord _) hat₀
  have hfirst : Scan.Next s₀ s₁ := by
    refine ⟨?_, ?_⟩
    · rw [Scan.step, Scan.run_bind, hsettle]
      exact htake
    · rw [hrest₁, hat₀.rest_eq, hquote, List.length_append, List.length_cons]
      exact Nat.lt_add_of_pos_left (Nat.succ_pos _)
  obtain ⟨s₃, hreaches, hat₃⟩ := hbehind.reaches hat₂
  obtain ⟨s₄, b, k, hreaches', hat₄⟩ := Scan.exists_reaches_lines hrest hw' hat₃
  obtain ⟨s₅, hend, htokens⟩ := Scan.exists_step_end hat₄
  obtain ⟨n, hn, hsteps⟩ := Scan.exists_steps
    (.head hfirst (.head hnext (hreaches.trans hreaches'))) (Nat.lt_succ_self _)
  have hrun : (Scan.steps ((u ++ w).toList.length + 1)).run s₀ = .ok ((), s₅) := by
    obtain ⟨n, rfl⟩ := Nat.exists_eq_add_one_of_ne_zero (Nat.ne_zero_of_lt hn)
    rw [hsteps, Scan.steps, Scan.run_bind, hend]
    rfl
  have hall : (u ++ w).toList.all isAllowed = true := by
    refine List.all_eq_true.mpr fun c hc => ?_
    rcases hallowed c hc with hc | rfl
    · exact Scan.isAllowed_of_isInline hc
    · rfl
  have hmark : s₀.cursor.sees '\ufeff' = false := by
    have hpeek : s₀.cursor.peek = some '"' := by
      rw [Cursor.peek, hat₀.rest_eq, hquote]
      rfl
    simp [Cursor.sees, hpeek]
  have hdone : s₅.tokens.toList = blockTokens ((.text t, v) :: es) := by
    rw [htokens]
    simp [blockTokens, Scan.lineTokens, Scan.keyTokens, tokens]
  rw [← hdone]
  unfold tokenize
  simp only [hall, Bool.not_true, Bool.false_eq_true, if_false]
  rw [if_neg fun hsees => Bool.false_ne_true (hmark.symm.trans hsees)]
  exact congrArg (Except.map fun r => r.2.tokens.toList) hrun

end Stencil.Yaml
