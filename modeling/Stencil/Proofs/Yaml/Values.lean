import Stencil.Proofs.Json.Writable
import Stencil.Proofs.Yaml.Tree
import Stencil.Yaml.Read

/-!
The values that written YAML is read as.

A written value is read as itself (`valueOf_nodeOf`), but for what its texts lose where they are
folded, for tuples, which become lists, and for keys that come to be the same (`reread`). And
whatever is read can be written and read again (`readable_of_read`): its dates are of the calendar,
and its keys are scalars.
-/

namespace Stencil.Yaml

open Number
open Json (AllDigits isAsciiDigit)

/-! ### Bytes -/

lemma sextet?_base64Digit : ∀ n < 64, sextet? (base64Digit n) = some n := by decide

lemma base64Digit_ne_pad : ∀ n < 64, (base64Digit n == '=') = false := by decide

section

variable {n pads left : ℕ} (hn : n < 64) (cs : List Char)

include hn

lemma bytesFrom?_digit (place : ℕ) : bytesFrom? place pads left (base64Digit n :: cs) =
    let emit (m next left : ℕ) := (bytesFrom? next 0 left cs).map (m.toUInt8 :: ·)
    match place with
    | 0 => bytesFrom? 1 0 n cs
    | 1 => emit (left * 4 + n / 16) 2 (n % 16)
    | 2 => emit (left * 16 + n / 4) 3 (n % 4)
    | _ => emit (left * 64 + n) 0 0 := by
  rw [bytesFrom?, base64Digit_ne_pad n hn, sextet?_base64Digit n hn]
  rfl

lemma bytesFrom?_first : bytesFrom? 0 pads left (base64Digit n :: cs) = bytesFrom? 1 0 n cs :=
  bytesFrom?_digit hn cs 0

lemma bytesFrom?_second : bytesFrom? 1 pads left (base64Digit n :: cs) =
    (bytesFrom? 2 0 (n % 16) cs).map ((left * 4 + n / 16).toUInt8 :: ·) :=
  bytesFrom?_digit hn cs 1

lemma bytesFrom?_third : bytesFrom? 2 pads left (base64Digit n :: cs) =
    (bytesFrom? 3 0 (n % 4) cs).map ((left * 16 + n / 4).toUInt8 :: ·) :=
  bytesFrom?_digit hn cs 2

lemma bytesFrom?_fourth : bytesFrom? 3 pads left (base64Digit n :: cs) =
    (bytesFrom? 0 0 0 cs).map ((left * 64 + n).toUInt8 :: ·) :=
  bytesFrom?_digit hn cs 3

end

lemma toUInt8_of_eq {n : ℕ} {b : UInt8} (h : n = b.toNat) : n.toUInt8 = b := by
  rw [h]
  exact UInt8.ofNat_toNat

lemma bytesFrom?_base64 (bs : List UInt8) : bytesFrom? 0 0 0 (base64 bs) = some bs := by
  fun_induction base64 bs with
  | case1 => rfl
  | case2 a n =>
    have ha := a.toNat_lt
    rw [bytesFrom?_first (by omega), bytesFrom?_second (by omega),
      toUInt8_of_eq (b := a) (by omega)]
    rfl
  | case3 a b n =>
    have ha := a.toNat_lt
    have hb := b.toNat_lt
    rw [bytesFrom?_first (by omega), bytesFrom?_second (by omega), bytesFrom?_third (by omega),
      toUInt8_of_eq (b := a) (by omega), toUInt8_of_eq (b := b) (by omega)]
    rfl
  | case4 a b c rest n ih =>
    have ha := a.toNat_lt
    have hb := b.toNat_lt
    have hc := c.toNat_lt
    rw [bytesFrom?_first (by omega), bytesFrom?_second (by omega), bytesFrom?_third (by omega),
      bytesFrom?_fourth (by omega), ih, toUInt8_of_eq (b := a) (by omega),
      toUInt8_of_eq (b := b) (by omega), toUInt8_of_eq (b := c) (by omega)]
    rfl

lemma readBytes_base64 (bs : List UInt8) : readBytes (String.ofList (base64 bs)) = .ok bs := by
  have hascii : (base64 bs).any (fun c => 128 ≤ c.toNat) = false := by
    refine List.any_eq_false.mpr fun c hc => ?_
    simpa using forall_mem_base64 (P := fun c => c.toNat < 128) (by decide) (by decide) bs c hc
  rw [readBytes, String.toList_ofList, hascii, bytesFrom?_base64]
  rfl

/-! ### Values -/

mutual

/-- What a value is read as when it was written: a text as it is read, a tuple as a list, and of
entries with the same key the last one. -/
def reread : Value → Value
  | .text s => .text (rereadText s)
  | .list vs => .list (rereadItems vs)
  | .tuple vs => .list (rereadItems vs)
  | .dict es => .dictOf (rereadEntries es)
  | v => v

def rereadItems : List Value → List Value
  | [] => []
  | v :: vs => reread v :: rereadItems vs

def rereadEntries : List (Value × Value) → List (Value × Value)
  | [] => []
  | (k, v) :: es => (reread k, reread v) :: rereadEntries es

end

variable {v k : Value} {t : String}

lemma scalarValue_plainKind {c : Kind} {s : String} (h : plainKind s = c) :
    valueOf (.scalar (.unmarked true) s) = scalarValue c s := by
  rw [valueOf, h]
  rfl

/-- A scalar is read as it was written. -/
lemma valueOf_scalar (hscalar : isScalar v = true) (hv : Readable v) (h : writeFlow v = .ok t) :
    valueOf (nodeOf v) = .ok (reread v) := by
  cases v with
  | null => exact scalarValue_plainKind (c := .null) (by decide +kernel)
  | bool b =>
    cases b with
    | true => exact (scalarValue_plainKind (c := .bool) (by decide +kernel)).trans (by decide)
    | false => exact (scalarValue_plainKind (c := .bool) (by decide +kernel)).trans (by decide)
  | int n =>
    obtain ⟨hn, -⟩ := Value.showInt_eq_ok h
    refine (scalarValue_plainKind (plainKind_intText n)).trans ?_
    rw [scalarValue, readInt_intText (Value.natAbs_lt_of_isShort hn)]
    rfl
  | float x =>
    refine (scalarValue_plainKind (plainKind_doubleText x)).trans ?_
    rw [scalarValue, readFloat_doubleText]
    rfl
  | text s => rfl
  | bytes bs =>
    have hkind : Kind.ofTag? binaryTag = some .binary := by decide +kernel
    rw [nodeOf, valueOf, kindOf, hkind]
    show scalarValue .binary _ = _
    rw [scalarValue, readBytes_base64]
    rfl
  | date d =>
    refine (scalarValue_plainKind (plainKind_date hv)).trans ?_
    rw [scalarValue, readTimestamp_date hv]
    rfl
  | moment m =>
    refine (scalarValue_plainKind (plainKind_moment hv.1 hv.2)).trans ?_
    rw [scalarValue, readTimestamp_moment hv.1 hv.2]
    rfl
  | list | tuple | dict | context => cases hscalar

/-- A scalar is a key that stands for itself, and not for what a mark says. -/
lemma ownKey_scalar (hscalar : isScalar k = true) (hk : Readable k) :
    isMerge (nodeOf k) = false ∧ ownKey? (nodeOf k) = none ∧ canBeKey (reread k) = true := by
  have hplain {s : String} {c : Kind} (h : plainKind s = c) (hmerge : c ≠ .merge)
      (hvalue : c ≠ .value) : isMerge (.scalar (.unmarked true) s) = false ∧
        ownKey? (.scalar (.unmarked true) s) = none := by
    subst h
    simp [isMerge, ownKey?, hmerge, hvalue]
  cases k with
  | null =>
    have hnull : plainKind "null" = .null := by decide +kernel
    exact (hplain hnull (by decide) (by decide)).imp_right (⟨·, rfl⟩)
  | bool b =>
    have hbool : plainKind (if b then "true" else "false") = .bool := by
      cases b <;> decide +kernel
    exact (hplain hbool (by decide) (by decide)).imp_right (⟨·, rfl⟩)
  | int n => exact (hplain (plainKind_intText n) (by decide) (by decide)).imp_right (⟨·, rfl⟩)
  | float x => exact (hplain (plainKind_doubleText x) (by decide) (by decide)).imp_right (⟨·, rfl⟩)
  | text | bytes => exact ⟨rfl, rfl, rfl⟩
  | date d => exact (hplain (plainKind_date hk) (by decide) (by decide)).imp_right (⟨·, rfl⟩)
  | moment m =>
    exact (hplain (plainKind_moment hk.1 hk.2) (by decide) (by decide)).imp_right (⟨·, rfl⟩)
  | list | tuple | dict | context => cases hscalar

mutual

/-- **A written value is read again**, but for what a text loses when it is read. -/
lemma valueOf_nodeOf : ∀ (v : Value) {t : String}, Readable v → writeFlow v = .ok t →
    valueOf (nodeOf v) = .ok (reread v)
  | .list vs => fun hv h => by
    obtain ⟨ts, hts, -⟩ := Except.bind_eq_ok.mp h
    have hitems := valuesOf_itemNodes vs hv hts
    rw [nodeOf, valueOf, hitems]
    rfl
  | .tuple vs => fun hv h => by
    obtain ⟨ts, hts, -⟩ := Except.bind_eq_ok.mp h
    have hitems := valuesOf_itemNodes vs hv hts
    rw [nodeOf, valueOf, hitems]
    rfl
  | .dict es => fun hv h => by
    obtain ⟨ts, hts, -⟩ := Except.bind_eq_ok.mp h
    have hentries := entriesOf_entryNodes es hv.1 hts
    rw [nodeOf, valueOf, hentries]
    rfl
  | .context _ => fun hv _ => hv.elim
  | .null | .bool _ | .int _ | .float _ | .text _ | .bytes _ | .date _ | .moment _ =>
    fun hv h => valueOf_scalar rfl hv h

lemma valuesOf_itemNodes : ∀ (vs : List Value) {ts : List String}, ReadableItems vs →
    writeItems vs = .ok ts → valuesOf (itemNodes vs) = .ok (rereadItems vs)
  | [] => fun _ _ => rfl
  | v :: vs => fun hvs h => by
    obtain ⟨t, ht, h⟩ := Except.bind_eq_ok.mp h
    obtain ⟨ts, hts, -⟩ := Except.bind_eq_ok.mp h
    rw [itemNodes, valuesOf, valueOf_nodeOf v hvs.1 ht, valuesOf_itemNodes vs hvs.2 hts]
    rfl

lemma entriesOf_entryNodes : ∀ (es : List (Value × Value)) {ts : List String},
    ReadableEntries es → writeEntries es = .ok ts →
      entriesOf (entryNodes es) = .ok ([], rereadEntries es)
  | [] => fun _ _ => rfl
  | (k, v) :: es => fun hes h => by
    obtain ⟨⟨hscalar, hk⟩, hv, hes⟩ := hes
    obtain ⟨kt, hkt, h⟩ := Except.bind_eq_ok.mp h
    obtain ⟨vt, hvt, h⟩ := Except.bind_eq_ok.mp h
    obtain ⟨ts, hts, -⟩ := Except.bind_eq_ok.mp h
    obtain ⟨hmerge, hown, hkey⟩ := ownKey_scalar hscalar hk
    rw [entryNodes, entriesOf, hmerge, hown, valueOf_scalar hscalar hk hkt]
    simp only [bind, Except.bind, hkey, valueOf_nodeOf v hv hvt, entriesOf_entryNodes es hes hts]
    rfl

end

/-! ### Values that are read as they were -/

/-- A text without next-line characters is read as it was. -/
lemma rereadText_of_notMem {s : String} (h : '\x85' ∉ s.toList) : rereadText s = s := by
  have hkept (behind : Bool) {cs : List Char} (hcs : '\x85' ∉ cs) : unfolded behind cs = cs := by
    induction cs generalizing behind with
    | nil => rfl
    | cons c cs ih =>
      obtain ⟨hc, hcs⟩ := List.ne_and_not_mem_of_not_mem_cons hcs
      rw [unfolded, if_neg (by simpa using hc.symm), ih _ hcs]
  unfold rereadText
  split
  · rw [hkept false h, String.ofList_toList]
  · rfl

lemma insertEntry_of_differ {es : List (Value × Value)} (h : ∀ e ∈ es, e.1.same k = false) :
    Value.insertEntry k v es = es ++ [(k, v)] := by
  induction es with
  | nil => rfl
  | cons e es ih =>
    obtain ⟨he, hes⟩ := List.forall_mem_cons.mp h
    rw [Value.insertEntry, if_neg (by simp [he]), ih hes]
    rfl

/-- Entries whose keys differ all remain. -/
lemma dictOf_of_keysDiffer {es : List (Value × Value)} (h : KeysDiffer es) :
    Value.dictOf es = .dict es := by
  have hfold (acc : List (Value × Value)) (hacc : KeysDiffer (acc ++ es)) :
      es.foldl (fun acc e => Value.insertEntry e.1 e.2 acc) acc = acc ++ es := by
    induction es generalizing acc with
    | nil => exact (List.append_nil acc).symm
    | cons e es ih =>
      have hfresh : ∀ d ∈ acc, d.1.same e.1 = false := fun d hd =>
        (List.pairwise_append.mp hacc).2.2 d hd e List.mem_cons_self
      have hsnoc : acc ++ e :: es = (acc ++ [e]) ++ es := by simp
      rw [List.foldl_cons, insertEntry_of_differ hfresh]
      rw [hsnoc] at hacc ⊢
      exact ih (List.pairwise_cons.mp h).2 _ hacc
  exact congrArg Value.dict (hfold [] h)

mutual

/-- No text of the value changes when it is read, and it holds no tuples. -/
def IsSettled : Value → Prop
  | .text s => rereadText s = s
  | .tuple _ => False
  | .list vs => AreSettled vs
  | .dict es => EntriesSettled es
  | _ => True

def AreSettled : List Value → Prop
  | [] => True
  | v :: vs => IsSettled v ∧ AreSettled vs

def EntriesSettled : List (Value × Value) → Prop
  | [] => True
  | (k, v) :: es => IsSettled k ∧ IsSettled v ∧ EntriesSettled es

end

mutual

lemma reread_eq_self : ∀ v : Value, Readable v → IsSettled v → reread v = v
  | .text s => fun _ h => congrArg Value.text h
  | .tuple _ => fun _ h => h.elim
  | .list vs => fun hv h => congrArg Value.list (rereadItems_eq_self vs hv h)
  | .dict es => fun hv h => by
    rw [reread, rereadEntries_eq_self es hv.1 h, dictOf_of_keysDiffer hv.2]
  | .null | .bool _ | .int _ | .float _ | .bytes _ | .date _ | .moment _ | .context _ =>
    fun _ _ => rfl

lemma rereadItems_eq_self : ∀ vs : List Value, ReadableItems vs → AreSettled vs →
    rereadItems vs = vs
  | [] => fun _ _ => rfl
  | v :: vs => fun hvs h => by
    rw [rereadItems, reread_eq_self v hvs.1 h.1, rereadItems_eq_self vs hvs.2 h.2]

lemma rereadEntries_eq_self : ∀ es : List (Value × Value), ReadableEntries es →
    EntriesSettled es → rereadEntries es = es
  | [] => fun _ _ => rfl
  | (k, v) :: es => fun hes h => by
    rw [rereadEntries, reread_eq_self k hes.1.2 h.1, reread_eq_self v hes.2.1 h.2.1,
      rereadEntries_eq_self es hes.2.2 h.2.2]

end

/-! ### Documents -/

lemma exists_writeEntries {es : List (Value × Value)} {w : String} (h : writeBlock es = .ok w) :
    ∃ ts, writeEntries es = .ok ts := by
  induction es generalizing w with
  | nil => exact ⟨[], rfl⟩
  | cons e es ih =>
    obtain ⟨k, v⟩ := e
    obtain ⟨u, hu, h⟩ := Except.bind_eq_ok.mp h
    obtain ⟨w, hw, -⟩ := Except.bind_eq_ok.mp h
    obtain ⟨ts, hts⟩ := ih hw
    obtain ⟨key, hkey, hu⟩ := Except.bind_eq_ok.mp hu
    have hvalue : ∃ t, writeFlow v = .ok t := by
      dsimp only at hu
      split at hu
      · obtain ⟨items, hitems, -⟩ := Except.bind_eq_ok.mp hu
        exact ⟨_, by rw [writeFlow, hitems]; rfl⟩
      · obtain ⟨t, ht, -⟩ := Except.bind_eq_ok.mp hu
        exact ⟨t, ht⟩
    obtain ⟨t, ht⟩ := hvalue
    exact ⟨_, by rw [writeEntries, hkey, ht, hts]; rfl⟩

lemma readableEntries_of_isLine {es : List (Value × Value)} (h : ∀ e ∈ es, Scan.IsLine e) :
    ReadableEntries es := by
  induction es with
  | nil => trivial
  | cons e es ih =>
    obtain ⟨k, v⟩ := e
    obtain ⟨⟨⟨t, rfl, -⟩, hv, -⟩, hes⟩ := List.forall_mem_cons.mp h
    exact ⟨⟨rfl, trivial⟩, hv, ih hes⟩

/-- **A written mapping is read again**, but for what its values lose when they are read. -/
theorem read_write {es : List (Value × Value)} (hne : es ≠ []) (hes : ∀ e ∈ es, Scan.IsLine e)
    {w : String} (h : write (.dict es) = .ok w) : read w = .ok (reread (.dict es)) := by
  obtain ⟨e, es, rfl⟩ := List.exists_cons_of_ne_nil hne
  obtain ⟨ts, hts⟩ := exists_writeEntries h
  rw [read, parse_writeBlock hne hes h]
  change valueOf (.mapping (.unmarked true) (entryNodes (e :: es))) = _
  rw [valueOf, entriesOf_entryNodes _ (readableEntries_of_isLine hes) hts]
  rfl

/-! ### Whatever is read -/

lemma digitsNat_lt {ds : List Char} (h : AllDigits ds) : digitsNat ds < 10 ^ ds.length := by
  rw [digitsNat, digitsValue_digits]
  exact Json.digitsOf_lt h

lemma dvd_of_zone? {cs : List Char} {offset : Option ℤ} (h : zone? cs = some offset) :
    ∀ s ∈ offset, 60 ∣ s := by
  have hminutes {negative : Prop} [Decidable negative] {hours minutes : ℕ}
      (heq : some (some (if negative then -(hours * 3600 + minutes * 60 : ℤ)
        else hours * 3600 + minutes * 60)) = some offset) : ∀ s ∈ offset, 60 ∣ s := by
    obtain rfl := Option.some.inj heq
    rintro s ⟨⟩
    split <;> omega
  unfold zone? at h
  dsimp only at h
  split at h
  · split at h
    · obtain rfl := Option.some.inj h
      exact nofun
    · cases h
  · obtain rfl := Option.some.inj h
    rintro s ⟨⟩
    exact dvd_zero 60
  · split at h
    · obtain ⟨⟨hours, rest⟩, -, h⟩ := Option.bind_eq_some_iff.mp h
      dsimp only at h
      split at h
      · exact hminutes h
      · obtain ⟨_, -, h⟩ := Option.bind_eq_some_iff.mp h
        obtain ⟨⟨minutes, _⟩, -, h⟩ := Option.bind_eq_some_iff.mp h
        dsimp only at h
        split at h
        · exact hminutes h
        · cases h
    · cases h

/-- A time that is read has microseconds of six digits, and an offset in minutes. -/
lemma bounds_of_clock? {cs : List Char} {c : Clock} (h : clock? cs = some c) :
    c.microsecond < 1000000 ∧ ∀ s ∈ c.offset, 60 ∣ s := by
  unfold clock? at h
  obtain ⟨⟨hour, _⟩, -, h⟩ := Option.bind_eq_some_iff.mp h
  obtain ⟨_, -, h⟩ := Option.bind_eq_some_iff.mp h
  obtain ⟨⟨minute, _⟩, -, h⟩ := Option.bind_eq_some_iff.mp h
  obtain ⟨_, -, h⟩ := Option.bind_eq_some_iff.mp h
  obtain ⟨⟨second, rest⟩, -, h⟩ := Option.bind_eq_some_iff.mp h
  obtain ⟨offset, hzone, h⟩ := Option.bind_eq_some_iff.mp h
  obtain rfl := Option.some.inj h
  refine ⟨?_, dvd_of_zone? hzone⟩
  have hdigits : ∀ fraction : List Char, AllDigits fraction →
      digitsNat ((fraction ++ List.replicate 6 '0').take 6) < 1000000 := by
    intro fraction hall
    have hpadded : AllDigits ((fraction ++ List.replicate 6 '0').take 6) := fun c hc => by
      rcases List.mem_append.mp (List.mem_of_mem_take hc) with hc | hc
      · exact hall c hc
      · rw [List.eq_of_mem_replicate hc]
        decide
    have hlength : ((fraction ++ List.replicate 6 '0').take 6).length ≤ 6 := List.length_take_le _ _
    exact (digitsNat_lt hpadded).trans_le (Nat.pow_le_pow_right (by decide) hlength)
  apply hdigits
  split
  · intro c hc
    have := List.mem_takeWhile_imp hc
    rwa [← isDigit_eq]
  · exact List.forall_mem_nil _

lemma exists?_of_checkDate {d : Date} (h : checkDate d = .ok ()) : d.exists? = true := by
  unfold checkDate at h
  split at h
  · cases h
  · split at h
    · cases h
    · split at h
      · cases h
      · rename_i hexists
        simpa using hexists

/-- The time of a stamp was read from the text behind the date. -/
lemma exists_clock? {cs : List Char} {date : Date} {wide : Bool} {c : Clock}
    (h : stamp? cs = some ⟨date, wide, some c⟩) : ∃ rest, clock? rest = some c := by
  unfold stamp? at h
  dsimp only at h
  split at h
  · cases h
  · obtain ⟨_, -, h⟩ := Option.bind_eq_some_iff.mp h
    obtain ⟨⟨_, _⟩, -, h⟩ := Option.bind_eq_some_iff.mp h
    obtain ⟨_, -, h⟩ := Option.bind_eq_some_iff.mp h
    obtain ⟨⟨_, _⟩, -, h⟩ := Option.bind_eq_some_iff.mp h
    dsimp only at h
    split at h
    · cases h
    · split at h
      · obtain ⟨k, hk, h⟩ := Option.bind_eq_some_iff.mp h
        cases h
        exact ⟨_, hk⟩
      · split at h
        · obtain ⟨k, hk, h⟩ := Option.bind_eq_some_iff.mp h
          cases h
          exact ⟨_, hk⟩
        · cases h

/-- A date or a time that is read is of the calendar. -/
lemma readable_of_readTimestamp {s : String} (h : readTimestamp s = .ok v) :
    isScalar v = true ∧ Readable v := by
  unfold readTimestamp at h
  split at h
  · cases h
  · obtain ⟨_, hdate, h⟩ := Except.bind_eq_ok.mp h
    obtain rfl := Except.ok.inj h
    exact ⟨rfl, exists?_of_checkDate hdate⟩
  · rename_i date wide c hstamp
    obtain ⟨_, hoffset, h⟩ := Except.bind_eq_ok.mp h
    obtain ⟨_, hdate, h⟩ := Except.bind_eq_ok.mp h
    obtain ⟨_, hclock, h⟩ := Except.bind_eq_ok.mp h
    obtain rfl := Except.ok.inj h
    obtain ⟨rest, hrest⟩ := exists_clock? hstamp
    obtain ⟨hmicrosecond, hminutes⟩ := bounds_of_clock? hrest
    obtain ⟨hhour, hminute, hsecond⟩ : c.hour ≤ 23 ∧ c.minute ≤ 59 ∧ c.second ≤ 59 := by
      unfold checkClock at hclock
      split_ifs at hclock with hhour hminute hsecond
      · cases hclock
      · cases hclock
      · cases hclock
      · omega
    refine ⟨rfl, exists?_of_checkDate hdate, hhour, hminute, hsecond, hmicrosecond, fun t ht => ?_⟩
    refine ⟨?_, hminutes t ht⟩
    have ht : c.offset = some t := ht
    rw [ht, checkOffset] at hoffset
    split at hoffset
    · cases hoffset
    · omega

/-- A scalar of any kind is read as a value that can be written and read again. -/
lemma readable_of_scalarValue {kind : Kind} {s : String} (h : scalarValue kind s = .ok v) :
    isScalar v = true ∧ Readable v := by
  have hmap {α : Type} {f : α → Value} {x : Except Fault α} (hx : x.map f = .ok v) :
      ∃ a, f a = v := by
    cases x with
    | error => cases hx
    | ok a => exact ⟨a, Except.ok.inj hx⟩
  cases kind with
  | timestamp => exact readable_of_readTimestamp h
  | pairs | sequence | mapping | merge | value => cases h
  | null | text =>
    obtain rfl := Except.ok.inj h
    exact ⟨rfl, trivial⟩
  | bool | int | float | binary =>
    obtain ⟨a, rfl⟩ := hmap h
    exact ⟨rfl, trivial⟩

lemma readableEntries_append {es fs : List (Value × Value)} (hes : ReadableEntries es)
    (hfs : ReadableEntries fs) : ReadableEntries (es ++ fs) := by
  induction es with
  | nil => exact hfs
  | cons e es ih => exact ⟨hes.1, hes.2.1, ih hes.2.2⟩

lemma mem_keys_insertEntry {es : List (Value × Value)} {e : Value × Value}
    (h : e ∈ Value.insertEntry k v es) : (∃ d ∈ es, d.1 = e.1) ∨ e = (k, v) := by
  induction es with
  | nil => exact .inr (List.mem_singleton.mp h)
  | cons d es ih =>
    unfold Value.insertEntry at h
    split at h
    · rcases List.mem_cons.mp h with rfl | h
      · exact .inl ⟨d, List.mem_cons_self, rfl⟩
      · exact .inl ⟨e, List.mem_cons_of_mem _ h, rfl⟩
    · rcases List.mem_cons.mp h with rfl | h
      · exact .inl ⟨d, List.mem_cons_self, rfl⟩
      · rcases ih h with ⟨d', hd', heq⟩ | rfl
        · exact .inl ⟨d', List.mem_cons_of_mem _ hd', heq⟩
        · exact .inr rfl

lemma keysDiffer_insertEntry {es : List (Value × Value)} (h : KeysDiffer es) :
    KeysDiffer (Value.insertEntry k v es) := by
  induction es with
  | nil => exact List.pairwise_singleton _ _
  | cons d es ih =>
    obtain ⟨hd, hes⟩ := List.pairwise_cons.mp h
    unfold Value.insertEntry
    split
    · exact List.pairwise_cons.mpr ⟨hd, hes⟩
    · rename_i hne
      refine List.pairwise_cons.mpr ⟨fun e he => ?_, ih hes⟩
      rcases mem_keys_insertEntry he with ⟨d', hd', heq⟩ | rfl
      · rw [← heq]
        exact hd d' hd'
      · simpa using hne

lemma readableEntries_insertEntry {es : List (Value × Value)} (hes : ReadableEntries es)
    (hscalar : isScalar k = true) (hk : Readable k) (hv : Readable v) :
    ReadableEntries (Value.insertEntry k v es) := by
  induction es with
  | nil => exact ⟨⟨hscalar, hk⟩, hv, trivial⟩
  | cons e es ih =>
    unfold Value.insertEntry
    split
    · exact ⟨hes.1, hv, hes.2.2⟩
    · exact ⟨hes.1, hes.2.1, ih hes.2.2⟩

lemma readable_dictOf {es : List (Value × Value)} (h : ReadableEntries es) :
    Readable (Value.dictOf es) := by
  have hfold (acc) (hacc : ReadableEntries acc ∧ KeysDiffer acc) :
      Readable (.dict (es.foldl (fun acc e => Value.insertEntry e.1 e.2 acc) acc)) := by
    induction es generalizing acc with
    | nil => exact hacc
    | cons e es ih =>
      exact ih h.2.2 _ ⟨readableEntries_insertEntry hacc.1 h.1.1 h.1.2 h.2.1,
        keysDiffer_insertEntry hacc.2⟩
  exact hfold [] ⟨trivial, List.Pairwise.nil⟩

mutual

/-- **What is read can be written and read again**, and where it can be a key it is a scalar. -/
lemma readable_of_valueOf : ∀ (n : Node) {v : Value}, valueOf n = .ok v →
    Readable v ∧ (canBeKey v = true → isScalar v = true)
  | .scalar tag s => fun h => by
    obtain ⟨kind, -, h⟩ := Except.bind_eq_ok.mp h
    obtain ⟨hscalar, hv⟩ := readable_of_scalarValue h
    exact ⟨hv, fun _ => hscalar⟩
  | .sequence tag items => fun h => by
    obtain ⟨kind, -, h⟩ := Except.bind_eq_ok.mp h
    split at h
    · obtain ⟨vs, hvs, h⟩ := Except.bind_eq_ok.mp h
      obtain rfl := Except.ok.inj h
      exact ⟨readableItems_of_valuesOf items hvs, nofun⟩
    · obtain ⟨vs, hvs, h⟩ := Except.bind_eq_ok.mp h
      obtain rfl := Except.ok.inj h
      exact ⟨readableItems_of_pairsOf items hvs, nofun⟩
    · cases h
  | .mapping tag entries => fun h => by
    obtain ⟨kind, -, h⟩ := Except.bind_eq_ok.mp h
    split at h
    · obtain ⟨⟨merged, own⟩, hentries, h⟩ := Except.bind_eq_ok.mp h
      obtain rfl := Except.ok.inj h
      obtain ⟨hmerged, hown⟩ := readableEntries_of_entriesOf entries hentries
      exact ⟨readable_dictOf (readableEntries_append hmerged hown), nofun⟩
    · cases h

lemma readableItems_of_valuesOf : ∀ (ns : List Node) {vs : List Value},
    valuesOf ns = .ok vs → ReadableItems vs
  | [] => fun h => by
    obtain rfl := Except.ok.inj h
    trivial
  | n :: ns => fun h => by
    obtain ⟨v, hv, h⟩ := Except.bind_eq_ok.mp h
    obtain ⟨vs, hvs, h⟩ := Except.bind_eq_ok.mp h
    obtain rfl := Except.ok.inj h
    exact ⟨(readable_of_valueOf n hv).1, readableItems_of_valuesOf ns hvs⟩

lemma readableItems_of_pairsOf : ∀ (ns : List Node) {vs : List Value},
    pairsOf ns = .ok vs → ReadableItems vs
  | [] => fun h => by
    obtain rfl := Except.ok.inj h
    trivial
  | .mapping _ [(k, v)] :: ns => fun h => by
    have hgo {a : Value} {us : List Value} (ha : Readable a) (h : (valueOf v >>= fun value =>
        pairsOf ns >>= fun vs => .ok (.tuple [a, value] :: vs)) = .ok us) :
        ReadableItems us := by
      obtain ⟨value, hvalue, h⟩ := Except.bind_eq_ok.mp h
      obtain ⟨vs, hvs, h⟩ := Except.bind_eq_ok.mp h
      obtain rfl := Except.ok.inj h
      exact ⟨⟨ha, (readable_of_valueOf v hvalue).1, trivial⟩, readableItems_of_pairsOf ns hvs⟩
    rw [pairsOf] at h
    dsimp only at h
    split at h
    · exact hgo (a := .text _) trivial h
    · obtain ⟨key, hkey, h⟩ := Except.bind_eq_ok.mp h
      exact hgo (readable_of_valueOf k hkey).1 h
  | .mapping _ [] :: _ => fun h => by cases h
  | .mapping _ (_ :: _ :: _) :: _ => fun h => by cases h
  | .scalar _ _ :: _ => fun h => by cases h
  | .sequence _ _ :: _ => fun h => by cases h

lemma readableEntries_of_entriesOf : ∀ (ns : List (Node × Node))
    {merged own : List (Value × Value)}, entriesOf ns = .ok (merged, own) →
      ReadableEntries merged ∧ ReadableEntries own
  | [] => fun h => by
    obtain ⟨rfl, rfl⟩ := Prod.mk.inj (Except.ok.inj h)
    exact ⟨trivial, trivial⟩
  | (k, v) :: rest => fun h => by
    have hgo {a : Value} {merged own : List (Value × Value)} (hscalar : isScalar a = true)
        (ha : Readable a) (h : (valueOf v >>= fun value => entriesOf rest >>= fun r =>
          .ok (r.1, (a, value) :: r.2)) = .ok (merged, own)) :
        ReadableEntries merged ∧ ReadableEntries own := by
      obtain ⟨value, hvalue, h⟩ := Except.bind_eq_ok.mp h
      obtain ⟨⟨more, others⟩, hrest, h⟩ := Except.bind_eq_ok.mp h
      obtain ⟨rfl, rfl⟩ := Prod.mk.inj (Except.ok.inj h)
      obtain ⟨hmore, hothers⟩ := readableEntries_of_entriesOf rest hrest
      exact ⟨hmore, ⟨hscalar, ha⟩, (readable_of_valueOf v hvalue).1, hothers⟩
    rw [entriesOf] at h
    dsimp only at h
    split at h
    · obtain ⟨merged, hmerged, h⟩ := Except.bind_eq_ok.mp h
      obtain ⟨⟨more, own⟩, hrest, h⟩ := Except.bind_eq_ok.mp h
      obtain ⟨rfl, rfl⟩ := Prod.mk.inj (Except.ok.inj h)
      obtain ⟨hmore, hown⟩ := readableEntries_of_entriesOf rest hrest
      exact ⟨readableEntries_append (readableEntries_of_mergedOf v hmerged) hmore, hown⟩
    · split at h
      · exact hgo (a := .text _) rfl trivial h
      · obtain ⟨key, hkey, h⟩ := Except.bind_eq_ok.mp h
        obtain ⟨hreadable, hscalar⟩ := readable_of_valueOf k hkey
        split at h
        · cases h
        · rename_i hcan
          exact hgo (hscalar (by simpa using hcan)) hreadable h

lemma readableEntries_of_mergedOf : ∀ (n : Node) {es : List (Value × Value)},
    mergedOf n = .ok es → ReadableEntries es
  | .mapping _ entries => fun h => by
    obtain ⟨⟨merged, own⟩, hentries, h⟩ := Except.bind_eq_ok.mp h
    obtain rfl := Except.ok.inj h
    obtain ⟨hmerged, hown⟩ := readableEntries_of_entriesOf entries hentries
    exact readableEntries_append hmerged hown
  | .sequence _ items => fun h => readableEntries_of_mergedItems items h
  | .scalar _ _ => fun h => by cases h

lemma readableEntries_of_mergedItems : ∀ (ns : List Node) {es : List (Value × Value)},
    mergedItems ns = .ok es → ReadableEntries es
  | [] => fun h => by
    obtain rfl := Except.ok.inj h
    trivial
  | .mapping _ entries :: ns => fun h => by
    obtain ⟨⟨merged, own⟩, hentries, h⟩ := Except.bind_eq_ok.mp h
    obtain ⟨more, hmore, h⟩ := Except.bind_eq_ok.mp h
    obtain rfl := Except.ok.inj h
    obtain ⟨hmerged, hown⟩ := readableEntries_of_entriesOf entries hentries
    exact readableEntries_append (readableEntries_of_mergedItems ns hmore)
      (readableEntries_append hmerged hown)
  | .scalar _ _ :: _ => fun h => by cases h
  | .sequence _ _ :: _ => fun h => by cases h

end

theorem readable_of_read {s : String} (h : read s = .ok v) : Readable v := by
  obtain ⟨found, -, h⟩ := Except.bind_eq_ok.mp h
  split at h
  · exact (readable_of_valueOf _ h).1
  · obtain rfl := Except.ok.inj h
    trivial

end Stencil.Yaml
