import Stencil.Proofs.Number.Spelled
import Stencil.Proofs.Template.Written
import Stencil.Proofs.Variable

/-!
Routes through values: variable paths as templates spell them, and where they lead.

A route is a first key and further legs, keys behind dots and indexes in brackets. Spelled in a slot
it is read as one token (`tokenize_slotText`), and its name is taken apart into the segments that it
was spelled from (`segments_name`). Looking it up then goes from value to value (`Enters`), as far
as every step is possible; it breaks off where one is not, and fails where an index comes up that
has too many digits (`lookup_route`).
-/

namespace Stencil.Variable

open Source (isNameStart isNamePart isKeyPart Ends IsName)
open Text (isDigit digitValue?)

/-! ### Routes and how they are spelled -/

/-- A key in a route: a character that may begin it there, and characters of keys. -/
structure Key (begins : Char → Bool) where
  head : Char
  tail : List Char
  head_begins : begins head = true
  isKeyPart_tail : ∀ c ∈ tail, isKeyPart c = true

/-- An index in a route: one digit or more. -/
structure Index where
  digits : List Char
  ne_nil : digits ≠ []
  isDigit_digits : ∀ c ∈ digits, isDigit c = true

/-- An index as numbers are written. -/
def Index.ofNat (n : Nat) : Index where
  digits := Nat.toDigits 10 n
  ne_nil := Nat.toDigits_ne_nil
  isDigit_digits c hc := Text.isDigit_of_isAsciiDigit (Json.allDigits_toDigits n c hc)

/-- A leg of a route, behind its first key. -/
inductive Leg where
  | key (k : Key isNamePart)
  | index (i : Index)

structure Route where
  first : Key fun c => isNameStart c || c == '@'
  legs : List Leg

variable {begins : Char → Bool}

def Key.spelled (k : Key begins) : List Char := k.head :: k.tail

/-- The leg in source form. -/
def Leg.spelled : Leg → List Char
  | key k => '.' :: k.spelled
  | index i => '[' :: (i.digits ++ [']'])

/-- The step that the leg is taken for. -/
def Leg.segment : Leg → Segment
  | key k => .key (String.ofList k.spelled)
  | index i => .index (i.digits.filterMap digitValue?)

/-- Legs in source form, one behind the other. -/
def spelled (legs : List Leg) : List Char := legs.flatMap Leg.spelled

/-- The route in source form. -/
def Route.name (r : Route) : String := String.ofList (r.first.spelled ++ Variable.spelled r.legs)

/-- The steps of the route. -/
def Route.segments (r : Route) : List Segment :=
  .key (String.ofList r.first.spelled) :: r.legs.map Leg.segment

/-! ### The name as a token -/

/-- No further leg goes on with a key in front of it. -/
lemma ends_spelled (legs : List Leg) : Ends isKeyPart (spelled legs) := by
  rcases legs with _ | ⟨k | i, legs⟩
  · exact Source.ends_nil
  · exact Source.ends_cons.mpr (by decide)
  · exact Source.ends_cons.mpr (by decide)

lemma key?_spelled (k : Key isNamePart) (legs : List Leg) :
    Source.key? (spelled (.key k :: legs)) = some (Leg.key k).spelled :=
  Source.key?_eq_some_iff.mpr
    ⟨k.head, k.tail, spelled legs, rfl, rfl, k.head_begins, k.isKeyPart_tail, ends_spelled legs⟩

lemma index?_spelled (i : Index) (legs : List Leg) :
    Source.index? (spelled (.index i :: legs)) = some (Leg.index i).spelled :=
  Source.index?_eq_some_iff.mpr
    ⟨i.digits, spelled legs, by simp [spelled, Leg.spelled], rfl, i.ne_nil, i.isDigit_digits⟩

lemma spelled_cons (leg : Leg) (legs : List Leg) :
    spelled (leg :: legs) = leg.spelled ++ spelled legs := rfl

lemma length_spelled_pos (leg : Leg) : 0 < leg.spelled.length := by
  cases leg <;> exact Nat.succ_pos _

/-- Behind a first key, all legs belong to the path. -/
lemma pathTail_spelled (legs : List Leg) {n : Nat} (hn : (spelled legs).length ≤ n) :
    Source.pathTail n (spelled legs) = spelled legs := by
  induction legs generalizing n with
  | nil => cases n <;> rfl
  | cons leg legs ih =>
    have hlength : (spelled (leg :: legs)).length = leg.spelled.length + (spelled legs).length := by
      rw [spelled_cons, List.length_append]
    have hpos := length_spelled_pos leg
    obtain ⟨n, rfl⟩ : ∃ m, n = m + 1 := ⟨n - 1, by omega⟩
    have hrest : Source.pathTail n ((spelled (leg :: legs)).drop leg.spelled.length) =
        spelled legs := by
      rw [spelled_cons, List.drop_left, ih (by omega)]
    cases leg with
    | key k =>
      rw [Source.pathTail, key?_spelled]
      dsimp only
      rw [hrest, spelled_cons]
    | index i =>
      rw [Source.pathTail, Source.key?_eq_none_of_index? (index?_spelled i legs), index?_spelled]
      dsimp only
      rw [hrest, spelled_cons]

lemma isPath_name (r : Route) : IsPath r.name := by
  have hkey : (r.first.tail ++ spelled r.legs).takeWhile isKeyPart = r.first.tail :=
    Source.takeWhile_append_eq_iff.mpr ⟨r.first.isKeyPart_tail, ends_spelled r.legs⟩
  rw [IsPath, Route.name, String.toList_ofList, Key.spelled, List.cons_append, Source.identifier?,
    if_pos r.first.head_begins]
  dsimp only
  rw [hkey, List.length_cons, Nat.add_sub_cancel, List.drop_left,
    pathTail_spelled r.legs (by simp), List.cons_append]

/-- **A route in braces is one identifier.** -/
lemma tokenize_slotText (r : Route) :
    (tokenize (slotText r.name)).map (fun t => (t.kind, t.value)) =
      [(.slotOpen, none), (.identifier, some r.name), (.slotClose, none), (.endOfInput, none)] := by
  have hsource : (slotText r.name).toList =
      '\x7b' :: '\x7b' :: (r.name.toList ++ ['\x7d', '\x7d']) := by
    simp [slotText]
  obtain ⟨u, p, hopen⟩ : ∃ u p, Source.scan .text
      ⟨.origin, '\x7b' :: '\x7b' :: (r.name.toList ++ ['\x7d', '\x7d'])⟩ =
        ⟨.slotOpen, "\x7b\x7b", .origin, none⟩ ::
          Source.scan (.slot u none) ⟨p, r.name.toList ++ ['\x7d', '\x7d']⟩ :=
    ⟨_, _, Source.scan_step rfl rfl⟩
  have hname := Source.slotStep_of_isPath (isPath_name r) u none p ['\x7d', '\x7d']
    (Source.ends_cons.mpr (by decide)) rfl rfl
  obtain ⟨q, hclose⟩ : ∃ q, Source.scan (.slot u none)
      ⟨p.advance r.name.toList, ['\x7d', '\x7d']⟩ =
        ⟨.slotClose, "\x7d\x7d", p.advance r.name.toList, none⟩ :: Source.scan .text ⟨q, []⟩ :=
    ⟨_, Source.scan_step rfl rfl⟩
  rw [tokenize, hsource, hopen, Source.scan_step rfl hname, hclose, Source.scan_finished rfl]
  rfl

/-! ### The name taken apart -/

/-- The characters of keys end no key. -/
lemma isPlain_of_isKeyPart {c : Char} (h : isKeyPart c = true) : isPlain c = true := by
  rcases Bool.or_eq_true_iff.mp h with h | h
  · exact Source.forall_isNamePart (P := fun c => isPlain c = true) (by decide) h
  · obtain rfl : c = '-' := by simpa using h
    decide

lemma index?_eq_none {c : Char} (h : isPlain c = true) (cs : List Char) :
    Source.index? (c :: cs) = none := by
  unfold Source.index?
  split
  · rename_i heq
    obtain ⟨rfl, -⟩ := List.cons.inj heq
    exact absurd h (by decide)
  · rfl

/-- A key is taken up to where the next leg begins. -/
lemma segmentsFrom_key (k : Key begins) (hhead : isPlain k.head = true) (legs : List Leg)
    (n : Nat) : segmentsFrom (n + 1) (k.spelled ++ spelled legs) =
      .key (String.ofList k.spelled) :: segmentsFrom n (spelled legs) := by
  have htail : ∀ c ∈ k.tail, isPlain c = true := fun c hc =>
    isPlain_of_isKeyPart (k.isKeyPart_tail c hc)
  have hends : Ends isPlain (spelled legs) := by
    rcases legs with _ | ⟨l | i, legs⟩
    · exact Source.ends_nil
    · exact Source.ends_cons.mpr (by decide)
    · exact Source.ends_cons.mpr (by decide)
  have htake : (k.tail ++ spelled legs).takeWhile isPlain = k.tail :=
    Source.takeWhile_append_eq_iff.mpr ⟨htail, hends⟩
  have hdrop : (k.tail ++ spelled legs).dropWhile isPlain = spelled legs := by
    have hsplit := List.takeWhile_append_dropWhile (p := isPlain) (l := k.tail ++ spelled legs)
    rwa [htake, List.append_cancel_left_eq] at hsplit
  rw [Key.spelled, List.cons_append, segmentsFrom, index?_eq_none hhead]
  dsimp only
  rw [if_pos hhead, htake, hdrop]

lemma segmentsFrom_index {cs w : List Char} (h : Source.index? cs = some w) (n : Nat) :
    segmentsFrom (n + 1) cs =
      .index ((w.drop 1).dropLast.filterMap digitValue?) :: segmentsFrom n (cs.drop w.length) := by
  cases cs with
  | nil => cases h
  | cons c cs => rw [segmentsFrom, h]

lemma segmentsFrom_spelled (legs : List Leg) {n : Nat} (hn : (spelled legs).length ≤ n) :
    segmentsFrom n (spelled legs) = legs.map Leg.segment := by
  induction legs generalizing n with
  | nil => cases n <;> rfl
  | cons leg legs ih =>
    rw [spelled_cons, List.length_append] at hn
    cases leg with
    | key k =>
      rw [Leg.spelled, Key.spelled, List.length_cons, List.length_cons] at hn
      obtain ⟨n, rfl⟩ : ∃ m, n = m + 2 := ⟨n - 2, by omega⟩
      have hhead := isPlain_of_isKeyPart (Bool.or_eq_true_iff.mpr (.inl k.head_begins))
      -- the dot in front belongs to no segment and is skipped
      have hdot : segmentsFrom (n + 2) (spelled (.key k :: legs)) =
          segmentsFrom (n + 1) (k.spelled ++ spelled legs) := rfl
      rw [hdot, segmentsFrom_key k hhead, ih (by omega)]
      rfl
    | index i =>
      have hpos := length_spelled_pos (.index i)
      obtain ⟨n, rfl⟩ : ∃ m, n = m + 1 := ⟨n - 1, by omega⟩
      rw [segmentsFrom_index (index?_spelled i legs), spelled_cons, List.drop_left, ih (by omega)]
      simp [Leg.spelled, Leg.segment]

lemma segments_name (r : Route) : segments r.name = r.segments := by
  have hhead : isPlain r.first.head = true := by
    rcases Bool.or_eq_true_iff.mp r.first.head_begins with h | h
    · exact isPlain_of_isKeyPart (Bool.or_eq_true_iff.mpr
        (.inl (Source.isNamePart_of_isNameStart h)))
    · obtain h : r.first.head = '@' := by simpa using h
      rw [h]
      decide
  have hlength : r.name.length = r.first.tail.length + (spelled r.legs).length + 1 := by
    rw [← String.length_toList, Route.name, String.toList_ofList, Key.spelled, List.length_append,
      List.length_cons]
    omega
  rw [segments, hlength, Route.name, String.toList_ofList, segmentsFrom_key r.first hhead,
    segmentsFrom_spelled r.legs (by omega)]
  rfl

/-! ### Steps through values -/

/-- A segment leads from one value into another: a key into a mapping that has it, an index into a
sequence that is longer. -/
inductive Enters : Value → Segment → Value → Prop
  | dict {before rest : List (Value × Value)} {name : String} {w : Value}
      (h : ∀ e ∈ before, e.1 ≠ .text name) :
      Enters (.dict (before ++ (.text name, w) :: rest)) (.key name) w
  | list {xs : List Value} {digits : List Nat} (h : Number.digitsValue digits < xs.length) :
      Enters (.list xs) (.index digits) xs[Number.digitsValue digits]
  | tuple {xs : List Value} {digits : List Nat} (h : Number.digitsValue digits < xs.length) :
      Enters (.tuple xs) (.index digits) xs[Number.digitsValue digits]
  | bytes {bs : List UInt8} {digits : List Nat} (h : Number.digitsValue digits < bs.length) :
      Enters (.bytes bs) (.index digits) (.int bs[Number.digitsValue digits].toNat)

/-- A path leads from one value to another, step by step. -/
inductive Reaches : Value → List Segment → Value → Prop
  | nil (v : Value) : Reaches v [] v
  | cons {v w u : Value} {segment : Segment} {path : List Segment} (h : Enters v segment w)
      (rest : Reaches w path u) : Reaches v (segment :: path) u

/-- No index of the path has too many digits to be read. -/
def Readable (path : List Segment) : Prop :=
  ∀ digits, .index digits ∈ path → digits.length ≤ ValueFault.digitLimit

variable {v w u : Value} {segment : Segment} {path : List Segment}

lemma readable_cons : Readable (segment :: path) ↔ Readable [segment] ∧ Readable path := by
  simp [Readable, or_imp, forall_and]

lemma not_same_text {k : Value} {s : String} : k.same (.text s) = false ↔ k ≠ .text s := by
  rw [← Bool.not_eq_true, Value.same_text]

lemma enters_key {name : String} : Enters v (.key name) w ↔ v.field? name = some w := by
  constructor
  · intro h
    cases h with
    | @dict before rest _ _ h =>
      have hfind : (before ++ (.text name, w) :: rest).find? (fun e => e.1.same (.text name)) =
          some (.text name, w) := by
        refine List.find?_eq_some_iff_append.mpr ⟨Value.same_text.mpr rfl, before, rest, rfl, ?_⟩
        simpa only [Bool.not_eq_true', not_same_text] using h
      rw [Value.field?, Value.named?, Value.entry?, hfind]
      rfl
  · intro h
    unfold Value.field? at h
    split at h
    · obtain ⟨⟨key, w'⟩, hfind, rfl⟩ := Option.map_eq_some_iff.mp h
      obtain ⟨hkey, before, rest, rfl, hbefore⟩ := List.find?_eq_some_iff_append.mp hfind
      obtain rfl := Value.same_text.mp hkey
      exact .dict (by simpa only [Bool.not_eq_true', not_same_text] using hbefore)
    · cases h

lemma enters_index {digits : List Nat} :
    Enters v (.index digits) w ↔ item? v (Number.digitsValue digits) = some w := by
  constructor
  · intro h
    cases h with
    | list h | tuple h => exact List.getElem?_eq_getElem h
    | bytes h => rw [item?, List.getElem?_eq_getElem h, Option.map_some]
  · intro h
    unfold item? at h
    split at h
    · obtain ⟨hlt, rfl⟩ := List.getElem?_eq_some_iff.mp h
      exact .list hlt
    · obtain ⟨hlt, rfl⟩ := List.getElem?_eq_some_iff.mp h
      exact .tuple hlt
    · obtain ⟨b, hb, rfl⟩ := Option.map_eq_some_iff.mp h
      obtain ⟨hlt, rfl⟩ := List.getElem?_eq_some_iff.mp hb
      exact .bytes hlt
    · cases h

lemma step_key (name : String) : step v (.key name) = .ok (v.field? name) := rfl

lemma step_index {digits : List Nat} (h : digits.length ≤ ValueFault.digitLimit) :
    step v (.index digits) = .ok (item? v (Number.digitsValue digits)) := by
  rw [step, position, if_neg (Nat.not_lt.mpr h)]
  rfl

/-- A segment that can be read leads where a step leads. -/
lemma step_of_readable (h : Readable [segment]) :
    ∃ o, step v segment = .ok o ∧ ∀ w, o = some w ↔ Enters v segment w := by
  cases segment with
  | key name => exact ⟨_, step_key name, fun w => enters_key.symm⟩
  | index digits =>
    exact ⟨_, step_index (h digits List.mem_cons_self), fun w => enters_index.symm⟩

lemma readable_of_step {o : Option Value} (h : step v segment = .ok o) : Readable [segment] := by
  intro digits hmem
  obtain rfl := List.mem_singleton.mp hmem
  by_contra! hlong
  rw [step_overlong hlong] at h
  cases h

/-- A step is possible exactly if the segment leads somewhere. -/
lemma step_some_iff : step v segment = .ok (some w) ↔ Readable [segment] ∧ Enters v segment w := by
  constructor
  · intro h
    obtain ⟨o, ho, henters⟩ := step_of_readable (v := v) (readable_of_step h)
    refine ⟨readable_of_step h, (henters w).mp ?_⟩
    exact Except.ok.inj (ho.symm.trans h)
  · rintro ⟨hread, h⟩
    obtain ⟨o, ho, henters⟩ := step_of_readable (v := v) hread
    rw [ho, (henters w).mpr h]

lemma step_none_iff :
    step v segment = .ok none ↔ Readable [segment] ∧ ∀ w, ¬ Enters v segment w := by
  constructor
  · intro h
    obtain ⟨o, ho, henters⟩ := step_of_readable (v := v) (readable_of_step h)
    obtain rfl := Except.ok.inj (ho.symm.trans h)
    exact ⟨readable_of_step h, fun w hw => nomatch (henters w).mpr hw⟩
  · rintro ⟨hread, h⟩
    obtain ⟨o, ho, henters⟩ := step_of_readable (v := v) hread
    rw [ho, Option.eq_none_iff_forall_ne_some.mpr fun w hw => h w ((henters w).mp hw)]

/-- Where an index is written as a number, the step is to the item at that number. -/
lemma enters_ofNat {n : Nat} : Enters v (Leg.index (.ofNat n)).segment w ↔ item? v n = some w := by
  have hdigits : (Nat.toDigits 10 n).filterMap digitValue? =
      (Nat.toDigits 10 n).map (·.toNat - 48) := by
    rw [← List.filterMap_eq_map]
    exact List.filterMap_congr fun c hc =>
      Text.digitValue?_of_isAsciiDigit (Json.allDigits_toDigits n c hc)
  rw [Leg.segment, Index.ofNat, enters_index, hdigits, Number.digitsValue_digits,
    Json.digitsOf_toDigits]

/-! ### Where a path leads -/

lemma reaches_nil : Reaches v [] u ↔ u = v := by
  constructor
  · intro h
    cases h
    rfl
  · rintro rfl
    exact .nil _

lemma reaches_cons :
    Reaches v (segment :: path) u ↔ ∃ w, Enters v segment w ∧ Reaches w path u := by
  constructor
  · intro h
    cases h with
    | cons h rest => exact ⟨_, h, rest⟩
  · rintro ⟨w, h, rest⟩
    exact .cons h rest

/-- Following a path finds the value that it leads to. -/
lemma follow_some_iff : follow v path = .ok (some u) ↔ Readable path ∧ Reaches v path u := by
  induction path generalizing v with
  | nil => simp [follow, reaches_nil, Readable, eq_comm]
  | cons segment path ih =>
    rw [readable_cons, reaches_cons]
    constructor
    · intro h
      rcases hs : step v segment with f | _ | w
      · rw [follow_cons_error hs] at h
        cases h
      · rw [follow_cons_none hs] at h
        cases h
      · rw [follow_cons_some hs] at h
        obtain ⟨hread, henters⟩ := step_some_iff.mp hs
        obtain ⟨hpath, hreach⟩ := ih.mp h
        exact ⟨⟨hread, hpath⟩, w, henters, hreach⟩
    · rintro ⟨⟨hread, hpath⟩, w, henters, hreach⟩
      rw [follow_cons_some (step_some_iff.mpr ⟨hread, henters⟩)]
      exact ih.mpr ⟨hpath, hreach⟩

/-- The path leads to a step that is not possible, all indexes up to there being readable. -/
def BreaksOff (v : Value) (path : List Segment) : Prop :=
  ∃ way segment rest w, path = way ++ segment :: rest ∧ Readable (way ++ [segment]) ∧
    Reaches v way w ∧ ∀ u, ¬ Enters w segment u

lemma not_breaksOff_nil : ¬ BreaksOff v [] := by
  rintro ⟨way, segment, rest, w, h, -⟩
  exact absurd h.symm (by simp)

/-- It does so at its first step or behind it. -/
lemma breaksOff_cons : BreaksOff v (segment :: path) ↔
    step v segment = .ok none ∨ ∃ w, step v segment = .ok (some w) ∧ BreaksOff w path := by
  constructor
  · rintro ⟨way, last, rest, u, hpath, hread, hreach, hstuck⟩
    rcases way with _ | ⟨head, way⟩
    · obtain ⟨rfl, rfl⟩ := List.cons.inj hpath
      obtain rfl := reaches_nil.mp hreach
      exact .inl (step_none_iff.mpr ⟨hread, hstuck⟩)
    · obtain ⟨rfl, rfl⟩ := List.cons.inj hpath
      obtain ⟨w, henters, hreach⟩ := reaches_cons.mp hreach
      obtain ⟨hhead, hread⟩ := readable_cons.mp hread
      exact .inr ⟨w, step_some_iff.mpr ⟨hhead, henters⟩, way, last, rest, u, rfl, hread, hreach,
        hstuck⟩
  · rintro (hs | ⟨w, hs, way, last, rest, u, rfl, hread, hreach, hstuck⟩)
    · obtain ⟨hread, hstuck⟩ := step_none_iff.mp hs
      exact ⟨[], segment, path, v, rfl, hread, .nil v, hstuck⟩
    · obtain ⟨hhead, henters⟩ := step_some_iff.mp hs
      exact ⟨segment :: way, last, rest, u, rfl, readable_cons.mpr ⟨hhead, hread⟩,
        .cons henters hreach, hstuck⟩

/-- Following a path finds nothing if it breaks off. -/
lemma follow_none_iff : follow v path = .ok none ↔ BreaksOff v path := by
  induction path generalizing v with
  | nil => simp [follow, not_breaksOff_nil]
  | cons segment path ih =>
    rw [breaksOff_cons]
    rcases hs : step v segment with f | _ | w
    · simp [follow_cons_error hs]
    · simp [follow_cons_none hs]
    · simp [follow_cons_some hs, ih]

lemma blocked_iff {k : Nat} : Blocked v path k ↔ ∃ way digits rest w,
    path = way ++ .index digits :: rest ∧ Readable way ∧ Reaches v way w ∧
      digits.length = k ∧ ValueFault.digitLimit < k := by
  simp only [Blocked, follow_some_iff, and_assoc]

/-- What a path comes to from a value on. -/
structure Leads (v : Value) (path : List Segment) (outcome : Except ValueFault (Option Value)) :
    Prop where
  found (u : Value) : outcome = .ok (some u) ↔ Readable path ∧ Reaches v path u
  missing : outcome = .ok none ↔ BreaksOff v path
  fails (fault : ValueFault) : outcome = .error fault ↔ ∃ way digits rest w,
    path = way ++ .index digits :: rest ∧ Readable way ∧ Reaches v way w ∧
      ValueFault.digitLimit < digits.length ∧ fault = .digitsTooLong digits.length
  /-- Where all indexes can be read, nothing but an impossible step is in the way. -/
  readable (h : Readable path) : (∃ u, outcome = .ok (some u) ∧ Reaches v path u) ∨
    outcome = .ok none ∧ ∀ u, ¬ Reaches v path u

lemma leads_follow (v : Value) (path : List Segment) : Leads v path (follow v path) where
  found u := follow_some_iff
  missing := follow_none_iff
  fails fault := by
    rw [follow_error_iff]
    constructor
    · rintro ⟨k, rfl, h⟩
      obtain ⟨way, digits, rest, w, hpath, hread, hreach, rfl, hlong⟩ := blocked_iff.mp h
      exact ⟨way, digits, rest, w, hpath, hread, hreach, hlong, rfl⟩
    · rintro ⟨way, digits, rest, w, hpath, hread, hreach, hlong, rfl⟩
      exact ⟨_, rfl, blocked_iff.mpr ⟨way, digits, rest, w, hpath, hread, hreach, rfl, hlong⟩⟩
  readable h := by
    rcases hf : follow v path with fault | _ | u
    · obtain ⟨k, -, hblocked⟩ := follow_error_iff.mp hf
      obtain ⟨digits, hmem, rfl, hlong⟩ := hblocked.overlong
      exact absurd (h digits hmem) (Nat.not_le.mpr hlong)
    · refine .inr ⟨rfl, fun u hu => ?_⟩
      rw [follow_some_iff.mpr ⟨h, hu⟩] at hf
      cases hf
    · exact .inl ⟨u, rfl, (follow_some_iff.mp hf).2⟩

/-- **Where a route leads.** In braces it is one identifier. A name that is bound as it stands has
its own value; any other is followed through the bindings from segment to segment. -/
theorem lookup_route (r : Route) (b : Bindings) :
    ((tokenize (slotText r.name)).map fun t => (t.kind, t.value)) =
        [(.slotOpen, none), (.identifier, some r.name), (.slotClose, none), (.endOfInput, none)] ∧
      (∀ v, b.find? r.name = some v → lookup r.name b = .ok (some v)) ∧
      (b.find? r.name = none → Leads (.ofBindings b) r.segments (lookup r.name b)) := by
  refine ⟨tokenize_slotText r, fun v hv => ?_, fun hnone => ?_⟩
  · rw [lookup, hv]
  · rw [lookup, hnone, segments_name]
    exact leads_follow _ _

/-- A route into a variable by an index of `n + 1` ones. -/
def onesRoute (n : Nat) : Route where
  first := ⟨'x', [], rfl, nofun⟩
  legs := [.index ⟨List.replicate (n + 1) '1', by simp,
    fun c hc => List.eq_of_mem_replicate hc ▸ rfl⟩]

/-- With a digit too many the lookup fails, although the index is not below the list's length. -/
theorem lookup_route_overlong :
    Bindings.find? [("x", .list [.int 1])] (onesRoute ValueFault.digitLimit).name = none ∧
      lookup (onesRoute ValueFault.digitLimit).name [("x", .list [.int 1])] =
        .error (.digitsTooLong (ValueFault.digitLimit + 1)) := by
  -- the number of digits stays a variable, lest they be spelled out
  obtain ⟨n, hn⟩ : ∃ n, n = ValueFault.digitLimit := ⟨_, rfl⟩
  rw [← hn]
  have hname : (onesRoute n).name ≠ "x" := by
    intro h
    have hlist := congrArg String.toList h
    rw [Route.name, String.toList_ofList] at hlist
    exact absurd (congrArg List.tail hlist) (by simp [onesRoute, Key.spelled, spelled, Leg.spelled])
  have hfind : Bindings.find? [("x", .list [.int 1])] (onesRoute n).name = none := by
    rw [Bindings.find?, List.lookup_cons, beq_false_of_ne hname]
    rfl
  have hdigits : (List.replicate (n + 1) '1').filterMap digitValue? = List.replicate (n + 1) 1 :=
    List.filterMap_replicate_of_some rfl
  refine ⟨hfind, (((lookup_route (onesRoute n) _).2.2 hfind).fails _).mpr ?_⟩
  refine ⟨[.key "x"], List.replicate (n + 1) 1, [], .list [.int 1], ?_, ?_, ?_, ?_, ?_⟩
  · rw [← hdigits]
    rfl
  · simp [Readable]
  · exact .cons (@Enters.dict [] _ _ _ (List.forall_mem_nil _)) (.nil _)
  · rw [List.length_replicate, hn]
    exact Nat.lt_succ_self _
  · rw [List.length_replicate]

end Stencil.Variable
