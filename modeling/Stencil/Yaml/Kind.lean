import Stencil.Calendar
import Stencil.Text.Search
import Stencil.Text.Quoted
import Stencil.Value.Basic
import Stencil.Yaml.Tree

/-!
Kinds of scalars: what a plain scalar looks like, and the value that a text of some kind has.
-/

namespace Stencil.Yaml

/-- The kinds of nodes that have a meaning. -/
inductive Kind where
  | null
  | bool
  | int
  | float
  | binary
  | timestamp
  | text
  | pairs
  | sequence
  | mapping
  /-- The key that stands for the entries of another mapping. -/
  | merge
  /-- The key that stands for a mapping's own value. -/
  | value
deriving DecidableEq

namespace Kind

/-- What the tags of the language begin with. -/
def lead : String := "tag:yaml.org,2002:"

def words : List (String × Kind) :=
  [("null", null), ("bool", bool), ("int", int), ("float", float), ("binary", binary),
   ("timestamp", timestamp), ("str", text), ("omap", pairs), ("pairs", pairs),
   ("seq", sequence), ("map", mapping)]

/-- The kind that a tag names. -/
def ofTag? (tag : String) : Option Kind :=
  (Text.dropLead? lead.toList tag.toList).bind fun w => words.lookup (String.ofList w)

end Kind

/-! ### Numbers -/

/-- Without a sign in front. -/
def unsigned : List Char → List Char
  | '-' :: cs => cs
  | '+' :: cs => cs
  | cs => cs

def isDigitOrLine (c : Char) : Bool := c.isDigit || c == '_'

/-- Parts behind colons that are numbers below sixty; at least one. -/
def sixties : (fuel : Nat) → List Char → Option (List Char)
  | 0, _ => none
  | n + 1, ':' :: cs =>
    let ds := cs.takeWhile Char.isDigit
    let rest := cs.dropWhile Char.isDigit
    let fits := ds.length == 1 || (ds.length == 2 && ds.headD '9' < '6')
    if !fits then none
    else if rest.head? == some ':' then sixties n rest
    else some rest
  | _ + 1, _ => none

/-- A text looks like an integer. -/
def looksInt (cs : List Char) : Bool :=
  match unsigned cs with
  | '0' :: 'b' :: ds => !ds.isEmpty && ds.all fun c => c == '0' || c == '1' || c == '_'
  | '0' :: 'x' :: ds => !ds.isEmpty && ds.all fun c => (Json.hexValue? c).isSome || c == '_'
  | '0' :: ds => ds.all fun c => ('0' ≤ c && c ≤ '7') || c == '_'
  | c :: cs =>
    if c.isDigit then
      let rest := cs.dropWhile isDigitOrLine
      rest.isEmpty || sixties rest.length rest == some []
    else false
  | [] => false

/-- Nothing, or an exponent with its sign. -/
def isExponent : List Char → Bool
  | [] => true
  | e :: s :: ds => (e == 'e' || e == 'E') && (s == '-' || s == '+') && !ds.isEmpty &&
      ds.all Char.isDigit
  | _ => false

/-- A text looks like a number with a point. -/
def looksFloat (cs : List Char) : Bool :=
  let body := unsigned cs
  match body with
  | '.' :: rest =>
    let word := String.ofList rest
    ["inf", "Inf", "INF"].contains word ||
      (body == cs && (["nan", "NaN", "NAN"].contains word ||
        (rest.head?.any Char.isDigit && isExponent (rest.dropWhile isDigitOrLine))))
  | c :: r =>
    if c.isDigit then
      let rest := r.dropWhile isDigitOrLine
      match rest with
      | '.' :: rest => isExponent (rest.dropWhile isDigitOrLine)
      | rest =>
        match sixties rest.length rest with
        | some ('.' :: rest) => rest.all isDigitOrLine
        | _ => false
    else false
  | [] => false

def badIndex {α : Type} : Except Fault α :=
  .error (.unreadable "IndexError" "string index out of range")

def badLiteral {α : Type} (radix : Nat) (cs : List Char) : Except Fault α :=
  .error (.unreadable "ValueError" ("invalid literal for int() with base " ++
    Number.natText radix ++ ": " ++ Text.quoted (String.ofList cs)))

/-- The value of digits in some radix. -/
def radixInt (radix : Nat) (cs : List Char) : Except Fault Int :=
  let ds := cs.map Json.hexValue?
  if cs.isEmpty || ds.any (fun d => d.isNone || radix ≤ d.getD 0) then badLiteral radix cs
  else .ok (ds.foldl (fun n d => n * radix + d.getD 0) 0 : Nat)

/-- The value of a decimal integer. -/
def decimalInt (cs : List Char) : Except Fault Int :=
  let count := (cs.filter Text.isDigit).length
  match Number.readInt? (String.ofList cs) with
  | some n =>
    if ValueFault.digitLimit < count then
      .error (.unreadable "ValueError" (ValueFault.digitsTooLong count).message)
    else .ok n
  | none => badLiteral 10 cs

/-- The value of an integer with a sign, a mark for its radix, or parts of sixty. -/
def readInt (s : String) : Except Fault Int := do
  let cs := s.toList.filter (· != '_')
  if cs.isEmpty then badIndex
  let sign : Int := if cs.head? == some '-' then -1 else 1
  let cs := unsigned cs
  let magnitude ← match cs with
    | [] => badIndex
    | ['0'] => pure 0
    | '0' :: 'b' :: ds => radixInt 2 ds
    | '0' :: 'x' :: ds => radixInt 16 ds
    | '0' :: _ => radixInt 8 cs
    | _ =>
      if cs.contains ':' then do
        let parts ← (Text.splitBy (· == ':') cs).mapM decimalInt
        pure (parts.foldl (fun n p => n * 60 + p) 0)
      else decimalInt cs
  return sign * magnitude

def decimalDouble (cs : List Char) : Except Fault Double :=
  match Number.readDouble? (String.ofList cs) with
  | some x => .ok x
  | none => .error (.unreadable "ValueError"
      ("could not convert string to float: " ++ Text.quoted (String.ofList cs)))

/-- The sum of parts, each sixty times as much as the one behind it. -/
def sumSixties (parts : List Double) : Double :=
  (parts.reverse.foldl
    (fun (acc : Double × Int) p =>
      (Double.add acc.1 (Double.mul p (Double.ofInt acc.2)), acc.2 * 60))
    (.zero false, 1)).1

def readFloat (s : String) : Except Fault Double := do
  let cs := (s.toList.filter (· != '_')).map Char.toLower
  if cs.isEmpty then badIndex
  let negative := cs.head? == some '-'
  let cs := unsigned cs
  let turned (x : Double) := if negative then x.neg else x
  if cs == ".inf".toList then return .infinite negative
  else if cs == ".nan".toList then return .nan
  else if cs.contains ':' then
    return turned (sumSixties (← (Text.splitBy (· == ':') cs).mapM decimalDouble))
  else return turned (← decimalDouble cs)

/-! ### Truth values -/

def truthWords : List (String × Bool) :=
  [("yes", true), ("no", false), ("true", true), ("false", false), ("on", true), ("off", false)]

/-- A word in one of the three cases that count: small, capitalised, or capitals. -/
def looksBool (s : String) : Bool :=
  truthWords.any fun (w, _) => s == w || s == w.capitalize || s == w.toUpper

def readBool (s : String) : Except Fault Bool :=
  let small := String.ofList (s.toList.map Char.toLower)
  match truthWords.lookup small with
  | some b => .ok b
  | none => .error (.unreadable "KeyError" (Text.quoted small))

/-! ### Dates and times -/

/-- A time of day and where it holds: an offset in seconds, if there is one. -/
structure Clock where
  hour : Nat
  minute : Nat
  second : Nat
  microsecond : Nat
  offset : Option Int

/-- A date as written, possibly with a time. -/
structure Stamp where
  date : Date
  /-- Month and day have two digits each. -/
  wide : Bool
  clock : Option Clock

def digitsNat (ds : List Char) : Nat := Number.digitsValue (ds.map fun c => c.toNat - 48)

/-- One or two digits, or exactly two. -/
def shortNumber? (exact : Bool) (cs : List Char) : Option (List Char × List Char) :=
  let ds := (cs.takeWhile Char.isDigit).take 2
  if ds.isEmpty || (exact && ds.length != 2) then none else some (ds, cs.drop ds.length)

def after? (c : Char) : List Char → Option (List Char)
  | [] => none
  | d :: r => if c == d then some r else none

/-- The offset at the end of a time. -/
def zone? (cs : List Char) : Option (Option Int) :=
  let rest := cs.dropWhile fun c => c == ' ' || c == '\t'
  match rest with
  | [] => if cs.isEmpty then some none else none
  | ['Z'] => some (some 0)
  | s :: r =>
    if s == '+' || s == '-' then do
      let (h, r) ← shortNumber? false r
      let minutes ← match r with
        | [] => some 0
        | _ => do
          let (m, r) ← shortNumber? true (← after? ':' r)
          if r.isEmpty then some (digitsNat m) else none
      let seconds : Int := digitsNat h * 3600 + minutes * 60
      return some (if s == '-' then -seconds else seconds)
    else none

/-- The time behind a date. -/
def clock? (cs : List Char) : Option Clock := do
  let (h, r) ← shortNumber? false cs
  let (m, r) ← shortNumber? true (← after? ':' r)
  let (s, r) ← shortNumber? true (← after? ':' r)
  let fraction := match r with
    | '.' :: f => f.takeWhile Char.isDigit
    | _ => []
  let r := match r with
    | '.' :: f => f.dropWhile Char.isDigit
    | r => r
  let micro := digitsNat ((fraction ++ List.replicate 6 '0').take 6)
  return ⟨digitsNat h, digitsNat m, digitsNat s, micro, ← zone? r⟩

/-- A date, or a date and a time with `T` or blanks between them. -/
def stamp? (cs : List Char) : Option Stamp := do
  let y := cs.take 4
  if y.length != 4 || !y.all Char.isDigit then none
  let (m, r) ← shortNumber? false (← after? '-' (cs.drop 4))
  let (d, r) ← shortNumber? false (← after? '-' r)
  let date : Date := ⟨digitsNat y, digitsNat m, digitsNat d⟩
  let wide := m.length == 2 && d.length == 2
  match r with
  | [] => return ⟨date, wide, none⟩
  | c :: rest =>
    if c == 'T' || c == 't' then return ⟨date, wide, some (← clock? rest)⟩
    else if c == ' ' || c == '\t' then
      return ⟨date, wide,
        some (← clock? (rest.dropWhile fun ch => ch == ' ' || ch == '\t'))⟩
    else none

/-- A text looks like a date or a time; a date alone has months and days of two digits. -/
def looksTimestamp (cs : List Char) : Bool :=
  match stamp? cs with
  | some s => s.clock.isSome || s.wide
  | none => false

def badDate {α : Type} (message : String) : Except Fault α :=
  .error (.unreadable "ValueError" message)

def checkDate (d : Date) : Except Fault Unit :=
  if d.year < 1 then badDate ("year " ++ Number.natText d.year ++ " is out of range")
  else if d.month < 1 || 12 < d.month then badDate "month must be in 1..12"
  else if !d.exists? then badDate "day is out of range for month"
  else .ok ()

/-- An offset as a message shows it: whole days, and seconds onward from there. -/
def offsetText (seconds : Int) : String :=
  let days := seconds / 86400
  let rest := seconds % 86400
  let parts := (if days = 0 then [] else ["days=" ++ Number.intText days]) ++
    (if rest = 0 then [] else ["seconds=" ++ Number.intText rest])
  "datetime.timedelta(" ++ ", ".intercalate parts ++ ")"

def checkClock (c : Clock) : Except Fault Unit :=
  if 23 < c.hour then badDate "hour must be in 0..23"
  else if 59 < c.minute then badDate "minute must be in 0..59"
  else if 59 < c.second then badDate "second must be in 0..59"
  else .ok ()

def checkOffset : Option Int → Except Fault Unit
  | some s =>
    if 86400 ≤ s.natAbs then
      badDate ("offset must be a timedelta strictly between -timedelta(hours=24) and " ++
        "timedelta(hours=24), not " ++ offsetText s ++ ".")
    else .ok ()
  | none => .ok ()

def readTimestamp (s : String) : Except Fault Value := do
  match stamp? s.toList with
  | none => throw (.unreadable "AttributeError" "'NoneType' object has no attribute 'groupdict'")
  | some ⟨date, _, none⟩ =>
    checkDate date
    return .date date
  | some ⟨date, _, some c⟩ =>
    checkOffset c.offset
    checkDate date
    checkClock c
    return .moment ⟨date, c.hour, c.minute, c.second, c.microsecond, c.offset⟩

/-! ### Bytes -/

def sextet? (c : Char) : Option Nat :=
  if 'A' ≤ c && c ≤ 'Z' then some (c.toNat - 65)
  else if 'a' ≤ c && c ≤ 'z' then some (c.toNat - 71)
  else if '0' ≤ c && c ≤ '9' then some (c.toNat + 4)
  else if c == '+' then some 62
  else if c == '/' then some 63
  else none

/-- Bytes written with four characters for three of them; characters of other kinds do not count.
`place` tells how many characters of a group are read, `left` the bits that wait. -/
def bytesFrom? : (place pads left : Nat) → List Char → Option (List UInt8)
  | place, _, _, [] => if place = 0 then some [] else none
  | place, pads, left, c :: cs =>
    if c == '=' then
      if 2 ≤ place && 4 ≤ place + pads + 1 then some []
      else bytesFrom? place (if 2 ≤ place then pads + 1 else pads) left cs
    else
      match sextet? c with
      | none => bytesFrom? place pads left cs
      | some v =>
        let emit (n : Nat) (next left : Nat) := (bytesFrom? next 0 left cs).map (n.toUInt8 :: ·)
        match place with
        | 0 => bytesFrom? 1 0 v cs
        | 1 => emit (left * 4 + v / 16) 2 (v % 16)
        | 2 => emit (left * 16 + v / 4) 3 (v % 4)
        | _ => emit (left * 64 + v) 0 0

def readBytes (s : String) : Except Fault (List UInt8) :=
  if s.toList.any fun c => 128 ≤ c.toNat then .error (.malformed "bytes are not written in ASCII")
  else
    match bytesFrom? 0 0 0 s.toList with
    | some bs => .ok bs
    | none => .error (.malformed "bytes are cut off")

/-! ### Plain scalars -/

/-- What a plain scalar looks like. -/
def plainKind (s : String) : Kind :=
  let cs := s.toList
  if looksBool s then .bool
  else if looksFloat cs then .float
  else if looksInt cs then .int
  else if s == "<<" then .merge
  else if ["~", "null", "Null", "NULL", ""].contains s then .null
  else if looksTimestamp cs then .timestamp
  else if s == "=" then .value
  else .text

/-- The kind of a node by its tag, with `look` for one that has none. -/
def kindOf (tag : Tag) (look : Kind) (plain : Kind) : Except Fault Kind :=
  match tag with
  | .unmarked true => .ok plain
  | .unmarked false => .ok look
  | .named t =>
    match Kind.ofTag? t with
    | some k => .ok k
    | none => .error (.malformed "a tag has no meaning")

/-- The value of a scalar's text as one of a kind. -/
def scalarValue (kind : Kind) (s : String) : Except Fault Value :=
  match kind with
  | .null => .ok .null
  | .bool => (readBool s).map .bool
  | .int => (readInt s).map .int
  | .float => (readFloat s).map .float
  | .binary => (readBytes s).map .bytes
  | .timestamp => readTimestamp s
  | .text => .ok (.text s)
  | .pairs | .sequence | .mapping => .error (.malformed "a scalar is marked as a collection")
  | .merge | .value => .error (.malformed "a tag has no meaning")

end Stencil.Yaml
