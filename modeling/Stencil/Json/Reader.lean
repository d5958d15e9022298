import Stencil.Value.Equal
import Stencil.Text.Search

/-!
Reading JSON into values. Numbers without a point or an exponent are integers of any size, a
later duplicate of a key wins, and the names of the numbers that are not finite are accepted.
-/

namespace Stencil.Json

/-- Why a text is not read. -/
inductive Fault where
  /-- The text is not JSON. -/
  | malformed
  /-- An integer in it has too many digits. -/
  | value (f : ValueFault)
deriving DecidableEq

def skipBlanks (cs : List Char) : List Char :=
  cs.dropWhile fun c => c == ' ' || c == '\t' || c == '\n' || c == '\r'

def hexValue? (c : Char) : Option Nat :=
  if '0' ≤ c ∧ c ≤ '9' then some (c.toNat - 48)
  else if 'a' ≤ c ∧ c ≤ 'f' then some (c.toNat - 87)
  else if 'A' ≤ c ∧ c ≤ 'F' then some (c.toNat - 55)
  else none

/-- The number that four hexadecimal digits give, and the rest. -/
def takeUnit? : List Char → Option (Nat × List Char)
  | a :: b :: c :: d :: cs => do
    let a ← hexValue? a
    let b ← hexValue? b
    let c ← hexValue? c
    let d ← hexValue? d
    return (((a * 16 + b) * 16 + c) * 16 + d, cs)
  | _ => none

/-- The character of a one-letter escape. -/
def escape? : Char → Option Char
  | '"' => some '"'
  | '\\' => some '\\'
  | '/' => some '/'
  | 'b' => some (Char.ofNat 8)
  | 'f' => some (Char.ofNat 12)
  | 'n' => some '\n'
  | 'r' => some '\r'
  | 't' => some '\t'
  | _ => none

/-- One character of a string behind its opening quote, and the rest: `none` inside for the
closing quote. Two escapes that form a surrogate pair are one character. -/
def takeChar? : List Char → Option (Option Char × List Char)
  | '"' :: cs => some (none, cs)
  | '\\' :: 'u' :: cs => do
    let (hi, rest) ← takeUnit? cs
    if 0xd800 ≤ hi ∧ hi < 0xdc00 then
      match rest with
      | '\\' :: 'u' :: more =>
        match takeUnit? more with
        | some (lo, after) =>
          if 0xdc00 ≤ lo ∧ lo < 0xe000 then
            return (some (Char.ofNat (0x10000 + (hi - 0xd800) * 0x400 + (lo - 0xdc00))), after)
          else return (some '\ufffd', rest)
        | none => return (some '\ufffd', rest)
      | _ => return (some '\ufffd', rest)
    else if 0xdc00 ≤ hi ∧ hi < 0xe000 then return (some '\ufffd', rest)
    else return (some (Char.ofNat hi), rest)
  | '\\' :: c :: cs => (escape? c).map fun e => (some e, cs)
  | c :: cs => if c.toNat < 32 ∨ c == '\\' then none else some (some c, cs)
  | [] => none

/-- The characters of a string behind its opening quote, put in front of the reversed `acc`, and
the rest. -/
def takeString? : (fuel : Nat) → (acc cs : List Char) → Option (String × List Char)
  | 0, _, _ => none
  | n + 1, acc, cs =>
    match takeChar? cs with
    | none => none
    | some (none, rest) => some (String.ofList acc.reverse, rest)
    | some (some c, rest) => takeString? n (c :: acc) rest

def isAsciiDigit (c : Char) : Bool := '0' ≤ c ∧ c ≤ '9'

def digitsOf (cs : List Char) : Nat := cs.foldl (fun n c => 10 * n + (c.toNat - 48)) 0

/-- The digits behind a point, if there is a point with a digit behind it, and the rest. -/
def takeFraction (cs : List Char) : Option (List Char) × List Char :=
  match cs with
  | '.' :: rest =>
    let ds := rest.takeWhile isAsciiDigit
    if ds.isEmpty then (none, cs) else (some ds, rest.dropWhile isAsciiDigit)
  | _ => (none, cs)

/-- The exponent, if there is a mark with digits behind it, and the rest. -/
def takeExponent (cs : List Char) : Option Int × List Char :=
  match cs with
  | e :: rest =>
    if e == 'e' || e == 'E' then
      let (negative, body) := Number.takeSign rest
      let ds := body.takeWhile isAsciiDigit
      if ds.isEmpty then (none, cs)
      else
        let n : Int := digitsOf ds
        (some (if negative then -n else n), body.dropWhile isAsciiDigit)
    else (none, cs)
  | [] => (none, cs)

/-- A minus sign, if there is one, and the rest. -/
def takeMinus : List Char → Bool × List Char
  | '-' :: cs => (true, cs)
  | cs => (false, cs)

/-- The digits that a number begins with. A zero in front stands alone. -/
def wholeDigits : List Char → List Char
  | '0' :: _ => ['0']
  | cs => cs.takeWhile isAsciiDigit

/-- The number with the given parts, an integer if it has neither a fraction nor an exponent. -/
def numberOf (negative : Bool) (whole : List Char) :
    Option (List Char) → Option Int → Except Fault Value
  | none, none =>
    if ValueFault.digitLimit < whole.length then .error (.value (.digitsTooLong whole.length))
    else
      let n : Int := digitsOf whole
      .ok (.int (if negative then -n else n))
  | fraction, exponent =>
    let f := fraction.getD []
    .ok (.float (Number.ofDecimal negative (digitsOf (whole ++ f)) (exponent.getD 0 - f.length)))

/-- A number, and the rest. -/
def takeNumber (cs : List Char) : Except Fault (Value × List Char) :=
  let (negative, body) := takeMinus cs
  let whole := wholeDigits body
  if whole.isEmpty then .error .malformed
  else
    let (fraction, rest) := takeFraction (body.drop whole.length)
    let (exponent, rest) := takeExponent rest
    (numberOf negative whole fraction exponent).map fun v => (v, rest)

/-- The fixed words and the numbers that are not finite. -/
def literals : List (List Char × Value) :=
  [("null".toList, .null), ("true".toList, .bool true), ("false".toList, .bool false),
   ("NaN".toList, .float .nan), ("Infinity".toList, .float (.infinite false)),
   ("-Infinity".toList, .float (.infinite true))]

def takeLiteral? (cs : List Char) : Option (Value × List Char) :=
  literals.findSome? fun (w, v) => (Text.dropLead? w cs).map fun rest => (v, rest)

mutual

/-- A value at the start of the characters, and the rest. -/
def takeValue : (fuel : Nat) → List Char → Except Fault (Value × List Char)
  | 0, _ => .error .malformed
  | n + 1, cs =>
    match cs with
    | '"' :: rest =>
      match takeString? (rest.length + 1) [] rest with
      | some (s, rest) => .ok (.text s, rest)
      | none => .error .malformed
    | '[' :: rest =>
      match skipBlanks rest with
      | ']' :: rest => .ok (.list [], rest)
      | rest => takeItems n [] rest
    | '\x7b' :: rest =>
      match skipBlanks rest with
      | '\x7d' :: rest => .ok (.dict [], rest)
      | rest => takeEntries n [] rest
    | cs =>
      match takeLiteral? cs with
      | some r => .ok r
      | none => takeNumber cs

/-- The items of a list up to its closing bracket, behind the reversed `acc`. -/
def takeItems : (fuel : Nat) → List Value → List Char → Except Fault (Value × List Char)
  | 0, _, _ => .error .malformed
  | n + 1, acc, cs => do
    let (v, rest) ← takeValue n cs
    match skipBlanks rest with
    | ']' :: rest => .ok (.list (v :: acc).reverse, rest)
    | ',' :: rest => takeItems n (v :: acc) (skipBlanks rest)
    | _ => .error .malformed

/-- The entries of an object up to its closing brace, behind the reversed `acc`. -/
def takeEntries : (fuel : Nat) → List (Value × Value) → List Char →
    Except Fault (Value × List Char)
  | 0, _, _ => .error .malformed
  | n + 1, acc, cs =>
    match cs with
    | '"' :: rest =>
      match takeString? (rest.length + 1) [] rest with
      | none => .error .malformed
      | some (key, rest) =>
        match skipBlanks rest with
        | ':' :: rest => do
          let (v, rest) ← takeValue n (skipBlanks rest)
          match skipBlanks rest with
          | '\x7d' :: rest => .ok (Value.dictOf ((.text key, v) :: acc).reverse, rest)
          | ',' :: rest => takeEntries n ((.text key, v) :: acc) (skipBlanks rest)
          | _ => .error .malformed
        | _ => .error .malformed
    | _ => .error .malformed

end

/-- The value that a whole text is, blanks around it allowed. -/
def read (s : String) : Except Fault Value := do
  let cs := s.toList
  let (v, rest) ← takeValue (2 * cs.length + 2) (skipBlanks cs)
  if (skipBlanks rest).isEmpty then .ok v else .error .malformed

end Stencil.Json
