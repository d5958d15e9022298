import Stencil.Operator.Basic
import Stencil.Value.Equal
import Stencil.Text.Fold
import Stencil.Text.Case
import Stencil.Text.Search
import Stencil.Pattern.Read
import Stencil.Pattern.Search

/-!
The operators that every template has. Values of a kind that an operator is not about make it
false.
-/

namespace Stencil.Builtin

/-- A text's leading number: blanks, a sign, digits with an optional point, and an optional
exponent. -/
def leadingNumber? (cs : List Char) : Option (List Char) :=
  let blanks := cs.takeWhile Text.isBlank
  let rest := cs.dropWhile Text.isBlank
  let (sign, rest) := match rest with
    | '-' :: r => (['-'], r)
    | '+' :: r => (['+'], r)
    | r => ([], r)
  let whole := rest.takeWhile Text.isDigit
  let rest := rest.dropWhile Text.isDigit
  let (fraction, rest) := match rest with
    | '.' :: r => ('.' :: r.takeWhile Text.isDigit, r.dropWhile Text.isDigit)
    | r => ([], r)
  if whole.isEmpty && fraction.length ≤ 1 then none
  else
    let exponent := match rest with
      | e :: r =>
        if e == 'e' || e == 'E' then
          let (mark, r) := match r with
            | '-' :: r => (['-'], r)
            | '+' :: r => (['+'], r)
            | r => ([], r)
          let ds := r.takeWhile Text.isDigit
          if ds.isEmpty then [] else e :: mark ++ ds
        else []
      | [] => []
    some (blanks ++ sign ++ whole ++ fraction ++ exponent)

/-- The number that a value is taken for: numbers, and texts that start with one. -/
def number? : Value → Except ValueFault (Option Double)
  | .int n =>
    match Double.ofInt? n with
    | some x => .ok (some x)
    | none => .error .beyondDouble
  | .float x => .ok (some x)
  | .text s =>
    .ok ((leadingNumber? s.toList).bind fun cs => Number.readDouble? (String.ofList cs))
  | _ => .ok none

/-- The text that a value is taken for. -/
def text : Value → Except ValueFault String
  | .bool b => .ok (if b then "true" else "false")
  | v => v.show

/-- The text with differences of case removed. -/
def folded (v : Value) : Except ValueFault String := return Text.fold (← text v)

/-- Equality: of texts but for case, of numbers as doubles, of anything else as values. -/
def equals (v arg : Value) : Except ValueFault Bool := do
  match v with
  | .text s => return Text.fold s == (← folded arg)
  | .bool _ => return (← text v) == Text.lower (Text.strip (← text arg))
  | .int _ | .float _ =>
    let a ← number? arg
    match ← number? v, a with
    | some x, some y => return Double.eq y x
    | _, _ => return false
  | _ => return v.same arg

/-- Some item has the text. -/
def anyItem (needle : String) : List Value → Except ValueFault Bool
  | [] => .ok false
  | v :: vs => do
    if (← folded v) == needle then return true else anyItem needle vs

/-- A text inside a text, or an item of a list, but for case. -/
def contains (v arg : Value) : Except ValueFault Bool := do
  let needle ← folded arg
  match v with
  | .text s => return Text.hasText needle (Text.fold s)
  | .list xs | .tuple xs => anyItem needle xs
  | _ => return false

/-- Bound, and not empty. -/
def exists_ (v _ : Value) : Except ValueFault Bool :=
  match v with
  | .null => .ok false
  | .text s => .ok (s != "")
  | .list xs | .tuple xs => .ok !xs.isEmpty
  | .dict kvs => .ok !kvs.isEmpty
  | _ => .ok true

/-- A text in which a regular expression has a match; a malformed one has none. -/
def «matches» (v arg : Value) : Except ValueFault Bool :=
  match v, arg with
  | .text s, .text pattern =>
    match Regex.read pattern with
    | .ok r => .ok (r.foundIn s)
    | .error .hugeRepetition => .error .hugeRepetition
    | .error (.malformed ..) => .ok false
  | _, _ => .ok false

/-- Compare two values as numbers. -/
def numeric (compare : Double → Double → Bool) (v arg : Value) : Except ValueFault Bool := do
  match ← number? v, ← number? arg with
  | some x, some y => return compare x y
  | _, _ => return false

def textItems : List Value → Except ValueFault (List String)
  | [] => .ok []
  | v :: vs => do return (← text v) :: (← textItems vs)

/-- One of the options, but for case: those between the commas of a text, or those of a list. -/
def oneOf (v arg : Value) : Except ValueFault Bool := do
  let options? ← match arg with
    | .text s => pure (some ((Text.splitAt ',' s).map Text.strip))
    | .list xs | .tuple xs => some <$> textItems xs
    | _ => pure none
  match options? with
  | none => return false
  | some options =>
    let needle ← folded v
    return options.any (Text.fold · == needle)

/-- A test as a handler. -/
def handler (test : Value → Value → Except ValueFault Bool) : Handler := fun v arg =>
  match test v arg with
  | .ok b => .ok (.bool b)
  | .error f => .error (.value f)

def greater : Operator where
  name := "greater_than"
  handler := handler (numeric fun a b => Double.lt b a)
  description := "Greater than"
  example_ := "\x7b\x7bage\x7d\x7d #gt(18)"

def greaterOrEqual : Operator where
  name := "greater_than_or_equal"
  handler := handler (numeric fun a b => Double.le b a)
  description := "Greater than or equal"
  example_ := "\x7b\x7bage\x7d\x7d #gte(18)"

def less : Operator where
  name := "less_than"
  handler := handler (numeric Double.lt)
  description := "Less than"
  example_ := "\x7b\x7bcount\x7d\x7d #lt(10)"

def lessOrEqual : Operator where
  name := "less_than_or_equal"
  handler := handler (numeric Double.le)
  description := "Less than or equal"
  example_ := "\x7b\x7bcount\x7d\x7d #lte(10)"

def member : Operator where
  name := "one_of"
  handler := handler oneOf
  description := "Value is one of a comma-separated list"
  example_ := "\x7b\x7bstatus\x7d\x7d #one_of(active, pending)"

/-- The operators by name, short names included. -/
def operators : Operators :=
  [("equals",
    { name := "equals", handler := handler equals
      description := "Equality, case-insensitive for text"
      example_ := "\x7b\x7bgenre\x7d\x7d #equals(Horror)" }),
   ("contains",
    { name := "contains", handler := handler contains
      description := "Substring or list membership"
      example_ := "\x7b\x7bcompanions\x7d\x7d #contains(Shimon)" }),
   ("exists",
    { name := "exists", handler := handler exists_, kind := .unary
      description := "Defined and not empty"
      example_ := "\x7b\x7buser.preferences\x7d\x7d #exists" }),
   ("matches",
    { name := "matches", handler := handler «matches»
      description := "Regular expression search"
      example_ := "\x7b\x7bemail\x7d\x7d #matches(.*@.*)" }),
   ("greater_than", greater), ("gt", greater),
   ("greater_than_or_equal", greaterOrEqual), ("gte", greaterOrEqual),
   ("less_than", less), ("lt", less),
   ("less_than_or_equal", lessOrEqual), ("lte", lessOrEqual),
   ("one_of", member), ("in", member)]

end Stencil.Builtin

namespace Stencil.Operators

/-- An operator by name: one of `custom` before a built-in one. -/
def find? (custom : Operators) (name : String) : Option Operator :=
  match List.lookup name custom with
  | some op => some op
  | none => List.lookup name Builtin.operators

end Stencil.Operators
