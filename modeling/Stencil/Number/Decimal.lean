import Stencil.Number.Shortest
import Stencil.Text.Character

/-!
Numbers as decimal text: writing integers and doubles, and reading them back.
-/

namespace Stencil.Number

/-- The decimal digits of a natural, at least one. -/
def natText (n : Nat) : String := String.ofList (Nat.toDigits 10 n)

def intText (n : Int) : String :=
  if n < 0 then "-" ++ natText n.natAbs else natText n.natAbs

/-- The decimal digits of a natural, with zeros in front up to a width. -/
def paddedText (width n : Nat) : String :=
  let ds := Nat.toDigits 10 n
  String.ofList (List.replicate (width - ds.length) '0' ++ ds)

/-- How a double is written. -/
structure Style where
  /-- The place of the point at which the exponent form begins. -/
  positionalBelow : Int
  /-- The place of the point below which the exponent form is used again. -/
  positionalFrom : Int
  /-- The least number of digits of an exponent. -/
  exponentWidth : Nat
  nan : String
  infinite : String

/-- Positional from `1e-4` up to below `1e16`, a whole number with `.0`, and an exponent of at
least two digits. -/
def plain : Style := ⟨16, -4, 2, "nan", "inf"⟩

/-- The same with the names that data files use for the values that are no numbers. -/
def named : Style := { plain with nan := "NaN", infinite := "Infinity" }

/-- Digits with the point `place` digits from the left, given positionally. -/
def positional (ds : List Char) (place : Int) : List Char :=
  if place ≤ 0 then '0' :: '.' :: List.replicate (-place).toNat '0' ++ ds
  else
    let n := place.toNat
    if ds.length ≤ n then ds ++ List.replicate (n - ds.length) '0' ++ ['.', '0']
    else ds.take n ++ '.' :: ds.drop n

/-- Digits with one before the point, and an exponent. -/
def scientific (width : Nat) (ds : List Char) (place : Int) : List Char :=
  let k := place - 1
  let mantissa := match ds with
    | [] => []
    | [d] => [d]
    | d :: rest => d :: '.' :: rest
  mantissa ++ 'e' :: (if k < 0 then '-' else '+') :: (paddedText width k.natAbs).toList

/-- The text of a decimal, its trailing zeros left out. -/
def decimalText (style : Style) (d : Decimal) : List Char :=
  let all := Nat.toDigits 10 d.digits
  let ds := (all.reverse.dropWhile (· == '0')).reverse
  let place : Int := all.length + d.exponent
  if style.positionalFrom < place && place ≤ style.positionalBelow then positional ds place
  else scientific style.exponentWidth ds place

/-- The shortest text that reads back as the double. -/
def doubleTextIn (style : Style) : Double → String
  | .nan => style.nan
  | .infinite s => (if s then "-" else "") ++ style.infinite
  | .finite s m e _ =>
    let body := if m = 0 then ['0', '.', '0'] else decimalText style (shortestDecimal m e)
    String.ofList (if s then '-' :: body else body)

def doubleText (x : Double) : String := doubleTextIn plain x

/-- The double with a fixed number of decimal places; a half goes to the even neighbour. -/
def fixedText (places : Nat) : Double → String
  | .nan => "nan"
  | .infinite s => if s then "-inf" else "inf"
  | .finite s m e _ =>
    let scaled := m * Nat.pow 10 places
    let n :=
      if 0 ≤ e then scaled * Nat.pow 2 e.toNat
      else Double.roundDiv scaled (Nat.pow 2 (-e).toNat)
    let ds := Nat.toDigits 10 n
    let ds := List.replicate (places + 1 - ds.length) '0' ++ ds
    let whole := ds.take (ds.length - places)
    let body := if places = 0 then whole else whole ++ '.' :: ds.drop (ds.length - places)
    String.ofList (if s then '-' :: body else body)

/-- The value of a run of digits, the most significant first. -/
def digitsValue (ds : List Nat) : Nat := ds.foldl (fun n d => 10 * n + d) 0

/-- Digits with single underscores between them, or `none` if the text is anything else. -/
def groupedDigits? : List Char → Option (List Nat)
  | [] => none
  | [c] => (Text.digitValue? c).map ([·])
  | c :: '_' :: cs => do return (← Text.digitValue? c) :: (← groupedDigits? cs)
  | c :: cs => do return (← Text.digitValue? c) :: (← groupedDigits? cs)

/-- A sign, if there is one, and the rest. -/
def takeSign : List Char → Bool × List Char
  | '-' :: cs => (true, cs)
  | '+' :: cs => (false, cs)
  | cs => (false, cs)

/-- An integer in decimal, blanks around it allowed. -/
def readInt? (s : String) : Option Int := do
  let (negative, cs) := takeSign (Text.trimBlanks s.toList)
  let n := digitsValue (← groupedDigits? cs)
  return if negative then -(n : Int) else n

/-- The double nearest to `digits * 10 ^ exponent`. Exponents far outside the range of doubles
are decided without computing the power. -/
def ofDecimal (negative : Bool) (digits : Nat) (exponent : Int) : Double :=
  if digits = 0 then .zero negative
  else
    let magnitude := (digitCount digits : Int) + exponent
    if 400 < magnitude then .infinite negative
    else if magnitude < -400 then .zero negative
    else if 0 ≤ exponent then .ofRatio negative (digits * Nat.pow 10 exponent.toNat) 1
    else .ofRatio negative digits (Nat.pow 10 (-exponent).toNat)

/-- The digits before an optional part that starts with the given mark; an empty run is an empty
list. -/
def optionalDigits? (cs : List Char) : Option (List Nat) :=
  if cs.isEmpty then some [] else groupedDigits? cs

/-- The exponent of a number: an optional sign and digits. -/
def readExponent? (cs : List Char) : Option Int := do
  let (negative, cs) := takeSign cs
  let n := digitsValue (← groupedDigits? cs)
  return if negative then -(n : Int) else n

/-- A number without a sign: digits with an optional point and an optional exponent. -/
def readMagnitude? (negative : Bool) (cs : List Char) : Option Double := do
  let mantissa := cs.takeWhile fun c => c != 'e' && c != 'E'
  let rest := cs.dropWhile fun c => c != 'e' && c != 'E'
  let whole := mantissa.takeWhile (· != '.')
  let hasPoint := mantissa.contains '.'
  let fraction := (mantissa.dropWhile (· != '.')).drop 1
  let ws ← optionalDigits? whole
  let fs ← if hasPoint then optionalDigits? fraction else some []
  if ws.isEmpty && fs.isEmpty then none
  else
    let k ← match rest with
      | [] => some 0
      | _ :: cs => readExponent? cs
    return ofDecimal negative (digitsValue (ws ++ fs)) (k - fs.length)

/-- A double in decimal, blanks around it allowed; the values that are no numbers go by name, in
either case. -/
def readDouble? (s : String) : Option Double :=
  let (negative, cs) := takeSign (Text.trimBlanks s.toList)
  let name := String.ofList (cs.map Char.toLower)
  if name == "inf" || name == "infinity" then some (.infinite negative)
  else if name == "nan" then some .nan
  else readMagnitude? negative cs

end Stencil.Number
