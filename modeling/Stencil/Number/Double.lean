/-!
Binary floating-point numbers of double precision, as exact integers.

A finite number is a sign, a significand below `2 ^ 53` and an exponent of two; the canonical
form makes the three unique for each number, so equality of the data is equality of the number
and its sign. Every operation computes exactly and rounds once, to the nearest number and to the
even significand halfway between two.
-/

namespace Stencil

/-- The significand has 53 bits, or fewer at the least exponent. -/
def Double.Canonical (significand : Nat) (exponent : Int) : Prop :=
  significand < Nat.pow 2 53 ∧ -1074 ≤ exponent ∧ exponent ≤ 971 ∧
    (Nat.pow 2 52 ≤ significand ∨ exponent = -1074)

instance (m : Nat) (e : Int) : Decidable (Double.Canonical m e) := by
  unfold Double.Canonical; infer_instance

/-- A number of double precision: `significand * 2 ^ exponent` with a sign, an infinity, or the
result of an operation that has none. -/
inductive Double where
  | nan
  | infinite (negative : Bool)
  | finite (negative : Bool) (significand : Nat) (exponent : Int)
      (canonical : Double.Canonical significand exponent)
deriving DecidableEq

namespace Double

def zero (negative : Bool) : Double := .finite negative 0 (-1074) (by decide)

instance : Inhabited Double := ⟨zero false⟩

/-- The number with the given fields if they are canonical, else the infinity of that sign. -/
def ofFields (negative : Bool) (m : Nat) (e : Int) : Double :=
  if h : Canonical m e then .finite negative m e h else .infinite negative

/-- The quotient of two naturals, the divisor not zero, rounded to the nearest natural; a half
goes to the even neighbour. -/
def roundDiv (num den : Nat) : Nat :=
  let q := num / den
  let r := num % den
  if 2 * r < den then q
  else if den < 2 * r then q + 1
  else q + q % 2

/-- The exponent at which `num / den` has a significand of 53 bits before rounding, or the least
exponent. -/
def exponentFor (num den : Nat) : Int :=
  let e : Int := (Nat.log2 num : Int) - Nat.log2 den - 52
  let short :=
    if 0 ≤ e then num < den * Nat.pow 2 (52 + e.toNat)
    else num * Nat.pow 2 (-e).toNat < den * Nat.pow 2 52
  max (-1074) (if short then e - 1 else e)

/-- The double nearest to `num / den`, where `den` is not zero. -/
def ofRatio (negative : Bool) (num den : Nat) : Double :=
  if num = 0 then zero negative
  else
    let e := exponentFor num den
    let m :=
      if 0 ≤ e then roundDiv num (den * Nat.pow 2 e.toNat)
      else roundDiv (num * Nat.pow 2 (-e).toNat) den
    if m = Nat.pow 2 53 then ofFields negative (Nat.pow 2 52) (e + 1) else ofFields negative m e

/-- The double nearest to an integer, infinite when the integer is too large. -/
def ofInt (n : Int) : Double := ofRatio (n < 0) n.natAbs 1

/-- The double nearest to an integer, if it is finite. -/
def ofInt? (n : Int) : Option Double :=
  match ofInt n with
  | .finite s m e h => some (.finite s m e h)
  | _ => none

def isFinite : Double → Bool
  | .finite .. => true
  | _ => false

def isNaN : Double → Bool
  | .nan => true
  | _ => false

/-- The sign bit; the sign of a number that is none counts as positive. -/
def isNegative : Double → Bool
  | .nan => false
  | .infinite s => s
  | .finite s .. => s

def isZero : Double → Bool
  | .finite _ m _ _ => m == 0
  | _ => false

/-- The exact value of a finite number as a multiple of the least positive double. -/
def units? : Double → Option Int
  | .finite s m e _ =>
    let n : Int := (m * Nat.pow 2 (e + 1074).toNat : Nat)
    some (if s then -n else n)
  | _ => none

/-- The least positive double goes this often into one. -/
def unitsInOne : Nat := Nat.pow 2 1074

/-- The double nearest to a multiple of the least positive one; zero is positive. -/
def ofUnits (n : Int) : Double := ofRatio (n < 0) n.natAbs unitsInOne

/-- The place of a number in the order of all numbers; none for no number. -/
inductive Place where
  | below
  | at (units : Int)
  | above
deriving DecidableEq

namespace Place

def lt : Place → Place → Bool
  | .below, .below => false
  | .below, _ => true
  | .at _, .below => false
  | .at a, .at b => a < b
  | .at _, .above => true
  | .above, _ => false

end Place

def place? : Double → Option Place
  | .nan => none
  | .infinite true => some .below
  | .infinite false => some .above
  | .finite s m e _ =>
    let n : Int := (m * Nat.pow 2 (e + 1074).toNat : Nat)
    some (.at (if s then -n else n))

/-- The place of an integer, which need not be a double. -/
def placeOfInt (n : Int) : Place := .at (n * unitsInOne)

/-- Equality of value: the zeros are equal, and what is no number equals nothing. -/
def eq (x y : Double) : Bool :=
  match x.place?, y.place? with
  | some p, some q => p == q
  | _, _ => false

def lt (x y : Double) : Bool :=
  match x.place?, y.place? with
  | some p, some q => p.lt q
  | _, _ => false

def le (x y : Double) : Bool := lt x y || eq x y

/-- The double and the integer are the same number, without rounding. -/
def eqInt (x : Double) (n : Int) : Bool := x.place? == some (placeOfInt n)

def neg : Double → Double
  | .nan => .nan
  | .infinite s => .infinite (!s)
  | .finite s m e h => .finite (!s) m e h

def add : Double → Double → Double
  | .finite s m e h, .finite s' m' e' h' =>
    match units? (.finite s m e h), units? (.finite s' m' e' h') with
    | some a, some b =>
      if a + b = 0 then zero (s && s') else ofUnits (a + b)
    | _, _ => .nan
  | .infinite s, .infinite s' => if s == s' then .infinite s else .nan
  | .infinite s, .finite .. => .infinite s
  | .finite .., .infinite s => .infinite s
  | _, _ => .nan

def sub (x y : Double) : Double := add x (neg y)

def mul : Double → Double → Double
  | .finite s m e _, .finite s' m' e' _ =>
    let k := e + e'
    if 0 ≤ k then ofRatio (s != s') (m * m' * Nat.pow 2 k.toNat) 1
    else ofRatio (s != s') (m * m') (Nat.pow 2 (-k).toNat)
  | .nan, _ => .nan
  | _, .nan => .nan
  | x, y =>
    if x.isZero || y.isZero then .nan else .infinite (x.isNegative != y.isNegative)

/-- The integer that the number is, if it is one. -/
def toInt? : Double → Option Int
  | .finite s m e _ =>
    let n? : Option Nat :=
      if 0 ≤ e then some (m * Nat.pow 2 e.toNat)
      else if m % Nat.pow 2 (-e).toNat = 0 then some (m / Nat.pow 2 (-e).toNat)
      else none
    n?.map fun n => if s then -(n : Int) else n
  | _ => none

/-- The number without its fraction, toward zero. -/
def truncate? : Double → Option Int
  | .finite s m e _ =>
    let n := if 0 ≤ e then m * Nat.pow 2 e.toNat else m / Nat.pow 2 (-e).toNat
    some (if s then -(n : Int) else n)
  | _ => none

end Double

end Stencil
