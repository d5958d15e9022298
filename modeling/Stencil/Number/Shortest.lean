import Stencil.Number.Double

/-!
The fewest decimal digits that read back as a double.

The numbers that round to a double form an interval around it, its ends included when the
significand is even. For one digit, then two, and so on, the two neighbours of the double on
that decimal grid are tried; the first grid with a neighbour inside the interval gives the
digits, and of two neighbours the nearer one.
-/

namespace Stencil.Number

/-- A positive decimal: `digits * 10 ^ exponent`. -/
structure Decimal where
  digits : Nat
  exponent : Int
deriving DecidableEq

/-- The numbers that round to `m * 2 ^ e`, over a common denominator `den`. -/
structure Rounding where
  low : Nat
  value : Nat
  high : Nat
  den : Nat
  closed : Bool

/-- Below the least significand of an exponent the neighbour is half as far. -/
def Rounding.of (m : Nat) (e : Int) : Rounding :=
  let up := Nat.pow 2 e.toNat
  let den := 4 * Nat.pow 2 (-e).toNat
  let low := if m = Nat.pow 2 52 && -1074 < e then 4 * m - 1 else 4 * m - 2
  ⟨low * up, 4 * m * up, (4 * m + 2) * up, den, m % 2 == 0⟩

/-- `a / b` lies in the interval. -/
def Rounding.holds (r : Rounding) (a b : Nat) : Bool :=
  if r.closed then r.low * b ≤ a * r.den && a * r.den ≤ r.high * b
  else r.low * b < a * r.den && a * r.den < r.high * b

/-- The number of decimal digits of a natural. -/
def digitCount (n : Nat) : Nat := (Nat.toDigits 10 n).length

/-- The largest `k` with `10 ^ k ≤ num / den`, for a positive quotient. -/
def decimalLog (num den : Nat) : Int :=
  let k : Int := (digitCount num : Int) - digitCount den
  let reached := if 0 ≤ k then den * Nat.pow 10 k.toNat ≤ num else den ≤ num * Nat.pow 10 (-k).toNat
  if reached then k else k - 1

/-- The neighbour on the grid of multiples of `10 ^ k` that rounds to the double, the nearer one
if both do. -/
def Rounding.onGrid (r : Rounding) (k : Int) : Option Nat :=
  let up := Nat.pow 10 k.toNat
  let down := Nat.pow 10 (-k).toNat
  let below := r.value * down / (r.den * up)
  let okBelow := r.holds (below * up) down
  let okAbove := r.holds ((below + 1) * up) down
  let twice := 2 * (r.value * down)
  let middle := (2 * below + 1) * (r.den * up)
  if okBelow && okAbove then
    some (if twice < middle then below
      else if middle < twice then below + 1
      else below + below % 2)
  else if okBelow then some below
  else if okAbove then some (below + 1)
  else none

/-- Try the grids from `k` downward. -/
def Rounding.shortest (r : Rounding) : (tries : Nat) → (k : Int) → Decimal
  | 0, k => ⟨r.value * Nat.pow 10 (-k).toNat / (r.den * Nat.pow 10 k.toNat), k⟩
  | n + 1, k =>
    match r.onGrid k with
    | some d => if d = 0 then shortest r n (k - 1) else ⟨d, k⟩
    | none => shortest r n (k - 1)

/-- The shortest decimal that reads back as `m * 2 ^ e`, for a positive significand. Seventeen
digits are always enough. -/
def shortestDecimal (m : Nat) (e : Int) : Decimal :=
  let r := Rounding.of m e
  r.shortest 18 (decimalLog r.value r.den + 1)

end Stencil.Number
