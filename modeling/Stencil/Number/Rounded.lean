import Stencil.Number.Decimal

/-!
Doubles rounded to a number of significant digits, as text: with an exponent, or in the form that
the size of the number calls for.
-/

namespace Stencil.Number

/-- The `count` leading decimal digits of a positive quotient, rounded, a half to the even
neighbour, and the power of ten that the first of them stands for. -/
def leadingDigits (count num den : Nat) : Nat × Int :=
  let k := decimalLog num den
  let shift : Int := count - 1 - k
  let n :=
    if 0 ≤ shift then Double.roundDiv (num * Nat.pow 10 shift.toNat) den
    else Double.roundDiv num (den * Nat.pow 10 (-shift).toNat)
  if n = Nat.pow 10 count then (Nat.pow 10 (count - 1), k + 1) else (n, k)

/-- The same of `m * 2 ^ e`; those of zero are zeros. -/
def leadingDigitsOf (count m : Nat) (e : Int) : List Char × Int :=
  if m = 0 then (List.replicate count '0', 0)
  else
    let (n, k) := leadingDigits count (m * Nat.pow 2 e.toNat) (Nat.pow 2 (-e).toNat)
    (Nat.toDigits 10 n, k)

/-- Digits with a point behind the first `whole` of them. The point is left out where nothing
follows it, unless it is kept. -/
def pointed (keepPoint : Bool) (whole : Nat) (ds : List Char) : List Char :=
  let fraction := ds.drop whole
  ds.take whole ++ if fraction.isEmpty && !keepPoint then [] else '.' :: fraction

def exponentPart (k : Int) : List Char :=
  'e' :: (if k < 0 then '-' else '+') :: (paddedText 2 k.natAbs).toList

def dropZeros (ds : List Char) : List Char := (ds.reverse.dropWhile (· == '0')).reverse

/-- How a double's digits are laid out. -/
inductive Layout where
  /-- So many places behind the point. -/
  | fixed (places : Nat)
  /-- One digit before the point, so many behind it, and an exponent. -/
  | scientific (places : Nat)
  /-- So many significant digits, with an exponent for very small and very large numbers. -/
  | general (digits : Nat)
deriving DecidableEq

/-- The magnitude `m * 2 ^ e` in a layout. A point that is kept, is kept with all zeros. -/
def magnitudeText (keepPoint : Bool) (m : Nat) (e : Int) : Layout → List Char
  | .fixed places =>
    let scaled := m * Nat.pow 10 places
    let n :=
      if 0 ≤ e then scaled * Nat.pow 2 e.toNat
      else Double.roundDiv scaled (Nat.pow 2 (-e).toNat)
    let ds := (paddedText (places + 1) n).toList
    pointed keepPoint (ds.length - places) ds
  | .scientific places =>
    let (ds, k) := leadingDigitsOf (places + 1) m e
    pointed keepPoint 1 ds ++ exponentPart k
  | .general digits =>
    let count := max 1 digits
    let (all, k) := leadingDigitsOf count m e
    let short (whole : Nat) (ds : List Char) : List Char :=
      if keepPoint then ds else ds.take whole ++ dropZeros (ds.drop whole)
    if k < -4 || (count : Int) ≤ k then pointed keepPoint 1 (short 1 all) ++ exponentPart k
    else if k < 0 then
      pointed keepPoint 1 (short 1 (List.replicate (-k).toNat '0' ++ all))
    else
      let whole := k.toNat + 1
      pointed keepPoint whole (short whole all)

/-- The sign and the text of a double in a layout. -/
def roundedText (keepPoint : Bool) (layout : Layout) : Double → Bool × List Char
  | .nan => (false, "nan".toList)
  | .infinite s => (s, "inf".toList)
  | .finite s m e _ => (s, magnitudeText keepPoint m e layout)

end Stencil.Number
