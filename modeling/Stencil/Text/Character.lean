/-!
Sets of characters given as lists of closed code point ranges, and tables that shift every
`step`-th code point of a range by a fixed amount.

Among the sets are the decimal digits of every script, with the number each stands for, and white
space, the characters that separate words. A script's ten digits are consecutive code points, so a
table of the zeros is enough.

Characters are also read from bytes here, where some of these are no text.
-/

namespace Stencil.Text

/-- Some range of the list holds the code point. -/
def inRanges (ranges : List (Nat × Nat)) (n : Nat) : Bool :=
  ranges.any fun r => r.1 ≤ n && n ≤ r.2

/-- Every `step`-th code point from `first` to `last` maps to itself plus `shift`. -/
structure Run where
  first : Nat
  last : Nat
  step : Nat
  shift : Int

namespace Run

def holds (r : Run) (n : Nat) : Bool :=
  r.first ≤ n && n ≤ r.last && (n - r.first) % r.step == 0

def apply (r : Run) (n : Nat) : Nat := (n + r.shift).toNat

end Run

/-- The image of a code point under the first run that holds it, else the code point. -/
def shiftBy (runs : List Run) (n : Nat) : Nat :=
  match runs.find? (·.holds n) with
  | some r => r.apply n
  | none => n

/-- The code points of the digits zero. -/
def zeroDigits : List Nat :=
  [0x30, 0x660, 0x6f0, 0x7c0, 0x966, 0x9e6, 0xa66, 0xae6, 0xb66, 0xbe6, 0xc66, 0xce6, 0xd66,
   0xde6, 0xe50, 0xed0, 0xf20, 0x1040, 0x1090, 0x17e0, 0x1810, 0x1946, 0x19d0, 0x1a80, 0x1a90,
   0x1b50, 0x1bb0, 0x1c40, 0x1c50, 0xa620, 0xa8d0, 0xa900, 0xa9d0, 0xa9f0, 0xaa50, 0xabf0, 0xff10,
   0x104a0, 0x10d30, 0x11066, 0x110f0, 0x11136, 0x111d0, 0x112f0, 0x11450, 0x114d0, 0x11650,
   0x116c0, 0x11730, 0x118e0, 0x11950, 0x11c50, 0x11d50, 0x11da0, 0x16a60, 0x16ac0, 0x16b50,
   0x1d7ce, 0x1d7d8, 0x1d7e2, 0x1d7ec, 0x1d7f6, 0x1e140, 0x1e2f0, 0x1e950, 0x1fbf0]

/-- The value of a decimal digit of any script. -/
def digitValue? (c : Char) : Option Nat :=
  (zeroDigits.find? fun z => z ≤ c.toNat && c.toNat ≤ z + 9).map (c.toNat - ·)

def isDigit (c : Char) : Bool := (digitValue? c).isSome

def blankRanges : List (Nat × Nat) :=
  [(0x9, 0xd), (0x1c, 0x20), (0x85, 0x85), (0xa0, 0xa0), (0x1680, 0x1680), (0x2000, 0x200a),
   (0x2028, 0x2029), (0x202f, 0x202f), (0x205f, 0x205f), (0x3000, 0x3000)]

def isBlank (c : Char) : Bool := inRanges blankRanges c.toNat

/-- The characters without the blanks at either end. -/
def trimBlanks (cs : List Char) : List Char :=
  ((cs.dropWhile isBlank).reverse.dropWhile isBlank).reverse

/-- The text without the blanks at either end. -/
def strip (s : String) : String := String.ofList (trimBlanks s.toList)

/-- The text has no character but blanks. -/
def allBlank (s : String) : Bool := s.toList.all isBlank

/-- The maximal runs of characters that are not blank, given the run being read. -/
def wordsFrom : List Char → List Char → List (List Char)
  | [], [] => []
  | [], w => [w.reverse]
  | c :: cs, w =>
    if isBlank c then
      if w.isEmpty then wordsFrom cs [] else w.reverse :: wordsFrom cs []
    else wordsFrom cs (c :: w)

def words (s : String) : List String := (wordsFrom s.toList []).map String.ofList

/-! ### Characters of bytes -/

/-- What stands for bytes that are no text. -/
def substitute : Char := Char.ofNat 0xFFFD

/-- How many bytes follow a first byte, the bits that it gives, and the least and greatest second
byte. -/
def leadByte? (b : Nat) : Option (Nat × Nat × Nat × Nat) :=
  if b < 0x80 then some (0, b, 0, 0)
  else if 0xc2 ≤ b && b < 0xe0 then some (1, b - 0xc0, 0x80, 0xbf)
  else if b == 0xe0 then some (2, 0, 0xa0, 0xbf)
  else if b == 0xed then some (2, 0xd, 0x80, 0x9f)
  else if 0xe0 < b && b < 0xf0 then some (2, b - 0xe0, 0x80, 0xbf)
  else if b == 0xf0 then some (3, 0, 0x90, 0xbf)
  else if b == 0xf4 then some (3, 4, 0x80, 0x8f)
  else if 0xf0 < b && b < 0xf4 then some (3, b - 0xf0, 0x80, 0xbf)
  else none

/-- Read bytes, `more` of which are still due for the character begun, whose bits are `bits`. -/
def readUtf8 : (more bits low high : Nat) → List UInt8 → List Char
  | 0, _, _, _, [] => []
  | _ + 1, _, _, _, [] => [substitute]
  | 0, _, _, _, b :: bs => start b bs
  | n + 1, bits, low, high, b :: bs =>
    if low ≤ b.toNat && b.toNat ≤ high then
      let bits := bits * 64 + (b.toNat - 0x80)
      if n = 0 then Char.ofNat bits :: readUtf8 0 0 0 0 bs else readUtf8 n bits 0x80 0xbf bs
    else
      substitute :: start b bs
where
  /-- Begin a character. -/
  start (b : UInt8) (bs : List UInt8) : List Char :=
    match leadByte? b.toNat with
    | none => substitute :: readUtf8 0 0 0 0 bs
    | some (0, bits, _, _) => Char.ofNat bits :: readUtf8 0 0 0 0 bs
    | some (n, bits, low, high) => readUtf8 n bits low high bs

/-- The text of bytes, with a substitute for each run of them that is no character. -/
def lenientUtf8 (bs : List UInt8) : String := String.ofList (readUtf8 0 0 0 0 bs)

end Stencil.Text
