import Stencil.Text.Printable

/-!
A text in quotes, as messages show it: in apostrophes, or in double quotes when the text holds
an apostrophe and no double quote. What has no printed form is written as an escape. And a text as
part of an address: all but a few characters as percent signs with two digits for each byte.
-/

namespace Stencil.Text

def hexDigit (n : Nat) : Char :=
  if n < 10 then Char.ofNat (48 + n) else Char.ofNat (87 + n)

/-- The low `width` hexadecimal digits of a number. -/
def hexDigits : (width n : Nat) → List Char
  | 0, _ => []
  | w + 1, n => hexDigits w (n / 16) ++ [hexDigit (n % 16)]

/-- The numeric escape of a code point: two, four or eight digits, as few as hold it. -/
def numericEscape (n : Nat) : List Char :=
  if n < 0x100 then '\\' :: 'x' :: hexDigits 2 n
  else if n < 0x10000 then '\\' :: 'u' :: hexDigits 4 n
  else '\\' :: 'U' :: hexDigits 8 n

/-- The quote that a text is put in. -/
def quoteFor (cs : List Char) : Char :=
  if cs.contains '\'' && !cs.contains '"' then '"' else '\''

def quotedChar (printable : Char → Bool) (quote c : Char) : List Char :=
  if c == quote || c == '\\' then ['\\', c]
  else if c == '\n' then ['\\', 'n']
  else if c == '\r' then ['\\', 'r']
  else if c == '\t' then ['\\', 't']
  else if printable c then [c]
  else numericEscape c.toNat

def quotedWith (printable : Char → Bool) (cs : List Char) : List Char :=
  let q := quoteFor cs
  q :: cs.flatMap (quotedChar printable q) ++ [q]

/-- The text in quotes. -/
def quoted (s : String) : String := String.ofList (quotedWith isPrintable s.toList)

/-- Bytes in quotes behind a `b`; only printable ASCII stands for itself. -/
def quotedBytes (bs : List UInt8) : String :=
  let cs := bs.map fun b => Char.ofNat b.toNat
  String.ofList ('b' :: quotedWith (fun c => 32 ≤ c.toNat && c.toNat < 127) cs)

/-! ### Parts of addresses -/

/-- A byte that stands for itself in an address. -/
def isUnreserved (b : UInt8) : Bool :=
  let c := Char.ofNat b.toNat
  b < 128 && (c.isAlphanum || c == '_' || c == '.' || c == '-' || c == '~')

def percentByte (b : UInt8) : List Char :=
  if isUnreserved b then [Char.ofNat b.toNat]
  else '%' :: (hexDigits 2 b.toNat).map Char.toUpper

/-- A text as one part of an address. -/
def percentEncoded (s : String) : String :=
  String.ofList (s.toUTF8.data.toList.flatMap percentByte)

end Stencil.Text
