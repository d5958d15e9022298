import Stencil.Value.Show

/-!
Values written as YAML: a mapping with an entry to a line, a list under a key with an item to a
line, all else in brackets. A text is written as it is to be read: YAML folds the lines of some
texts, and of these a next-line character does not come back.
-/

namespace Stencil.Yaml

open Text (hexDigits)

/-! ### Folded texts -/

/-- A line break in a text. -/
def isTextBreak (c : Char) : Bool := c == '\n' || c == '\x85' || c == '\u2028' || c == '\u2029'

/-- A character that needs no escape in quotes. -/
def isPrinted (c : Char) : Bool :=
  let n := c.toNat
  c == '\n' || c == '\x85' || (0x20 ≤ n && n < 0x7f) ||
    (0xa0 ≤ n && n < 0x10ffff && n != 0xfeff && n != 0xfffe && n != 0xffff)

/-- Some blank stands next to a line break. -/
def hasBlankAtBreak : List Char → Bool
  | a :: b :: cs =>
    (a == ' ' && isTextBreak b) || (isTextBreak a && b == ' ') || hasBlankAtBreak (b :: cs)
  | _ => false

/-- A folded text as it is read, by whether a line break stands in front. There a next-line
character is a newline; else it is lost, or a blank where no line break follows. -/
def unfolded : (behind : Bool) → List Char → List Char
  | _, [] => []
  | behind, c :: cs =>
    if c == '\x85' then
      if behind then '\n' :: unfolded true cs
      else if cs.head?.any isTextBreak then unfolded true cs
      else ' ' :: unfolded false cs
    else c :: unfolded (isTextBreak c) cs

/-- What a text is read as when it was written. It is folded unless that takes an escape or a blank
at the end of a line. -/
def rereadText (s : String) : String :=
  if s.toList.all isPrinted && !hasBlankAtBreak s.toList then
    String.ofList (unfolded false s.toList)
  else s

/-! ### Scalars -/

/-- A character in double quotes, by its number unless it is plain ASCII. -/
def quotedChar (c : Char) : List Char :=
  let n := c.toNat
  if c == '"' || c == '\\' then ['\\', c]
  else if 32 ≤ n && n < 127 then [c]
  else if n < 0x100 then '\\' :: 'x' :: hexDigits 2 n
  else if n < 0x10000 then '\\' :: 'u' :: hexDigits 4 n
  else '\\' :: 'U' :: hexDigits 8 n

def quotedText (s : String) : String :=
  String.ofList ('"' :: s.toList.flatMap quotedChar ++ ['"'])

/-- Numbers have a point and a sign in front of the exponent. -/
def pointed (s : String) : String :=
  let cs := s.toList
  let mantissa := cs.takeWhile (· != 'e')
  if mantissa.contains '.' then s
  else String.ofList (mantissa ++ ".0".toList ++ cs.dropWhile (· != 'e'))

def doubleText : Double → String
  | .nan => ".nan"
  | .infinite negative => if negative then "-.inf" else ".inf"
  | x => pointed (Number.doubleText x)

def base64Digit (n : Nat) : Char :=
  if n < 26 then Char.ofNat (65 + n)
  else if n < 52 then Char.ofNat (71 + n)
  else if n < 62 then Char.ofNat (n - 4)
  else if n = 62 then '+'
  else '/'

/-- Bytes in base 64. -/
def base64 : List UInt8 → List Char
  | [] => []
  | [a] =>
    let n := a.toNat * 16
    [base64Digit (n / 64), base64Digit (n % 64), '=', '=']
  | [a, b] =>
    let n := (a.toNat * 256 + b.toNat) * 4
    [base64Digit (n / 4096), base64Digit (n / 64 % 64), base64Digit (n % 64), '=']
  | a :: b :: c :: rest =>
    let n := (a.toNat * 256 + b.toNat) * 256 + c.toNat
    base64Digit (n / 262144) :: base64Digit (n / 4096 % 64) :: base64Digit (n / 64 % 64) ::
      base64Digit (n % 64) :: base64 rest

/-! ### Values -/

/-- The longest key that needs no mark. -/
def simpleKeyLimit : Nat := 1000

/-- A key that is read as one without a mark. -/
def isSimpleKey (written : String) : Value → Bool
  | .text _ => written.length ≤ simpleKeyLimit
  | _ => false

/-- A written key with what stands before and behind it. -/
def keyed (written : String) (key : Value) (between : String) : String :=
  if isSimpleKey written key then written ++ ":" else "? " ++ written ++ between ++ ":"

mutual

/-- A value on one line. -/
def writeFlow : Value → Except ValueFault String
  | .null => .ok "null"
  | .bool b => .ok (if b then "true" else "false")
  | .int n => showInt n
  | .float x => .ok (doubleText x)
  | .text s => .ok (quotedText (rereadText s))
  | .bytes bs => .ok ("!!binary \"" ++ String.ofList (base64 bs) ++ "\"")
  | .date d => .ok d.text
  | .moment m => .ok m.text
  | .list vs => do return "[" ++ ", ".intercalate (← writeItems vs) ++ "]"
  | .tuple vs => do return "[" ++ ", ".intercalate (← writeItems vs) ++ "]"
  | .dict entries => do return "\x7b" ++ ", ".intercalate (← writeEntries entries) ++ "\x7d"
  | .context r => .error (.notJson (Value.context r).kind)

def writeItems : List Value → Except ValueFault (List String)
  | [] => .ok []
  | v :: vs => do return (← writeFlow v) :: (← writeItems vs)

def writeEntries : List (Value × Value) → Except ValueFault (List String)
  | [] => .ok []
  | (k, v) :: rest => do
    let key ← writeFlow k
    return (keyed key k " " ++ " " ++ (← writeFlow v)) :: (← writeEntries rest)

end

/-- An entry on lines of its own. -/
def writeLines (entry : Value × Value) : Except ValueFault String := do
  let key ← writeFlow entry.1
  let lead := keyed key entry.1 "\n"
  match entry.2 with
  | .list (v :: vs) =>
    let items ← writeItems (v :: vs)
    return lead ++ "\n" ++ String.join (items.map fun s => "- " ++ s ++ "\n")
  | v => return lead ++ " " ++ (← writeFlow v) ++ "\n"

def writeBlock : List (Value × Value) → Except ValueFault String
  | [] => .ok ""
  | e :: es => do return (← writeLines e) ++ (← writeBlock es)

/-- The value as a YAML document. -/
def write : Value → Except ValueFault String
  | .dict (e :: es) => writeBlock (e :: es)
  | v => do return (← writeFlow v) ++ "\n"

end Stencil.Yaml
