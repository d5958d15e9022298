import Stencil.Value.Show
import Stencil.Text.Quoted

/-!
Values written as JSON, compact or laid out, with the choices that differ between uses in one
record. Texts stand in double quotes, with escapes for what cannot stand there.
-/

namespace Stencil.Json

/-! ### Texts -/

/-- The UTF-16 units of a code point, each as a `\u` escape. -/
def unitEscapes (n : Nat) : List Char :=
  if n < 0x10000 then '\\' :: 'u' :: Text.hexDigits 4 n
  else
    let m := n - 0x10000
    '\\' :: 'u' :: Text.hexDigits 4 (0xd800 + m / 0x400) ++
      '\\' :: 'u' :: Text.hexDigits 4 (0xdc00 + m % 0x400)

/-- A character as it stands in a JSON text; `ascii` escapes everything beyond ASCII too. -/
def escapedChar (ascii : Bool) (c : Char) : List Char :=
  if c == '"' || c == '\\' then ['\\', c]
  else if c == '\n' then ['\\', 'n']
  else if c == '\r' then ['\\', 'r']
  else if c == '\t' then ['\\', 't']
  else if c.toNat == 8 then ['\\', 'b']
  else if c.toNat == 12 then ['\\', 'f']
  else if c.toNat < 32 then unitEscapes c.toNat
  else if ascii && 127 ≤ c.toNat then unitEscapes c.toNat
  else [c]

def quotedChars (ascii : Bool) (cs : List Char) : List Char :=
  '"' :: cs.flatMap (escapedChar ascii) ++ ['"']

/-- The text as a JSON string. -/
def quotedText (ascii : Bool) (s : String) : String := String.ofList (quotedChars ascii s.toList)

/-! ### Values -/

/-- What becomes of a value that JSON has no form for. -/
inductive Others where
  | refused
  /-- Written as its plain text. -/
  | shown
  /-- Written as messages quote it. -/
  | quoted
deriving DecidableEq

/-- How values are written. -/
structure Style where
  /-- Between the items of a collection on one line. -/
  between : String := ", "
  /-- Between a key and its value. -/
  colon : String := ": "
  /-- Escape every character beyond ASCII. -/
  ascii : Bool := true
  /-- Put the keys in code point order. -/
  sorted : Bool := false
  /-- Spread collections over lines, with this many blanks for each level. -/
  indent : Option Nat := none
  /-- Write numbers that are not finite by name, rather than refusing them. -/
  names : Bool := true
  others : Others := .refused

/-- On one line, with a blank behind commas and colons. -/
def spaced : Style := {}

/-- On one line without blanks, other scripts as they are. -/
def compact : Style := { between := ",", colon := ":", ascii := false }

def doubleText (style : Style) (x : Double) : Except ValueFault String :=
  if x.isFinite || style.names then .ok (Number.doubleTextIn Number.named x) else .error .notFinite

/-- A key as JSON has it: numbers and truth values as their text. -/
def keyText (style : Style) : Value → Except ValueFault String
  | .text s => .ok s
  | .null => .ok "null"
  | .bool b => .ok (if b then "true" else "false")
  | .int n => showInt n
  | .float x => doubleText style x
  | v => .error (.jsonKey v.kind)

/-- A collection of written items, within brackets. -/
def bracketed (style : Style) (depth : Nat) (left right : String) (items : List String) : String :=
  if items.isEmpty then left ++ right
  else match style.indent with
    | none => left ++ style.between.intercalate items ++ right
    | some n =>
      let line k := "\n" ++ String.ofList (List.replicate (n * k) ' ')
      left ++ line (depth + 1) ++ ("," ++ line (depth + 1)).intercalate items ++ line depth ++ right

mutual

/-- The value as JSON, inside `depth` collections. -/
def writeAt (style : Style) (depth : Nat) : Value → Except ValueFault String
  | .null => .ok "null"
  | .bool b => .ok (if b then "true" else "false")
  | .int n => showInt n
  | .float x => doubleText style x
  | .text s => .ok (quotedText style.ascii s)
  | .list xs => do return bracketed style depth "[" "]" (← writeItems style (depth + 1) xs)
  | .tuple xs => do return bracketed style depth "[" "]" (← writeItems style (depth + 1) xs)
  | .dict kvs => do
    let written ← writeEntries style (depth + 1) kvs
    let ordered := if style.sorted then written.mergeSort (fun a b => a.1 ≤ b.1) else written
    return bracketed style depth "\x7b" "\x7d"
      (ordered.map fun e => quotedText style.ascii e.1 ++ style.colon ++ e.2)
  | .bytes bs => other style (.bytes bs)
  | .date d => other style (.date d)
  | .moment m => other style (.moment m)
  | .context r => other style (.context r)
where
  other (style : Style) (v : Value) : Except ValueFault String :=
    match style.others with
    | .refused => .error (.notJson v.kind)
    | .shown => do return quotedText style.ascii (← v.show)
    | .quoted => do return quotedText style.ascii (← v.inspect)

def writeItems (style : Style) (depth : Nat) : List Value → Except ValueFault (List String)
  | [] => .ok []
  | v :: vs => do return (← writeAt style depth v) :: (← writeItems style depth vs)

def writeEntries (style : Style) (depth : Nat) :
    List (Value × Value) → Except ValueFault (List (String × String))
  | [] => .ok []
  | (k, v) :: rest => do
    let key ← keyText style k
    return (key, ← writeAt style depth v) :: (← writeEntries style depth rest)

end

def write (style : Style) (v : Value) : Except ValueFault String := writeAt style 0 v

end Stencil.Json
