/-!
A place in a text of which the rest is still to be read, the pieces that a YAML text is made of, and
why a text is not made of them.
-/

namespace Stencil.Yaml

/-- A character at which a line ends. -/
def isBreak (c : Char) : Bool :=
  c == '\n' || c == '\r' || c == '\x85' || c == '\u2028' || c == '\u2029'

structure Cursor where
  rest : List Char
  index : Nat := 0
  line : Nat := 0
  column : Nat := 0

namespace Cursor

def peek (c : Cursor) : Option Char := c.rest.head?

def peekAt (c : Cursor) (n : Nat) : Option Char := c.rest[n]?

/-- Past one character. The two characters of a carriage return and newline end one line. -/
def next (c : Cursor) : Cursor :=
  match c.rest with
  | [] => c
  | ch :: r =>
    if isBreak ch && !(ch == '\r' && r.head? == some '\n') then
      ⟨r, c.index + 1, c.line + 1, 0⟩
    else if ch == '\ufeff' then ⟨r, c.index + 1, c.line, c.column⟩
    else ⟨r, c.index + 1, c.line, c.column + 1⟩

/-- Past a number of characters. -/
def skip : (n : Nat) → Cursor → Cursor
  | 0, c => c
  | n + 1, c => skip n c.next

/-- The characters from here on that pass the test, and the place behind them. -/
def span (p : Char → Bool) (c : Cursor) : List Char × Cursor :=
  let cs := c.rest.takeWhile p
  (cs, c.skip cs.length)

def dropWhile (p : Char → Bool) (c : Cursor) : Cursor := (c.span p).2

/-- The next character is a given one. -/
def sees (ch : Char) (c : Cursor) : Bool := c.peek == some ch

end Cursor

/-- The text ends, or its line does. -/
def endsLine : Option Char → Bool
  | none => true
  | some c => isBreak c

/-- The text ends, or a blank or line end follows. -/
def endsWord : Option Char → Bool
  | none => true
  | some c => c == ' ' || c == '\t' || isBreak c

/-- As `endsWord`, but a tab does not count. -/
def endsMark : Option Char → Bool
  | none => true
  | some c => c == ' ' || isBreak c

/-- A line end as it counts in a scalar, and the place behind it. -/
def lineBreak? (c : Cursor) : Option (Char × Cursor) :=
  match c.rest with
  | '\r' :: '\n' :: _ => some ('\n', c.skip 2)
  | ch :: _ =>
    if ch == '\u2028' || ch == '\u2029' then some (ch, c.next)
    else if isBreak ch then some ('\n', c.next)
    else none
  | [] => none

/-- Three hyphens or dots that stand alone, as between documents. -/
def atSeparator (c : Cursor) : Bool :=
  match c.rest with
  | '-' :: '-' :: '-' :: r => endsWord r.head?
  | '.' :: '.' :: '.' :: r => endsWord r.head?
  | _ => false

/-- Past blanks, and past a comment if one follows. -/
def skipComment (c : Cursor) : Cursor :=
  let c := c.dropWhile (· == ' ')
  if c.sees '#' then c.dropWhile (!isBreak ·) else c

/-! ### Pieces -/

inductive Fault where
  /-- The text breaks a rule of the language. -/
  | malformed (what : String)
  /-- A scalar that is marked as of a kind is not of that kind. -/
  | unreadable (kind message : String)
deriving DecidableEq

/-- The tag of a node as written: a handle and a suffix, or a whole tag. -/
structure TagMark where
  handle : Option String
  suffix : String
deriving DecidableEq

inductive Directive where
  | version (major minor : Nat)
  | tag (handle lead : String)
  | other
deriving DecidableEq

inductive Token where
  | streamEnd
  | directive (d : Directive)
  | documentStart
  | documentEnd
  | blockSequenceStart
  | blockMappingStart
  | blockEnd
  | flowSequenceStart
  | flowSequenceEnd
  | flowMappingStart
  | flowMappingEnd
  | blockEntry
  | flowEntry
  | key
  | value
  | alias_ (name : String)
  | anchor (name : String)
  | tag (mark : TagMark)
  /-- The text of a scalar; a plain one stands without quotes or marks. -/
  | scalar (text : String) (plain : Bool)
deriving DecidableEq

end Stencil.Yaml
