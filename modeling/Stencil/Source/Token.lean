/-!
The tokens of a template source, and where they stand.

A place counts characters, and lines at newline characters; the place behind a text is found by
walking over it.
-/

namespace Stencil

/-- A place between two characters: how many stand before it, and the line and column, counted
from one, of the character behind it. -/
structure Position where
  offset : Nat
  line : Nat
  column : Nat
deriving DecidableEq, Repr

namespace Position

/-- The beginning of a source. -/
def origin : Position := ⟨0, 1, 1⟩

/-- The place behind one character. -/
def next (p : Position) (c : Char) : Position :=
  if c == '\n' then ⟨p.offset + 1, p.line + 1, 1⟩ else ⟨p.offset + 1, p.line, p.column + 1⟩

/-- The place behind some characters. -/
def advance (p : Position) (cs : List Char) : Position := cs.foldl next p

theorem advance_nil (p : Position) : p.advance [] = p := rfl

theorem advance_append (p : Position) (as bs : List Char) :
    p.advance (as ++ bs) = (p.advance as).advance bs := by
  simp [advance]

theorem advance_offset (p : Position) (cs : List Char) :
    (p.advance cs).offset = p.offset + cs.length := by
  induction cs generalizing p with
  | nil => rfl
  | cons c cs ih =>
    have h : (p.next c).offset = p.offset + 1 := by unfold next; split <;> rfl
    have := ih (p.next c)
    simp only [advance, List.foldl_cons, List.length_cons] at *
    omega

end Position

/-- A stretch of source, its end not included. -/
structure Span where
  start : Position
  stop : Position
deriving DecidableEq, Repr

namespace Span

/-- The span of what has no source. -/
def empty : Span := ⟨.origin, .origin⟩

end Span

inductive TokenKind where
  | text
  | slotOpen
  | slotClose
  | directive
  | directiveClose
  | operator
  | identifier
  | string
  | number
  | argument
  | leftParen
  | rightParen
  | comma
  | colon
  | equals
  | defaultMark
  | error
  | endOfInput
deriving DecidableEq, Repr

/-- The word that stands for the kind in listings. -/
def TokenKind.word : TokenKind → String
  | text => "text"
  | slotOpen => "variable_open"
  | slotClose => "variable_close"
  | directive => "directive"
  | directiveClose => "directive_close"
  | operator => "operator"
  | identifier => "identifier"
  | string => "string"
  | number => "number"
  | argument => "argument"
  | leftParen => "lparen"
  | rightParen => "rparen"
  | comma => "comma"
  | colon => "colon"
  | equals => "equals"
  | defaultMark => "default_op"
  | error => "error"
  | endOfInput => "eof"

/-- A token: its exact source text, where it starts, and what it stands for. The value is the
name of a directive or operator, the text inside quotes with its escapes read, an argument
without the blanks around it, or the description of an error. -/
structure Token where
  kind : TokenKind
  lexeme : String
  start : Position
  value : Option String := none
deriving DecidableEq, Repr

namespace Token

/-- The place behind the token. -/
def stop (t : Token) : Position := t.start.advance t.lexeme.toList

def span (t : Token) : Span := ⟨t.start, t.stop⟩

/-- The value, empty when there is none. -/
def text (t : Token) : String := t.value.getD ""

end Token

end Stencil
