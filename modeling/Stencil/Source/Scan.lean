import Stencil.Source.Token
import Stencil.Source.Lexeme
import Stencil.Text.Quoted

/-!
Cutting a template source into tokens, as a machine with a mode.

Plain text runs up to a construct; a construct switches to the mode that reads its inside and
comes back when it is closed, or when something shows that it never will be. What cannot be read
becomes an error token that carries its description; nothing is refused.
-/

namespace Stencil.Source

open Text (isBlank)

/-- A place in the source and the characters behind it. -/
structure Cursor where
  pos : Position
  rest : List Char

namespace Cursor

/-- The cursor behind the first characters `w` of its rest. -/
def after (c : Cursor) (w : List Char) : Cursor := ⟨c.pos.advance w, c.rest.drop w.length⟩

def skipBlanks (c : Cursor) : Cursor := c.after (c.rest.takeWhile isBlank)

/-- The token that the characters `w` at the cursor are. -/
def token (c : Cursor) (kind : TokenKind) (w : List Char) (value : Option (List Char) := none) :
    Token :=
  ⟨kind, String.ofList w, c.pos, value.map String.ofList⟩

/-- An error about the characters `w` at the cursor. -/
def fault (c : Cursor) (w : List Char) (message : String) : Token :=
  ⟨.error, String.ofList w, c.pos, some message⟩

end Cursor

/-- What is being read. Each mode but plain text carries the error to report if it is never
closed, and those inside a directive also the directive's. -/
inductive Mode where
  | text
  | directive (unclosed : Token)
  | slot (unclosed : Token) (inside : Option Token)
  | quoted (unclosed : Token) (inside : Option Token)

namespace Mode

/-- The mode around a construct. -/
def around : Option Token → Mode
  | none => .text
  | some t => .directive t

/-- How deep the mode is; a step that takes no character leads to a shallower one. -/
def depth : Mode → Nat
  | .text => 0
  | .directive _ => 1
  | .slot .. => 2
  | .quoted .. => 2

end Mode

/-- One step: the tokens found, the mode that follows and the cursor behind them. -/
structure Step where
  tokens : List Token
  mode : Mode
  cursor : Cursor

namespace Step

/-- One token of the characters `w`, going on in `mode`. -/
def one (c : Cursor) (mode : Mode) (kind : TokenKind) (w : List Char)
    (value : Option (List Char) := none) : Step :=
  ⟨[c.token kind w value], mode, c.after w⟩

/-- An error that takes no character. -/
def stay (c : Cursor) (mode : Mode) (error : Token) : Step := ⟨[error], mode, c⟩

/-- An error about one character, which is skipped. -/
def reject (c : Cursor) (mode : Mode) (ch : Char) (message : String) : Step :=
  ⟨[c.fault [ch] message], mode, c.after [ch]⟩

end Step

def unclosedSlot (c : Cursor) : Token :=
  c.fault ['\x7b', '\x7b'] "Unterminated variable: expected '\x7d\x7d'"

def unclosedDirective (c : Cursor) : Token :=
  c.fault (c.rest.take 2) "Unterminated directive: expected ']'"

def unclosedArguments (c : Cursor) : Token :=
  c.fault ['('] "Unterminated operator arguments: expected ')'"

def unexpected (ch : Char) : String := "Unexpected character " ++ Text.quoted (String.ofList [ch])

/-- A literal that starts with the quote at the cursor: its token in `mode`, or an error that
takes the rest of the line and goes on in `onError`. -/
def literalStep (c : Cursor) (mode onError : Mode) (quote : Char) (cs : List Char) : Step :=
  let l := literalTail quote cs
  if l.closed then Step.one c mode .string (quote :: l.taken) (some l.value)
  else ⟨[c.fault [quote] "Unterminated string literal"], onError, c.after (quote :: l.taken)⟩

/-- What follows an operator's opening parenthesis at `paren`: literals, which have a mode of
their own, or one raw argument. -/
def argumentStep (before : List Token) (paren : Cursor) (inside : Option Token) : Step :=
  let c := (paren.after ['(']).skipBlanks
  match c.rest with
  | '"' :: _ => ⟨before, .quoted (unclosedArguments paren) inside, c⟩
  | '\'' :: _ => ⟨before, .quoted (unclosedArguments paren) inside, c⟩
  | _ =>
    let w := rawArgument 0 c.rest
    let close := c.after w
    match close.rest with
    | ')' :: _ =>
      let arg :=
        if (Text.trimBlanks w).isEmpty then []
        else [c.token .argument w (some (Text.trimBlanks w))]
      ⟨before ++ arg ++ [close.token .rightParen [')']], .around inside, close.after [')']⟩
    | _ => ⟨before ++ [unclosedArguments paren], .around inside, close⟩

/-- An operator `w` at the cursor, and its arguments if a parenthesis stands right behind it. -/
def operatorStep (c : Cursor) (inside : Option Token) (w : List Char) : Step :=
  let name := c.token .operator w (some (w.drop 1))
  let next := c.after w
  match next.rest with
  | '(' :: _ => argumentStep [name, next.token .leftParen ['(']] next inside
  | _ => ⟨[name], .around inside, next⟩

def textStep (c : Cursor) : Step :=
  match opening? c.rest with
  | none => Step.one c .text .text (plainRun c.rest)
  | some .slot =>
    Step.one c (.slot (unclosedSlot c) none) .slotOpen ['\x7b', '\x7b']
  | some .directive =>
    let w := directiveHead c.rest
    Step.one c (.directive (unclosedDirective c)) .directive w (some (w.drop 2))
  | some .elseIf =>
    Step.one c (.directive (unclosedDirective c)) .directive "[ELSE IF".toList
      (some "ELSE_IF".toList)
  | some (.closer lexeme value) =>
    Step.one c .text .directive lexeme.toList (some value.toList)
  | some .context => operatorStep c none "#context".toList

/-- Inside a variable, at a character that is not blank. -/
def slotStep (unclosed : Token) (inside : Option Token) (c : Cursor) : Step :=
  let mode := Mode.slot unclosed inside
  match c.rest with
  | [] => .stay c (.around inside) unclosed
  | ch :: cs =>
    if begins "\x7d\x7d" c.rest then
      Step.one c (.around inside) .slotClose ['\x7d', '\x7d']
    else if ch == '\x7b' || ch == '[' || ch == ']' then .stay c (.around inside) unclosed
    else if begins "??" c.rest then Step.one c mode .defaultMark ['?', '?']
    else if ch == ':' then Step.one c mode .colon [ch]
    else if ch == '"' || ch == '\'' then literalStep c mode mode ch cs
    else match number? c.rest with
      | some w => Step.one c mode .number w (some w)
      | none =>
        match identifier? c.rest with
        | some w => Step.one c mode .identifier w (some w)
        | none => .reject c mode ch (unexpected ch)

/-- The mark of a single-character token of directives. -/
def mark? : Char → Option TokenKind
  | '(' => some .leftParen
  | ')' => some .rightParen
  | ',' => some .comma
  | '=' => some .equals
  | _ => none

/-- Inside a directive, at a character that is not blank. -/
def directiveStep (unclosed : Token) (c : Cursor) : Step :=
  let mode := Mode.directive unclosed
  match c.rest with
  | [] => .stay c .text unclosed
  | ch :: cs =>
    if beginsBlock c.rest then .stay c .text unclosed
    else if ch == ']' then Step.one c .text .directiveClose [ch]
    else if begins "\x7b\x7b" c.rest then
      Step.one c (.slot (unclosedSlot c) (some unclosed)) .slotOpen ['\x7b', '\x7b']
    else if ch == '#' then
      match operator? c.rest with
      | some w => operatorStep c (some unclosed) w
      | none => .reject c mode ch "Expected operator name after '#'"
    else match mark? ch with
      | some kind => Step.one c mode kind [ch]
      | none =>
        if ch == '"' || ch == '\'' then literalStep c mode mode ch cs
        else match number? c.rest with
          | some w => Step.one c mode .number w (some w)
          | none =>
            match identifier? c.rest with
            | some w => Step.one c mode .identifier w (some w)
            | none =>
              match pathWord? c.rest with
              | some w => Step.one c mode .identifier w (some w)
              | none => .reject c mode ch (unexpected ch)

/-- Among literals in parentheses, at a character that is not blank. -/
def quotedStep (unclosed : Token) (inside : Option Token) (c : Cursor) : Step :=
  let mode := Mode.quoted unclosed inside
  match c.rest with
  | [] => .stay c (.around inside) unclosed
  | ch :: cs =>
    if ch == ')' then Step.one c (.around inside) .rightParen [ch]
    else if ch == ',' then Step.one c mode .comma [ch]
    else if ch == '"' || ch == '\'' then literalStep c mode (.around inside) ch cs
    else .stay c (.around inside) unclosed

/-- One step of the machine. -/
def step : Mode → Cursor → Step
  | .text, c => textStep c
  | .directive t, c => directiveStep t c.skipBlanks
  | .slot t inside, c => slotStep t inside c.skipBlanks
  | .quoted t inside, c => quotedStep t inside c.skipBlanks

end Stencil.Source
