import Stencil.Text.Character
import Stencil.Text.Word
import Stencil.Text.Search

/-!
The shapes of the single tokens: for each, the characters that it takes from the front of a
text. Names, numbers and words are ASCII but for the digits, which may be of any script.
-/

namespace Stencil.Source

open Text (dropLead? isDigit isBlank isWordChar)

def isUpperStart (c : Char) : Bool := c.isUpper || c == '_'

def isNameStart (c : Char) : Bool := c.isAlpha || c == '_'

def isNamePart (c : Char) : Bool := c.isAlphanum || c == '_'

/-- Inside a key of a variable path. -/
def isKeyPart (c : Char) : Bool := isNamePart c || c == '-'

def isPathPart (c : Char) : Bool := c.isAlphanum || c == '_' || c == '.' || c == '/' || c == '-'

/-- The text starts with `w`. -/
def begins (w : String) (cs : List Char) : Bool := (dropLead? w.toList cs).isSome

/-- What ends a run of plain text. -/
inductive Opening where
  | slot
  | directive
  | elseIf
  | closer (lexeme value : String)
  | context
deriving DecidableEq

/-- A directive name starts here: a bracket and a hash before an upper-case letter, so that
other bracketed text stays plain. -/
def beginsDirective : List Char → Bool
  | '[' :: '#' :: c :: _ => isUpperStart c
  | _ => false

/-- The else-if directive starts here, its last letter ending a word. -/
def beginsElseIf (cs : List Char) : Bool :=
  match dropLead? "[ELSE IF".toList cs with
  | none => false
  | some [] => true
  | some (c :: _) => !isWordChar c

/-- The construct that starts at the front of the text, if any does. -/
def opening? (cs : List Char) : Option Opening :=
  if begins "\x7b\x7b" cs then some .slot
  else if beginsDirective cs then some .directive
  else if beginsElseIf cs then some .elseIf
  else if begins "[ELSE]" cs then some (.closer "[ELSE]" "ELSE")
  else if begins "[END IF]" cs then some (.closer "[END IF]" "END_IF")
  else if begins "[END SECTION]" cs then some (.closer "[END SECTION]" "END_SECTION")
  else if begins "#context(" cs then some .context
  else none

/-- The characters before the first construct. -/
def plainRun : List Char → List Char
  | [] => []
  | c :: cs => if (opening? (c :: cs)).isSome then [] else c :: plainRun cs

/-- A block directive starts here, so the one being read was never closed. -/
def beginsBlock (cs : List Char) : Bool :=
  beginsDirective cs || begins "[END " cs || begins "[ELSE" cs

/-- A letter or an underscore comes next. -/
def nameFollows : List Char → Bool
  | c :: _ => isNameStart c
  | [] => false

/-- A run of digits before `rest`. It gives back its last digit rather than be followed by a
letter, and fails if that was the only one. -/
def digitRun? (ds rest : List Char) : Option (List Char) :=
  if ds.isEmpty then none
  else if !nameFollows rest then some ds
  else if 1 < ds.length then some ds.dropLast
  else none

/-- The digits behind a point. -/
def fractionDigits : List Char → List Char
  | '.' :: cs => cs.takeWhile isDigit
  | _ => []

/-- Digits and an optional fraction, which is left out rather than be followed by a letter. -/
def unsignedNumber? (cs : List Char) : Option (List Char) :=
  let whole := cs.takeWhile isDigit
  let rest := cs.dropWhile isDigit
  let fraction := fractionDigits rest
  if whole.isEmpty then none
  else if fraction.isEmpty then digitRun? whole rest
  else match digitRun? fraction (rest.drop (fraction.length + 1)) with
    | some f => some (whole ++ '.' :: f)
    | none => some whole

/-- A number: an optional minus, digits, and an optional fraction. -/
def number? : List Char → Option (List Char)
  | '-' :: cs => (unsignedNumber? cs).map ('-' :: ·)
  | cs => unsignedNumber? cs

/-- An index in brackets. -/
def index? : List Char → Option (List Char)
  | '[' :: cs =>
    let ds := cs.takeWhile isDigit
    match cs.dropWhile isDigit with
    | ']' :: _ => if ds.isEmpty then none else some ('[' :: ds ++ [']'])
    | _ => none
  | _ => none

/-- A further key of a path, behind its dot. -/
def key? : List Char → Option (List Char)
  | '.' :: c :: cs => if isNamePart c then some ('.' :: c :: cs.takeWhile isKeyPart) else none
  | _ => none

/-- The keys and indexes that follow the first key of a path. -/
def pathTail : (fuel : Nat) → List Char → List Char
  | 0, _ => []
  | n + 1, cs =>
    match key? cs with
    | some w => w ++ pathTail n (cs.drop w.length)
    | none =>
      match index? cs with
      | some w => w ++ pathTail n (cs.drop w.length)
      | none => []

/-- A variable path: a key, then keys behind dots and indexes in brackets. -/
def identifier? : List Char → Option (List Char)
  | c :: cs =>
    if isNameStart c || c == '@' then
      let first := c :: cs.takeWhile isKeyPart
      some (first ++ pathTail cs.length (cs.drop (first.length - 1)))
    else none
  | [] => none

/-- A bare word of a file path. -/
def pathWord? (cs : List Char) : Option (List Char) :=
  let w := cs.takeWhile isPathPart
  if w.isEmpty then none else some w

/-- An operator: a hash and a name. -/
def operator? : List Char → Option (List Char)
  | '#' :: c :: cs => if isNameStart c then some ('#' :: c :: cs.takeWhile isNamePart) else none
  | _ => none

/-- A directive's bracket, hash and name. -/
def directiveHead : List Char → List Char
  | '[' :: '#' :: cs => '[' :: '#' :: cs.takeWhile isNameStart
  | _ => []

/-- The character that an escape in quotes stands for, if it is a known one. -/
def escape? : Char → Option Char
  | 'n' => some '\n'
  | 't' => some '\t'
  | '"' => some '"'
  | '\'' => some '\''
  | '\\' => some '\\'
  | _ => none

/-- A text in quotes: the characters taken with the opening quote, what they stand for, and
whether the closing quote was found on the same line. -/
structure Literal where
  taken : List Char
  value : List Char
  closed : Bool

/-- The literal behind its opening quote, up to the closing one or the end of the line. An
unknown escape stands for itself with its backslash. -/
def literalTail (quote : Char) : List Char → Literal
  | [] => ⟨[], [], false⟩
  | '\\' :: c :: cs =>
    let r := literalTail quote cs
    let v := match escape? c with
      | some e => [e]
      | none => ['\\', c]
    ⟨'\\' :: c :: r.taken, v ++ r.value, r.closed⟩
  | c :: cs =>
    if c == quote then ⟨[c], [], true⟩
    else if c == '\n' then ⟨[], [], false⟩
    else
      let r := literalTail quote cs
      ⟨c :: r.taken, c :: r.value, r.closed⟩

/-- A raw operator argument: the characters before the parenthesis that closes it, or before the
end of the line. -/
def rawArgument : (depth : Nat) → List Char → List Char
  | _, [] => []
  | depth, c :: cs =>
    if c == '\n' then []
    else if c == '(' then c :: rawArgument (depth + 1) cs
    else if c == ')' then
      match depth with
      | 0 => []
      | d + 1 => c :: rawArgument d cs
    else c :: rawArgument depth cs

end Stencil.Source
