import Stencil.Text.Character
import Stencil.Text.Search

/-!
Files with variables for the environment. A line has a name, an equals sign and a value, which
may be in quotes and then go over several lines; a line that is not of this form is passed over.
A value may refer to other variables, `${NAME}`, with a value for where there is none,
`${NAME:-value}`.
-/

namespace Stencil.Settings.Env

/-- A line of the file: a name with the value it is given, if it is given one. -/
structure Line where
  name : String
  value : Option String
deriving DecidableEq

/-- Blanks that do not end a line. -/
def isSpace (c : Char) : Bool := Text.isBlank c && c != '\n' && c != '\r'

def isLineEnd (c : Char) : Bool := c == '\n' || c == '\r'

def skipSpaces (cs : List Char) : List Char := cs.dropWhile isSpace

/-- The rest behind a word that marks a variable as meant for other programs, too. -/
def skipExport (cs : List Char) : List Char :=
  match Text.dropLead? "export".toList cs with
  | some (c :: rest) => if isSpace c then skipSpaces rest else cs
  | _ => cs

/-- The name at the beginning of a line, none for a comment. -/
def takeName? : List Char → Option (Option String × List Char)
  | '#' :: cs => some (none, '#' :: cs)
  | '\'' :: cs =>
    let name := cs.takeWhile (· != '\'')
    match name, cs.drop name.length with
    | _ :: _, _ :: rest => some (some (String.ofList name), rest)
    | _, _ => none
  | cs =>
    let name := cs.takeWhile fun c => c != '=' && c != '#' && !Text.isBlank c
    if name.isEmpty then none else some (some (String.ofList name), cs.drop name.length)

/-- The length of the text up to the quote that closes it: the first without a backslash before
it, else the last of all. `read` characters have been read, the last of which is a backslash where
`escaped`; `last` is the length up to the last quote behind a backslash. -/
def closingAt (quote : Char) : (read : Nat) → (escaped : Bool) → (last : Option Nat) →
    List Char → Option Nat
  | _, _, last, [] => last
  | n, escaped, last, c :: cs =>
    if c == quote then
      if escaped then closingAt quote (n + 1) false (some n) cs else some n
    else closingAt quote (n + 1) (c == '\\') last cs

/-- What a backslash and a character stand for in single quotes. -/
def singleEscape : Char → Option Char
  | '\\' => some '\\'
  | '\'' => some '\''
  | _ => none

/-- What a backslash and a character stand for in double quotes. -/
def doubleEscape : Char → Option Char
  | '\\' => some '\\'
  | '\'' => some '\''
  | '"' => some '"'
  | 'a' => some (Char.ofNat 7)
  | 'b' => some (Char.ofNat 8)
  | 'f' => some (Char.ofNat 12)
  | 'n' => some '\n'
  | 'r' => some '\r'
  | 't' => some '\t'
  | 'v' => some (Char.ofNat 11)
  | _ => none

def unescape (meaning : Char → Option Char) : List Char → List Char
  | '\\' :: c :: cs =>
    match meaning c with
    | some d => d :: unescape meaning cs
    | none => '\\' :: unescape meaning (c :: cs)
  | c :: cs => c :: unescape meaning cs
  | [] => []

/-- The characters before a comment, which begins at a number sign behind a blank. -/
def beforeComment : List Char → List Char
  | [] => []
  | c :: cs =>
    if Text.isBlank c && ((c :: cs).dropWhile Text.isBlank).head? == some '#' then []
    else c :: beforeComment cs

def trimEnd (cs : List Char) : List Char := (cs.reverse.dropWhile Text.isBlank).reverse

/-- The value at the beginning of what follows the equals sign. -/
def takeValue? : List Char → Option (String × List Char)
  | '\'' :: cs => quoted '\'' singleEscape cs
  | '"' :: cs => quoted '"' doubleEscape cs
  | cs =>
    let text := cs.takeWhile fun c => !isLineEnd c
    some (String.ofList (trimEnd (beforeComment text)), cs.drop text.length)
where
  quoted (quote : Char) (meaning : Char → Option Char) (cs : List Char) :
      Option (String × List Char) :=
    (closingAt quote 0 false none cs).map fun n =>
      (String.ofList (unescape meaning (cs.take n)), cs.drop (n + 1))

/-- The rest behind a line that has nothing more but blanks and a comment. -/
def takeEnd? (cs : List Char) : Option (List Char) :=
  let cs := match skipSpaces cs with
    | '#' :: rest => rest.dropWhile fun c => !isLineEnd c
    | rest => rest
  match cs with
  | [] => some []
  | '\r' :: '\n' :: rest => some rest
  | c :: rest => if isLineEnd c then some rest else none

/-- What the rest of a line is skipped to. -/
def skipLine (cs : List Char) : List Char := (cs.dropWhile fun c => !isLineEnd c).drop 1

/-- The line at the beginning, if it has a name, and the rest. -/
def takeLine (cs : List Char) : Option Line × List Char :=
  let cs := skipExport cs
  match takeName? cs with
  | none => (none, skipLine cs)
  | some (name, rest) =>
    match skipSpaces rest with
    | '=' :: rest =>
      let rest := skipSpaces rest
      match takeValue? rest with
      | none => (none, skipLine rest)
      | some (value, rest) => finish name (some value) rest
    | rest => finish name none rest
where
  finish (name value : Option String) (rest : List Char) : Option Line × List Char :=
    match takeEnd? rest with
    | some rest => (name.map (⟨·, value⟩), rest)
    | none => (none, skipLine rest)

/-- The lines of a text; each takes at least one character. -/
def linesFrom : (fuel : Nat) → List Char → List Line
  | 0, _ => []
  | n + 1, cs =>
    match cs.dropWhile Text.isBlank with
    | [] => []
    | cs =>
      let (line, rest) := takeLine cs
      line.toList ++ linesFrom n rest

def lines (text : String) : List Line := linesFrom (text.length + 1) text.toList

/-- A piece of a value. -/
inductive Piece where
  | literal (c : Char)
  | reference (name : String) (fallback : Option String)

/-- A reference at the beginning, behind its dollar sign and brace, and the rest. -/
def takeReference? (cs : List Char) : Option (Piece × List Char) :=
  let name := cs.takeWhile fun c => c != '}' && c != ':'
  match cs.drop name.length with
  | '}' :: rest => some (.reference (String.ofList name) none, rest)
  | ':' :: '-' :: rest =>
    let fallback := rest.takeWhile (· != '}')
    match rest.drop fallback.length with
    | _ :: rest => some (.reference (String.ofList name) (some (String.ofList fallback)), rest)
    | [] => none
  | _ => none

/-- The pieces of a value; each takes at least one character. -/
def piecesFrom : (fuel : Nat) → List Char → List Piece
  | _, [] => []
  | 0, _ => []
  | n + 1, '$' :: '{' :: cs =>
    match takeReference? cs with
    | some (p, rest) => p :: piecesFrom n rest
    | none => .literal '$' :: piecesFrom n ('{' :: cs)
  | n + 1, c :: cs => .literal c :: piecesFrom n cs

def pieces (value : String) : List Piece := piecesFrom value.length value.toList

/-- A value with its references looked up. -/
def resolve (find : String → Option String) (value : String) : String :=
  String.join ((pieces value).map fun
    | .literal c => c.toString
    | .reference name fallback => (find name).getD (fallback.getD ""))

/-- The values of the lines so far under their names. -/
abbrev Known := List (String × Option String)

/-- Put a value under a name, in the place of an earlier one. -/
def Known.put (known : Known) (name : String) (value : Option String) : Known :=
  if known.any (·.1 == name) then known.map fun e => if e.1 == name then (name, value) else e
  else known ++ [(name, value)]

/-- What lines say in an environment, whose own variables count before those of the lines. A name
without a value is one whose value is empty for references to it. -/
def known (environment : List (String × String)) (ls : List Line) : Known :=
  ls.foldl
    (fun acc l =>
      let find (name : String) : Option String :=
        (environment.lookup name).or ((acc.lookup name).map (·.getD ""))
      acc.put l.name (l.value.map (resolve find)))
    []

/-- The names that a piece refers to. -/
def Piece.names : Piece → List String
  | .literal _ => []
  | .reference name _ => [name]

/-- The names that lines give values to or refer to. -/
def names (ls : List Line) : List String :=
  ls.flatMap fun l => l.name :: ((l.value.map pieces).getD []).flatMap Piece.names

/-- The environment with the variables of a file that it does not have. -/
def extended (environment : List (String × String)) (text : String) : List (String × String) :=
  environment ++ (known environment (lines text)).filterMap fun (name, value) =>
    if (environment.lookup name).isSome then none else value.map (name, ·)

end Stencil.Settings.Env
