import Stencil.Text.Search

/-!
Texts made safe for markup: that of a console, with tags in square brackets, and XML.
-/

namespace Stencil.Text

/-- A bracket opens a tag when one of these follows. -/
def opensTag (c : Char) : Bool :=
  ('a' ≤ c && c ≤ 'z') || c == '#' || c == '/' || c == '@'

/-- What follows a bracket makes it a tag: no other bracket opens before one closes. -/
def isTag : List Char → Bool
  | [] => false
  | c :: cs => opensTag c && (cs.dropWhile fun d => d != '[' && d != ']').head? == some ']'

def slashes (n : Nat) : List Char := List.replicate n '\\'

/-- The characters with a backslash before each tag and the backslashes before it doubled;
`held` counts the backslashes just before. -/
def escapeTags : (held : Nat) → List Char → List Char
  | held, [] => slashes held
  | held, '\\' :: cs => escapeTags (held + 1) cs
  | held, '[' :: cs =>
    (if isTag cs then slashes (2 * held + 1) else slashes held) ++ '[' :: escapeTags 0 cs
  | held, c :: cs => slashes held ++ c :: escapeTags 0 cs

/-- The characters with a backslash that stands alone at the end doubled. -/
def escapeEnd (cs : List Char) : List Char :=
  match cs.reverse with
  | '\\' :: '\\' :: _ => cs
  | '\\' :: _ => cs ++ ['\\']
  | _ => cs

/-- A text that console markup shows as it is. -/
def escapeMarkup (s : String) : String := String.ofList (escapeEnd (escapeTags 0 s.toList))

/-- A character in the content of XML. -/
def xmlChar : Char → List Char
  | '&' => "&amp;".toList
  | '<' => "&lt;".toList
  | '>' => "&gt;".toList
  | c => [c]

def escapeXml (s : String) : String := String.ofList (s.toList.flatMap xmlChar)

/-- A character in an attribute, where line ends and tabs would not be kept. -/
def attributeChar : Char → List Char
  | '\n' => "&#10;".toList
  | '\r' => "&#13;".toList
  | '\t' => "&#9;".toList
  | c => xmlChar c

/-- A text as an attribute's value, in the quotes that it does not hold, else in double ones. -/
def quoteAttribute (s : String) : String :=
  let cs := s.toList.flatMap attributeChar
  if !cs.contains '"' then "\"" ++ String.ofList cs ++ "\""
  else if !cs.contains '\'' then "'" ++ String.ofList cs ++ "'"
  else "\"" ++ replace "\"" "&quot;" (String.ofList cs) ++ "\""

end Stencil.Text
