import Stencil.Console.Width
import Stencil.Text.Character
import Stencil.Text.Search
import Stencil.Text.Markup

/-!
Text on a console that is no terminal. Of its markup, a tag is dropped, since no styles are shown;
half of the backslashes before a tag stay, and an odd one keeps the tag as text. Then tabs become
blanks, some control characters are left out, and lines are broken at words where they are longer
than the console is wide.
-/

namespace Stencil.Console

/-! ### Markup -/

/-- A backslash before a bracket is dropped. -/
def dropEscapes : List Char → List Char
  | '\\' :: '[' :: cs => '[' :: dropEscapes cs
  | c :: cs => c :: dropEscapes cs
  | [] => []

/-- Several characters as a piece, if there are any. -/
def pieceOf (cs : List Char) : List (List Char) := if cs.isEmpty then [] else [cs]

/-- The pieces of text between tags; `before` is the piece being read, backwards and without the
`held` backslashes at its end. -/
def pieces (before : List Char) (held : Nat) : List Char → List (List Char)
  | [] => pieceOf (before.reverse ++ Text.slashes held)
  | '\\' :: cs => pieces before (held + 1) cs
  | '[' :: cs =>
    if Text.isTag cs then
      let tag := cs.takeWhile (· != ']')
      let kept := if held % 2 = 0 then [] else [('[' :: tag) ++ [']']]
      pieceOf before.reverse ++ pieceOf (Text.slashes (held / 2)) ++ kept ++
        pieces [] 0 (cs.drop (tag.length + 1))
    else pieces ('[' :: (Text.slashes held ++ before)) 0 cs
  | c :: cs => pieces (c :: (Text.slashes held ++ before)) 0 cs
termination_by cs => cs.length

/-- The text that markup shows. -/
def shown (markup : String) : String :=
  String.ofList ((pieces [] 0 markup.toList).flatMap dropEscapes)

/-- The columns of the console. -/
def columns : Nat := 80

/-- The columns between tab stops. -/
def tabStop : Nat := 8

/-- Bells, backspaces, vertical tabs, form feeds and carriage returns are not shown. -/
def isShown (c : Char) : Bool := !([7, 8, 11, 12, 13].contains c.toNat)

/-- A line with blanks in place of tabs, from a column on. -/
def expandTabs (column : Nat) : List Char → List Char
  | [] => []
  | '\t' :: cs =>
    let n := tabStop - column % tabStop
    List.replicate n ' ' ++ expandTabs (column + n) cs
  | c :: cs => c :: expandTabs (column + columnsOf c) cs

/-- A line without those blanks at its end that are too many for the console. -/
def trimLine (cs : List Char) : List Char :=
  let blanks := (cs.reverse.takeWhile Text.isBlank).length
  cs.take (cs.length - min blanks (cs.length - columns))

/-- A line cut off at so many columns; where a wide character would stand in the last one, a
blank does. -/
def cropTo : (room : Nat) → List Char → List Char
  | _, [] => []
  | n, c :: cs =>
    if columnsOf c ≤ n then c :: cropTo (n - columnsOf c) cs
    else List.replicate n ' '

/-- A word of a line with the blanks behind it, and those before it if it is the first. -/
abbrev Word := List Char

/-- The words of a line, given one being read, backwards; `ended` where blanks follow it. A line
of blanks has no words. -/
def wordsFrom : (word : List Char) → (ended : Bool) → List Char → List Word
  | word, _, [] => if word.all Text.isBlank then [] else [word.reverse]
  | word, ended, c :: cs =>
    if Text.isBlank c then wordsFrom (c :: word) (ended || word.any fun d => !Text.isBlank d) cs
    else if ended then word.reverse :: wordsFrom [c] false cs
    else wordsFrom (c :: word) false cs

def wordsOf (cs : List Char) : List Word := wordsFrom [] false cs

/-- A word in pieces that fit on a line, given the piece being read, backwards, and the columns
that it takes. -/
def chopFrom : (piece : List Char) → (used : Nat) → List Char → List (List Char)
  | piece, _, [] => [piece.reverse]
  | piece, used, c :: cs =>
    if columns < used + columnsOf c then piece.reverse :: chopFrom [c] (columnsOf c) cs
    else chopFrom (c :: piece) (used + columnsOf c) cs

def chop (w : Word) : List (List Char) := chopFrom [] 0 w

/-- Lines being filled with words: those that are full, last first, and the one that is not, with
the columns that it takes. -/
structure Filling where
  full : List (List Char) := []
  line : List Char := []
  used : Nat := 0

namespace Filling

/-- Put something on a line of its own. The first line has nothing before it that could be left
there. -/
def startLine (f : Filling) (piece : List Char) : Filling :=
  { full := if f.full.isEmpty && f.line.isEmpty then [] else f.line :: f.full, line := piece,
    used := width piece }

/-- Put a word behind the others: on the same line if it fits there, else on the next one, and
over several lines if it is longer than a line. -/
def add (f : Filling) (w : Word) : Filling :=
  let needed := width (w.reverse.dropWhile Text.isBlank)
  if f.used + needed ≤ columns then { f with line := f.line ++ w, used := f.used + width w }
  else if columns < needed then (chop w).foldl startLine f
  else f.startLine w

def lines (f : Filling) : List (List Char) := (f.line :: f.full).reverse

end Filling

/-- A line as the lines that it takes on the console. -/
def wrap (cs : List Char) : List (List Char) :=
  match wordsOf cs with
  | [] => [cs]
  | ws => (ws.foldl Filling.add {}).lines

/-- The lines of a text, without the characters that are not shown. -/
def shownLines (s : String) : List (List Char) :=
  (Text.newlineLines (String.ofList (s.toList.filter isShown))).map fun l => expandTabs 0 l.toList

def joinLines (ls : List (List Char)) : String :=
  "\n".intercalate (ls.map String.ofList) ++ "\n"

/-- The text as printed, long lines broken. -/
def printed (s : String) : String :=
  joinLines ((shownLines s).flatMap fun l => (wrap l).map fun l => cropTo columns (trimLine l))

/-- The text as printed with its lines as long as they are. -/
def printedWhole (s : String) : String := joinLines ((shownLines s).map trimLine)

end Stencil.Console
