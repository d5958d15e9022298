/-!
Looking for one text inside another, and cutting a text into lines.

Lines are counted in two ways: a display breaks at every line boundary that Unicode knows, while
positions in a source count newline characters alone.
-/

namespace Stencil.Text

/-- The rest of `cs` behind the beginning `w`, if it begins so. -/
def dropLead? : (w cs : List Char) → Option (List Char)
  | [], cs => some cs
  | _ :: _, [] => none
  | a :: w, c :: cs => if a == c then dropLead? w cs else none

/-- The parts of `cs` before and behind the first occurrence of `w`. -/
def cutAt? (w : List Char) : List Char → Option (List Char × List Char)
  | [] => if w.isEmpty then some ([], []) else none
  | c :: cs =>
    match dropLead? w (c :: cs) with
    | some rest => some ([], rest)
    | none => (cutAt? w cs).map fun (before, rest) => (c :: before, rest)

def startsWith (w s : String) : Bool := (dropLead? w.toList s.toList).isSome

def endsWith (w s : String) : Bool := (dropLead? w.toList.reverse s.toList.reverse).isSome

def hasText (w s : String) : Bool := (cutAt? w.toList s.toList).isSome

/-- The text with every occurrence of `w`, found from the left, exchanged for `by_`. -/
def replaceFuel (w by_ : List Char) : Nat → List Char → List Char
  | 0, cs => cs
  | n + 1, cs =>
    match cutAt? w cs with
    | none => cs
    | some (before, rest) => before ++ by_ ++ replaceFuel w by_ n rest

def replace (w by_ s : String) : String :=
  if w.isEmpty then s
  else String.ofList (replaceFuel w.toList by_.toList s.length s.toList)

/-- The texts with `sep` between neighbours. -/
def join (sep : String) (ts : List String) : String := sep.intercalate ts

/-- A character at which a display starts a new line. -/
def isLineBreak (c : Char) : Bool :=
  let n := c.toNat
  (0x0a ≤ n && n ≤ 0x0d) || (0x1c ≤ n && n ≤ 0x1e) || n == 0x85 || n == 0x2028 || n == 0x2029

/-- The display lines of the rest of a text, given the line being read in reverse. A break at
the very end opens no further line. -/
def displayLinesFrom : List Char → List Char → List (List Char)
  | [], [] => []
  | [], line => [line.reverse]
  | '\r' :: '\n' :: cs, line => line.reverse :: displayLinesFrom cs []
  | c :: cs, line =>
    if isLineBreak c then line.reverse :: displayLinesFrom cs []
    else displayLinesFrom cs (c :: line)

def displayLines (s : String) : List String :=
  (displayLinesFrom s.toList []).map String.ofList

/-- The pieces of a list between the elements that pass the test; always at least one. -/
def splitBy {α : Type} (p : α → Bool) : List α → List (List α)
  | [] => [[]]
  | a :: as =>
    if p a then [] :: splitBy p as
    else match splitBy p as with
      | [] => [[a]]
      | w :: ws => (a :: w) :: ws

/-- The pieces of a text between the occurrences of a character. -/
def splitAt (sep : Char) (s : String) : List String :=
  (splitBy (· == sep) s.toList).map String.ofList

def newlineLines (s : String) : List String := splitAt '\n' s

end Stencil.Text
