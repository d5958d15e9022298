import Stencil.Yaml.Cursor
import Stencil.Json.Reader

/-!
The three kinds of scalars: blocks, quoted ones and plain ones. Each reader starts at the first
character and comes back with the text and the place behind it.
-/

namespace Stencil.Yaml

/-! ### Blocks -/

/-- What happens to the line ends at the end of a block. -/
inductive Chomping where
  | clip
  | strip
  | keep
deriving DecidableEq

def chomping? : Option Char → Option Chomping
  | some '+' => some .keep
  | some '-' => some .strip
  | _ => none

def depth? (c : Option Char) : Option Nat :=
  c.bind fun ch => if ch.isDigit then some (ch.toNat - 48) else none

/-- The marks behind the character that opens a block: chomping and depth, in either order. -/
def blockMarks (c : Cursor) : Except Fault (Chomping × Option Nat × Cursor) := do
  let (chomping, depth, c) :=
    match chomping? c.peek with
    | some ch =>
      match depth? c.next.peek with
      | some d => (ch, some d, c.skip 2)
      | none => (ch, none, c.next)
    | none =>
      match depth? c.peek with
      | some d =>
        match chomping? c.next.peek with
        | some ch => (ch, some d, c.skip 2)
        | none => (.clip, some d, c.next)
      | none => (.clip, none, c)
  if depth == some 0 then throw (.malformed "a block's depth cannot be zero")
  if !endsMark c.peek then throw (.malformed "a block's marks are followed by something else")
  return (chomping, depth, c)

/-- Past the rest of a line that may hold a comment and nothing else. -/
def endOfLine (c : Cursor) : Except Fault Cursor :=
  let c := skipComment c
  if endsLine c.peek then
    match lineBreak? c with
    | some (_, d) => .ok d
    | none => .ok c
  else .error (.malformed "a line goes on where it should end")

/-- The empty lines in front of a block whose depth is not given, and how deep they reach. -/
def leadingBreaks : (fuel : Nat) → (breaks : List Char) → (depth : Nat) → Cursor →
    List Char × Nat × Cursor
  | 0, breaks, depth, c => (breaks, depth, c)
  | n + 1, breaks, depth, c =>
    if c.sees ' ' then leadingBreaks n breaks (max depth c.next.column) c.next
    else
      match lineBreak? c with
      | some (b, d) => leadingBreaks n (breaks ++ [b]) depth d
      | none => (breaks, depth, c)

/-- Past the blanks up to a depth. -/
def indentTo (depth : Nat) : (fuel : Nat) → Cursor → Cursor
  | 0, c => c
  | n + 1, c => if c.column < depth && c.sees ' ' then indentTo depth n c.next else c

/-- The empty lines between the lines of a block. -/
def innerBreaks (depth : Nat) : (fuel : Nat) → (breaks : List Char) → Cursor →
    List Char × Cursor
  | 0, breaks, c => (breaks, c)
  | n + 1, breaks, c =>
    let c := indentTo depth c.rest.length c
    match lineBreak? c with
    | some (b, d) => innerBreaks depth n (breaks ++ [b]) d
    | none => (breaks, c)

def isBlankChar (c : Option Char) : Bool := c == some ' ' || c == some '\t'

/-- The lines of a block from one that is deep enough: the text so far in reverse, the last line
end and the empty lines behind it. In a folded block a single line end between two lines becomes
a blank. -/
def blockLines (folded : Bool) (depth : Nat) : (fuel : Nat) → (text breaks : List Char) →
    (lastBreak : List Char) → Cursor → List Char × List Char × List Char × Cursor
  | 0, text, breaks, lastBreak, c => (text, lastBreak, breaks, c)
  | n + 1, text, breaks, lastBreak, c =>
    if c.column == depth && c.peek.isSome then
      let full := !isBlankChar c.peek
      let (line, afterLine) := c.span (!isBreak ·)
      let (lastBreak, next) := match lineBreak? afterLine with
        | some (b, d) => ([b], d)
        | none => ([], afterLine)
      let (inner, next) := innerBreaks depth (next.rest.length + 1) [] next
      let text := line.reverseAux (breaks.reverseAux text)
      if next.column == depth && next.peek.isSome then
        let joint :=
          if folded && lastBreak == ['\n'] && full && !isBlankChar next.peek then
            if inner.isEmpty then [' '] else []
          else lastBreak
        blockLines folded depth n (joint ++ text) inner lastBreak next
      else (text, lastBreak, inner, next)
    else (text, lastBreak, breaks, c)

/-- A block scalar below the column `indent` of the collection that it stands in. -/
def blockScalar (folded : Bool) (indent : Int) (c : Cursor) : Except Fault (String × Cursor) := do
  let (chomping, depth, c) ← blockMarks c.next
  let c ← endOfLine c
  let least := max (indent + 1) 1
  let (depth, breaks, c) := match depth with
    | some d =>
      let depth := (least + d - 1).toNat
      let (breaks, c) := innerBreaks depth (c.rest.length + 1) [] c
      (depth, breaks, c)
    | none =>
      let (breaks, deepest, c) := leadingBreaks c.rest.length [] 0 c
      (max least.toNat deepest, breaks, c)
  let (text, lastBreak, breaks, c) := blockLines folded depth (c.rest.length + 1) [] breaks [] c
  let text := if chomping == .strip then text else lastBreak ++ text
  let text := if chomping == .keep then breaks.reverseAux text else text
  return (String.ofList text.reverse, c)

/-! ### Quoted scalars -/

/-- What a single character behind a backslash stands for. -/
def escapes : List (Char × Char) :=
  [('0', '\x00'), ('a', '\x07'), ('b', '\x08'), ('t', '\x09'), ('\t', '\x09'), ('n', '\x0a'),
   ('v', '\x0b'), ('f', '\x0c'), ('r', '\x0d'), ('e', '\x1b'), (' ', ' '), ('"', '"'),
   ('\\', '\\'), ('/', '/'), ('N', '\x85'), ('_', '\xa0'), ('L', '\u2028'), ('P', '\u2029')]

/-- How many digits follow the letter of a numeric escape. -/
def codeLength? : Char → Option Nat
  | 'x' => some 2
  | 'u' => some 4
  | 'U' => some 8
  | _ => none

def codeOf (ds : List Char) : Nat :=
  ds.foldl (fun n d => n * 16 + (Json.hexValue? d).getD 0) 0

/-- The character of a code; two halves of a pair count as one character. -/
def codeChar (code : Nat) (c : Cursor) : Except Fault (Char × Cursor) :=
  if 0x110000 ≤ code then
    .error (.unreadable "ValueError" "chr() arg not in range(0x110000)")
  else if 0xd800 ≤ code && code < 0xdc00 then
    match c.rest with
    | '\\' :: 'u' :: r =>
      let low := codeOf (r.take 4)
      if 0xdc00 ≤ low && low < 0xe000 then
        .ok (Char.ofNat (0x10000 + (code - 0xd800) * 1024 + (low - 0xdc00)), c.skip 6)
      else .ok ('\ufffd', c)
    | _ => .ok ('\ufffd', c)
  else if 0xd800 ≤ code && code < 0xe000 then .ok ('\ufffd', c)
  else .ok (Char.ofNat code, c)

/-- Past the empty lines inside a quoted scalar. -/
def quotedBreaks : (fuel : Nat) → (breaks : List Char) → Cursor → Except Fault (List Char × Cursor)
  | 0, breaks, c => .ok (breaks, c)
  | n + 1, breaks, c =>
    if atSeparator c then .error (.malformed "a document ends inside a quoted scalar")
    else
      let c := c.dropWhile fun ch => ch == ' ' || ch == '\t'
      match lineBreak? c with
      | some (b, d) => quotedBreaks n (breaks ++ [b]) d
      | none => .ok (breaks, c)

/-- What an escape stands for, from the character behind the backslash. -/
def escaped (c : Cursor) : Except Fault (List Char × Cursor) := do
  match c.peek with
  | none => throw (.malformed "an escape is cut off")
  | some ch =>
    match escapes.lookup ch with
    | some e => return ([e], c.next)
    | none =>
      match codeLength? ch with
      | some n =>
        let ds := c.next.rest.take n
        if ds.length < n || ds.any fun d => (Json.hexValue? d).isNone then
          throw (.malformed "an escape lacks digits")
        let (e, c) ← codeChar (codeOf ds) (c.next.skip n)
        return ([e], c)
      | none =>
        match lineBreak? c with
        | some (_, d) => quotedBreaks (d.rest.length + 1) [] d
        | none => throw (.malformed "an escape is unknown")

/-- Blanks and line ends inside a quoted scalar: a single line end becomes a blank. -/
def quotedBlanks (c : Cursor) : Except Fault (List Char × Cursor) := do
  let (blanks, c) := c.span fun ch => ch == ' ' || ch == '\t'
  match lineBreak? c with
  | some (b, d) =>
    let (breaks, d) ← quotedBreaks (d.rest.length + 1) [] d
    let first := if b != '\n' then [b] else if breaks.isEmpty then [' '] else []
    return (first ++ breaks, d)
  | none =>
    if c.peek.isNone then throw (.malformed "a quoted scalar does not end")
    return (blanks, c)

/-- A quoted scalar from behind its first quote, given the text so far in reverse. -/
def quotedFrom (double : Bool) : (fuel : Nat) → (text : List Char) → Cursor →
    Except Fault (List Char × Cursor)
  | 0, _, _ => .error (.malformed "a quoted scalar does not end")
  | n + 1, text, c =>
    match c.rest with
    | [] => .error (.malformed "a quoted scalar does not end")
    | '\'' :: '\'' :: _ =>
      if double then quotedFrom double n ('\'' :: text) c.next
      else quotedFrom double n ('\'' :: text) (c.skip 2)
    | ch :: _ =>
      if ch == (if double then '"' else '\'') then .ok (text, c.next)
      else if double && ch == '\\' then
        match escaped c.next with
        | .ok (e, d) => quotedFrom double n (e.reverseAux text) d
        | .error f => .error f
      else if ch == ' ' || ch == '\t' || isBreak ch then
        match quotedBlanks c with
        | .ok (e, d) => quotedFrom double n (e.reverseAux text) d
        | .error f => .error f
      else quotedFrom double n (ch :: text) c.next

def quotedScalar (double : Bool) (c : Cursor) : Except Fault (String × Cursor) := do
  let (text, d) ← quotedFrom double (c.rest.length + 1) [] c.next
  return (String.ofList text.reverse, d)

/-! ### Plain scalars -/

/-- The character at a place ends a plain scalar's word. -/
def endsPlain (flow : Bool) : List Char → Bool
  | [] => true
  | ch :: r =>
    endsWord (some ch) ||
      (ch == ':' && (endsWord r.head? || (flow && (r.head?.any (",[]\x7b\x7d".toList.contains ·))))) ||
      (flow && ",?[]\x7b\x7d".toList.contains ch)

/-- The characters of a plain scalar up to a blank or what ends it. -/
def plainWord (flow : Bool) : List Char → List Char
  | [] => []
  | ch :: r => if endsPlain flow (ch :: r) then [] else ch :: plainWord flow r

/-- The blanks and line ends between two words of a plain scalar. -/
structure Gap where
  /-- What stands for the gap in the text. -/
  text : List Char
  /-- The gap holds a line end. -/
  broken : Bool
  behind : Cursor

/-- The empty lines in a gap; none at all when a document ends there. -/
def gapBreaks : (fuel : Nat) → (breaks : List Char) → Cursor → Option (List Char) × Cursor
  | 0, breaks, c => (some breaks, c)
  | n + 1, breaks, c =>
    if c.sees ' ' then gapBreaks n breaks c.next
    else
      match lineBreak? c with
      | some (b, d) => if atSeparator d then (none, d) else gapBreaks n (breaks ++ [b]) d
      | none => (some breaks, c)

def gap (c : Cursor) : Gap :=
  let (blanks, c) := c.span (· == ' ')
  match lineBreak? c with
  | some (b, d) =>
    if atSeparator d then ⟨[], true, d⟩
    else
      match gapBreaks (d.rest.length + 1) [] d with
      | (none, e) => ⟨[], true, e⟩
      | (some breaks, e) =>
        ⟨(if b != '\n' then [b] else if breaks.isEmpty then [' '] else []) ++ breaks, true, e⟩
  | none => ⟨blanks, false, c⟩

/-- The words of a plain scalar, given the text so far in reverse; also whether a line end follows
the last one. -/
def plainFrom (flow : Bool) (indent : Int) : (fuel : Nat) → (text between : List Char) →
    (broken : Bool) → Cursor → List Char × Bool × Cursor
  | 0, text, _, broken, c => (text, broken, c)
  | n + 1, text, between, broken, c =>
    let word := plainWord flow c.rest
    if c.sees '#' || word.isEmpty then (text, broken, c)
    else
      let text := word.reverseAux (between.reverseAux text)
      let g := gap (c.skip word.length)
      if g.text.isEmpty || g.behind.sees '#' || (!flow && (g.behind.column : Int) < indent) then
        (text, g.broken, g.behind)
      else plainFrom flow indent n text g.text g.broken g.behind

/-- A plain scalar inside the collection at column `indent`; also whether it ends with a line. -/
def plainScalar (flow : Bool) (indent : Int) (c : Cursor) : String × Bool × Cursor :=
  let (text, broken, d) := plainFrom flow (indent + 1) (c.rest.length + 1) [] [] false c
  (String.ofList text.reverse, broken, d)

end Stencil.Yaml
