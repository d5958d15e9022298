import Stencil.Yaml.Scalar

/-!
The tokens of a YAML text.

Whether a node is a key shows only at the colon behind it, so places where a key may start are
remembered, one for each depth of brackets, and the token that marks the key is put in front of it
afterwards. In blocks, columns take the place of brackets: a deeper column opens a collection, and
a column further left closes it.
-/

namespace Stencil.Yaml

/-- A place where a key may have started. -/
structure KeyPlace where
  /-- How many tokens stand before it. -/
  token : Nat
  /-- Nothing but a key can stand there. -/
  required : Bool
  index : Nat
  line : Nat
  column : Nat

structure Scanner where
  cursor : Cursor
  tokens : Array Token := #[]
  /-- How many brackets are open. -/
  flow : Nat := 0
  /-- The column of the innermost block collection, and those of the collections around it. -/
  indent : Int := -1
  outer : List Int := []
  /-- A key may start here. -/
  keyAllowed : Bool := true
  /-- The places where keys may have started, by depth of brackets. -/
  places : List (Nat × KeyPlace) := []

abbrev Scan := StateT Scanner (Except Fault)

namespace Scan

def refuse {α : Type} (what : String) : Scan α := throw (.malformed what)

def push (t : Token) : Scan Unit := modify fun s => { s with tokens := s.tokens.push t }

def moveTo (c : Cursor) : Scan Unit := modify fun s => { s with cursor := c }

def allowKey (b : Bool) : Scan Unit := modify fun s => { s with keyAllowed := b }

def lateKey {α : Type} : Scan α := refuse "a key lacks its colon"

/-- Give up the places where a key can no longer have started: keys stay on one line and are not
long. -/
def dropStale : Scan Unit := do
  let s ← get
  let isStale (p : KeyPlace) := p.line != s.cursor.line || 1024 < s.cursor.index - p.index
  if s.places.any fun e => isStale e.2 && e.2.required then lateKey
  set { s with places := s.places.filter fun e => !isStale e.2 }

/-- Give up the place in the present brackets. -/
def dropPlace : Scan Unit := do
  let s ← get
  match s.places.lookup s.flow with
  | some p =>
    if p.required then lateKey
    set { s with places := s.places.filter (·.1 != s.flow) }
  | none => return ()

/-- Remember that a key may start here. -/
def savePlace : Scan Unit := do
  if (← get).keyAllowed then
    dropPlace
    modify fun s =>
      let c := s.cursor
      let required := s.flow == 0 && s.indent == c.column
      { s with places := s.places ++
          [(s.flow, ⟨s.tokens.size, required, c.index, c.line, c.column⟩)] }

/-- Close the block collections that lie deeper than a column. -/
def unwind (column : Int) : (fuel : Nat) → Scan Unit
  | 0 => return ()
  | n + 1 => do
    let s ← get
    if s.flow == 0 && column < s.indent then
      set { s with tokens := s.tokens.push .blockEnd, indent := s.outer.headD (-1),
                   outer := s.outer.drop 1 }
      unwind column n

def unwindTo (column : Int) : Scan Unit := do unwind column ((← get).outer.length + 1)

/-- Open a block collection at a column, if it is deeper than the innermost one. -/
def deepen (column : Nat) : Scan Bool := do
  let s ← get
  if s.indent < column then
    set { s with indent := column, outer := s.indent :: s.outer }
    return true
  else return false

/-- Past a byte order mark at the start, blanks, comments and line ends. -/
def toNextToken : (fuel : Nat) → Scan Unit
  | 0 => return ()
  | n + 1 => do
    let c := skipComment (← get).cursor
    match lineBreak? c with
    | some (_, d) =>
      moveTo d
      if (← get).flow == 0 then allowKey true
      toNextToken n
    | none => moveTo c

/-- Pass `n` characters and add a token. -/
def mark (n : Nat) (t : Token) : Scan Unit := do
  moveTo ((← get).cursor.skip n)
  push t

/-! ### Names and tags -/

def isNameChar (c : Char) : Bool := c.isAlphanum || c == '-' || c == '_'

/-- A line that is an instruction for the reader. -/
def directiveName (c : Cursor) : Except Fault (String × Cursor) :=
  let (name, d) := c.span isNameChar
  if name.isEmpty || !endsMark d.peek then .error (.malformed "a directive has no name")
  else .ok (String.ofList name, d)

def versionNumber (c : Cursor) : Except Fault (Nat × Cursor) :=
  let (ds, d) := c.span Char.isDigit
  if ds.isEmpty then .error (.malformed "a version lacks a number")
  else .ok (Number.digitsValue (ds.map fun ch => ch.toNat - 48), d)

def isUriChar (c : Char) : Bool := c.isAlphanum || "-;/?:@&=+$,_.!~*'()[]".toList.contains c

/-- The bytes that stand escaped from here on. -/
def uriBytes : (fuel : Nat) → Cursor → Except Fault (List UInt8 × Cursor)
  | 0, c => .ok ([], c)
  | n + 1, c =>
    match c.rest with
    | '%' :: a :: b :: _ =>
      match Json.hexValue? a, Json.hexValue? b with
      | some x, some y => do
        let (bytes, d) ← uriBytes n (c.skip 3)
        return ((x * 16 + y).toUInt8 :: bytes, d)
      | _, _ => .error (.malformed "a tag's escape lacks digits")
    | '%' :: _ => .error (.malformed "a tag's escape lacks digits")
    | _ => .ok ([], c)

def uriFrom : (fuel : Nat) → Cursor → Except Fault (List Char × Cursor)
  | 0, c => .ok ([], c)
  | n + 1, c => do
    let (cs, d) := c.span isUriChar
    if d.sees '%' then
      let (bytes, d) ← uriBytes d.rest.length d
      match String.fromUTF8? ⟨bytes.toArray⟩ with
      | some s =>
        let (more, d) ← uriFrom n d
        return (cs ++ s.toList ++ more, d)
      | none => throw (.malformed "a tag's escapes are no text")
    else return (cs, d)

def uri (c : Cursor) : Except Fault (String × Cursor) := do
  let (cs, d) ← uriFrom (c.rest.length + 1) c
  if d.index == c.index then throw (.malformed "a tag is empty")
  return (String.ofList cs, d)

/-- A tag's handle: one exclamation mark, or two with a name between them. -/
def handle (c : Cursor) : Except Fault (String × Cursor) :=
  if !c.sees '!' then .error (.malformed "a tag's handle is missing")
  else if c.next.sees ' ' then .ok ("!", c.next)
  else
    let (name, d) := c.next.span isNameChar
    if d.sees '!' then .ok ("!" ++ String.ofList name ++ "!", d.next)
    else .error (.malformed "a tag's handle does not end")

def directiveRest (name : String) (c : Cursor) : Except Fault (Directive × Cursor) := do
  if name == "YAML" then
    let (major, d) ← versionNumber (c.dropWhile (· == ' '))
    if !d.sees '.' then throw (.malformed "a version lacks its point")
    let (minor, d) ← versionNumber d.next
    if !endsMark d.peek then throw (.malformed "a version goes on")
    return (.version major minor, d)
  else if name == "TAG" then
    let (h, d) ← handle (c.dropWhile (· == ' '))
    if !d.sees ' ' then throw (.malformed "a tag's handle goes on")
    let (lead, d) ← uri (d.dropWhile (· == ' '))
    if !endsMark d.peek then throw (.malformed "a tag goes on")
    return (.tag h lead, d)
  else return (.other, c.dropWhile (!isBreak ·))

def directive (c : Cursor) : Except Fault (Directive × Cursor) := do
  let (name, d) ← directiveName c.next
  let (found, d) ← directiveRest name d
  return (found, ← endOfLine d)

/-- The name behind a mark for an anchor or an alias. -/
def anchorName (c : Cursor) : Except Fault (String × Cursor) :=
  let (name, d) := c.next.span isNameChar
  if name.isEmpty then .error (.malformed "an anchor has no name")
  else if endsWord d.peek || (d.peek.any ("?:,]\x7d%@\x60".toList.contains ·)) then
    .ok (String.ofList name, d)
  else .error (.malformed "an anchor's name goes on")

/-- The tag has a handle: an exclamation mark before its end. -/
def hasHandle (cs : List Char) : Bool :=
  (cs.takeWhile fun c => !endsMark (some c)).contains '!'

def tag (c : Cursor) : Except Fault (TagMark × Cursor) := do
  let (found, d) ← match c.next.peek with
    | some '<' => do
      let (suffix, d) ← uri (c.skip 2)
      if !d.sees '>' then throw (.malformed "a tag does not end")
      pure (TagMark.mk none suffix, d.next)
    | ch =>
      if endsWord ch then pure (TagMark.mk none "!", c.next)
      else if hasHandle c.next.rest then do
        let (h, d) ← handle c
        let (suffix, d) ← uri d
        pure (TagMark.mk (some h) suffix, d)
      else do
        let (suffix, d) ← uri c.next
        pure (TagMark.mk (some "!") suffix, d)
  if !endsMark d.peek then throw (.malformed "a tag goes on")
  return (found, d)

/-! ### Tokens -/

def isSeparator (s : Scanner) (ch : Char) : Bool :=
  s.cursor.column == 0 && s.cursor.sees ch && atSeparator s.cursor

/-- A mark between documents, or the end: all block collections are closed. -/
def boundary (t : Token) (width : Nat) : Scan Unit := do
  unwindTo (-1)
  dropPlace
  allowKey false
  mark width t

def openBracket (t : Token) : Scan Unit := do
  savePlace
  modify fun s => { s with flow := s.flow + 1, keyAllowed := true }
  mark 1 t

def closeBracket (t : Token) : Scan Unit := do
  dropPlace
  if (← get).flow == 0 then refuse "a bracket was not opened"
  modify fun s => { s with flow := s.flow - 1, keyAllowed := false }
  mark 1 t

def flowEntry : Scan Unit := do
  allowKey true
  dropPlace
  mark 1 .flowEntry

/-- Open a block collection at a column in a block, where keys may start. -/
def enterBlock (t : Token) : Scan Unit := do
  let s ← get
  if s.flow == 0 then
    if !s.keyAllowed then refuse "a collection cannot start here"
    if ← deepen s.cursor.column then push t

def blockEntry : Scan Unit := do
  enterBlock .blockSequenceStart
  allowKey true
  dropPlace
  mark 1 .blockEntry

def explicitKey : Scan Unit := do
  enterBlock .blockMappingStart
  allowKey ((← get).flow == 0)
  dropPlace
  mark 1 .key

/-- The array with an element put in at a position. -/
def putAt (ts : Array Token) (i : Nat) (t : Token) : Array Token :=
  (ts.toList.take i ++ t :: ts.toList.drop i).toArray

/-- A colon: what stands at the remembered place was a key. -/
def value : Scan Unit := do
  let s ← get
  match s.places.lookup s.flow with
  | some p =>
    set { s with places := s.places.filter (·.1 != s.flow), tokens := putAt s.tokens p.token .key,
                 keyAllowed := false }
    if s.flow == 0 then
      if ← deepen p.column then
        modify fun s => { s with tokens := putAt s.tokens p.token .blockMappingStart }
  | none =>
    enterBlock .blockMappingStart
    allowKey (s.flow == 0)
    dropPlace
  mark 1 .value

/-- A token that a key can start with. -/
def content (read : Cursor → Except Fault (Token × Cursor)) : Scan Unit := do
  savePlace
  allowKey false
  let (t, c) ← read (← get).cursor
  moveTo c
  push t

def block (folded : Bool) : Scan Unit := do
  allowKey true
  dropPlace
  let s ← get
  let (text, c) ← blockScalar folded s.indent s.cursor
  moveTo c
  push (.scalar text false)

def quoted (double : Bool) : Scan Unit :=
  content fun c => (quotedScalar double c).map fun (text, d) => (.scalar text false, d)

def plain : Scan Unit := do
  savePlace
  let s ← get
  let (text, broken, c) := plainScalar (s.flow != 0) s.indent s.cursor
  allowKey broken
  moveTo c
  push (.scalar text true)

/-- The character starts a plain scalar. -/
def startsPlain (s : Scanner) (ch : Char) : Bool :=
  !(endsWord (some ch) || "-?:,[]\x7b\x7d#&*!|>'\"%@\x60".toList.contains ch) ||
    (!endsWord s.cursor.next.peek && (ch == '-' || (s.flow == 0 && (ch == '?' || ch == ':'))))

/-- Move on to the next token, and close what ends before it. -/
def settle : Scan Unit := do
  toNextToken ((← get).cursor.rest.length + 1)
  dropStale
  unwindTo (← get).cursor.column

/-- Add the token that starts here; false at the end. -/
def takeToken : Scan Bool := do
  let s ← get
  let flow := s.flow != 0
  let followedByBlank := endsWord s.cursor.next.peek
  match s.cursor.peek with
  | none =>
    boundary .streamEnd 0
    return false
  | some ch =>
    if ch == '%' && s.cursor.column == 0 then
      unwindTo (-1)
      dropPlace
      allowKey false
      let (d, c) ← directive s.cursor
      moveTo c
      push (.directive d)
    else if isSeparator s '-' then boundary .documentStart 3
    else if isSeparator s '.' then boundary .documentEnd 3
    else if ch == '[' then openBracket .flowSequenceStart
    else if ch == '\x7b' then openBracket .flowMappingStart
    else if ch == ']' then closeBracket .flowSequenceEnd
    else if ch == '\x7d' then closeBracket .flowMappingEnd
    else if ch == ',' then flowEntry
    else if ch == '-' && followedByBlank then blockEntry
    else if ch == '?' && (flow || followedByBlank) then explicitKey
    else if ch == ':' && (flow || followedByBlank) then value
    else if ch == '*' then content fun c => (anchorName c).map fun (n, d) => (.alias_ n, d)
    else if ch == '&' then content fun c => (anchorName c).map fun (n, d) => (.anchor n, d)
    else if ch == '!' then content fun c => (tag c).map fun (t, d) => (.tag t, d)
    else if ch == '|' && !flow then block false
    else if ch == '>' && !flow then block true
    else if ch == '\'' then quoted false
    else if ch == '"' then quoted true
    else if startsPlain s ch then plain
    else refuse "a character cannot start anything"
    return true

/-- One token, and those that columns call for before it; false at the end. -/
def step : Scan Bool := do
  settle
  takeToken

/-- Tokens up to the end. -/
def steps : (fuel : Nat) → Scan Unit
  | 0 => return ()
  | n + 1 => do if ← step then steps n

end Scan

/-- Characters that a text may hold. -/
def isAllowed (c : Char) : Bool :=
  let n := c.toNat
  n == 0x9 || n == 0xa || n == 0xd || (0x20 ≤ n && n ≤ 0x7e) || n == 0x85 ||
    (0xa0 ≤ n && n ≤ 0xd7ff) || (0xe000 ≤ n && n ≤ 0xfffd) || 0x10000 ≤ n

/-- The tokens of a text. A byte order mark in front of it does not count. -/
def tokenize (s : String) : Except Fault (List Token) := do
  let cs := s.toList
  if !cs.all isAllowed then throw (.malformed "a character is not allowed")
  let start : Cursor := { rest := cs }
  let start := if start.sees '\ufeff' then start.next else start
  let (_, done) ← (Scan.steps (cs.length + 1)).run { cursor := start }
  return done.tokens.toList

end Stencil.Yaml
