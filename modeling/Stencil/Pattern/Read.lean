import Stencil.Pattern.Basic
import Stencil.Text.Quoted
import Stencil.Text.Identifier
import Stencil.Number.Decimal

/-!
Reading regular expressions. A pattern that cannot be read is refused with a message and the
place that it is about.
-/

namespace Stencil.Pattern

/-- Why a pattern is refused. -/
inductive Fault where
  | malformed (message : String) (place : Option Nat)
  | hugeRepetition
deriving DecidableEq

/-- One unit of a pattern: a character, or a backslash and the character behind it. -/
abbrev Piece := List Char

/-- The flags that are spoken of in a pattern. -/
inductive Flag where
  | ignoreCase
  | locale
  | multiline
  | dotAll
  | verbose
  | ascii
  | unicode
  | template
deriving DecidableEq

def flag? : Piece → Option Flag
  | ['i'] => some .ignoreCase
  | ['L'] => some .locale
  | ['m'] => some .multiline
  | ['s'] => some .dotAll
  | ['x'] => some .verbose
  | ['a'] => some .ascii
  | ['u'] => some .unicode
  | ['t'] => some .template
  | _ => none

def Flag.isType : Flag → Bool
  | ascii | locale | unicode => true
  | _ => false

def Flags.turn (on : Bool) (f : Flags) : Flag → Flags
  | .ignoreCase => { f with ignoreCase := on }
  | .multiline => { f with multiline := on }
  | .dotAll => { f with dotAll := on }
  | .verbose => { f with verbose := on }
  | .ascii => { f with ascii := on }
  | .unicode => { f with ascii := !on }
  | .locale | .template => f

/-- What reading keeps: the characters not yet read and how many were, the named groups, the
widths of the closed groups (`none` for an open one), and where numbers of groups are asked for.
-/
structure Reader where
  rest : List Char
  taken : Nat
  total : Nat
  flags : Flags := {}
  names : List (String × Nat) := []
  widths : List (Option Width) := []
  /-- Inside a look-behind: the number of groups before it. -/
  behind : Option Nat := none
  asked : List (Nat × Nat) := []
  /-- Some look-behind takes no fixed number of characters. -/
  loose : Bool := false

abbrev Read := StateT Reader (Except Fault)

def Reader.next (r : Reader) : Option Piece :=
  match r.rest with
  | [] => none
  | '\\' :: c :: _ => some ['\\', c]
  | c :: _ => some [c]

/-- Refuse the pattern because of what stands `back` characters before the next piece. -/
def refuse {α : Type} (message : String) (back : Nat := 0) : Read α := do
  throw (.malformed message (some ((← get).taken - back)))

def peek : Read (Option Piece) := return (← get).next

/-- A lone backslash ends the pattern. -/
def checkEnd (rest : List Char) (total : Nat) : Except Fault Unit :=
  if rest == ['\\'] then .error (.malformed "bad escape (end of pattern)" (some (total - 1)))
  else .ok ()

/-- Read the next piece. -/
def take : Read (Option Piece) := do
  let r ← get
  match r.next with
  | none => return none
  | some p =>
    let rest := r.rest.drop p.length
    checkEnd rest r.total
    set { r with rest := rest, taken := r.taken + p.length }
    return some p

/-- Read the next piece if it is the character. -/
def accept (c : Char) : Read Bool := do
  if (← peek) == some [c] then
    let _ ← take
    return true
  else return false

def tell : Read Nat := return (← get).taken

def isAscii (p : Char → Bool) : Option Piece → Bool
  | some [c] => p c
  | _ => false

def isHex (c : Char) : Bool :=
  ('0' ≤ c && c ≤ '9') || ('a' ≤ c && c ≤ 'f') || ('A' ≤ c && c ≤ 'F')

def isOctal (c : Char) : Bool := '0' ≤ c && c ≤ '7'

def isDecimal (c : Char) : Bool := '0' ≤ c && c ≤ '9'

/-- Read at most `n` characters that pass the test. -/
def takeWhileUpTo (p : Char → Bool) : (n : Nat) → Read (List Char)
  | 0 => return []
  | n + 1 => do
    match ← peek with
    | some [c] =>
      if p c then
        let _ ← take
        return c :: (← takeWhileUpTo p n)
      else return []
    | _ => return []

/-- Read a name up to a terminator, which is read too. -/
def takeUntil (terminator : Char) (what : String) : (fuel : Nat) → List Char → Read (List Char)
  | 0, _ => refuse ("missing " ++ what)
  | n + 1, found => do
    match ← take with
    | none =>
      if found.isEmpty then refuse ("missing " ++ what)
      else
        refuse ("missing " ++ String.ofList [terminator] ++ ", unterminated name") found.length
    | some p =>
      if p == [terminator] then
        if found.isEmpty then refuse ("missing " ++ what) 1 else return found
      else takeUntil terminator what n (found ++ p)

def name (terminator : Char) : Read String := do
  return String.ofList (← takeUntil terminator "group name" ((← get).rest.length + 1) [])

def radixValue (radix : Nat) (cs : List Char) : Nat :=
  cs.foldl (fun n c => n * radix +
    (if isDecimal c then c.toNat - 48 else if c.toNat < 97 then c.toNat - 55 else c.toNat - 87)) 0

/-- What an escape stands for. -/
inductive Escape where
  | code (n : Nat)
  | category (c : Category) (inside : Bool)
  | anchor (a : Anchor)
  | back (number : Nat)

/-- Escapes of one letter for control characters and the backslash. -/
def controlEscape? : Char → Option Nat
  | 'a' => some 7
  | 'f' => some 12
  | 'n' => some 10
  | 'r' => some 13
  | 't' => some 9
  | 'v' => some 11
  | '\\' => some 92
  | _ => none

def categoryEscape? : Char → Option Escape
  | 'd' => some (.category .digit true)
  | 'D' => some (.category .digit false)
  | 's' => some (.category .blank true)
  | 'S' => some (.category .blank false)
  | 'w' => some (.category .word true)
  | 'W' => some (.category .word false)
  | _ => none

def anchorEscape? (ascii : Bool) : Char → Option Escape
  | 'A' => some (.anchor .start)
  | 'Z' => some (.anchor .finish)
  | 'b' => some (.anchor (.boundary true ascii))
  | 'B' => some (.anchor (.boundary false ascii))
  | _ => none

def badEscape {α : Type} (written : List Char) : Read α :=
  refuse ("bad escape " ++ String.ofList written) written.length

def octalTooLarge {α : Type} (written : List Char) : Read α :=
  refuse ("octal escape value " ++ String.ofList written ++ " outside of range 0-0o377")
    written.length

/-- An escape of `n` hexadecimal digits behind its letter. -/
def hexEscape (letter : Char) (n : Nat) : Read Escape := do
  let ds ← takeWhileUpTo isHex n
  let written := '\\' :: letter :: ds
  if ds.length != n then
    refuse ("incomplete escape " ++ String.ofList written) written.length
  else
    let v := radixValue 16 ds
    if 0x10ffff < v then badEscape written else return .code v

def namedEscape : Read Escape := do
  if !(← accept '\x7b') then refuse "missing \x7b"
  else
    let cs ← takeUntil '\x7d' "character name" ((← get).rest.length + 1) []
    refuse ("undefined character name " ++ Text.quoted (String.ofList cs)) (cs.length + 4)

/-- A character behind a backslash that has no further meaning. -/
def plainEscape (c : Char) : Read Escape :=
  if c.isAlpha then badEscape ['\\', c] else return .code c.toNat

/-- An escape inside a set. -/
def setEscape (c : Char) : Read Escape := do
  if c == 'b' then return .code 8
  match controlEscape? c, categoryEscape? c with
  | some n, _ => return .code n
  | _, some e => return e
  | _, _ =>
    if c == 'x' then hexEscape c 2
    else if c == 'u' then hexEscape c 4
    else if c == 'U' then hexEscape c 8
    else if c == 'N' then namedEscape
    else if isOctal c then
      let ds := c :: (← takeWhileUpTo isOctal 2)
      let v := radixValue 8 ds
      if 0o377 < v then octalTooLarge ('\\' :: ds) else return .code v
    else if isDecimal c then badEscape ['\\', c]
    else plainEscape c

/-- The group is closed, so that it can be referred to. -/
def Reader.closed (r : Reader) (number : Nat) : Bool :=
  0 < number && ((r.widths[number - 1]?).getD none).isSome

/-- Inside a look-behind only groups from before it can be referred to. -/
def checkBehind (number : Nat) : Read Unit := do
  let r ← get
  match r.behind with
  | none => return ()
  | some n =>
    if !r.closed number then refuse "cannot refer to an open group"
    else if n < number then
      refuse "cannot refer to group defined in the same lookbehind subpattern"
    else return ()

/-- A reference to a group by number. -/
def groupEscape (ds : List Char) : Read Escape := do
  let n := radixValue 10 ds
  let r ← get
  if n ≤ r.widths.length then
    if !r.closed n then refuse "cannot refer to an open group" (ds.length + 1)
    else
      checkBehind n
      return .back n
  else refuse ("invalid group reference " ++ Number.natText n) ds.length

/-- An escape outside sets. -/
def escape (c : Char) : Read Escape := do
  match categoryEscape? c, anchorEscape? (← get).flags.ascii c, controlEscape? c with
  | some e, _, _ => return e
  | _, some e, _ => return e
  | _, _, some n => return .code n
  | _, _, _ =>
    if c == 'x' then hexEscape c 2
    else if c == 'u' then hexEscape c 4
    else if c == 'U' then hexEscape c 8
    else if c == 'N' then namedEscape
    else if c == '0' then return .code (radixValue 8 (← takeWhileUpTo isOctal 2))
    else if isDecimal c then
      match ← takeWhileUpTo isDecimal 1 with
      | [d] =>
        if isOctal c && isOctal d && isAscii isOctal (← peek) then
          let ds := c :: d :: (← takeWhileUpTo isOctal 1)
          let v := radixValue 8 ds
          if 0o377 < v then octalTooLarge ('\\' :: ds) else return .code v
        else groupEscape [c, d]
      | _ => groupEscape [c]
    else plainEscape c

/-! ### Sets -/

def Escape.member : Escape → Member
  | code n => .code n
  | category c inside => .category c inside
  | anchor _ => .code 0
  | back n => .code n

/-- One member of a set as it is written, and what it stands for. -/
def setItem (p : Piece) : Read Escape :=
  match p with
  | ['\\', c] => setEscape c
  | c :: _ => return .code c.toNat
  | [] => return .code 0

/-- The members of a set up to its closing bracket; `here` is the place of the opening one. -/
def setMembers (here : Nat) : (fuel : Nat) → List Member → Read (List Member)
  | 0, found => return found
  | n + 1, found => do
    match ← take with
    | none => refuse "unterminated character set" ((← tell) - here)
    | some p =>
      if p == [']'] && !found.isEmpty then return found
      else
        let first ← setItem p
        if ← accept '-' then
          match ← take with
          | none => refuse "unterminated character set" ((← tell) - here)
          | some [']'] => return found ++ [first.member, .code '-'.toNat]
          | some q =>
            let second ← setItem q
            let bad : Read (List Member) :=
              refuse ("bad character range " ++ String.ofList p ++ "-" ++ String.ofList q)
                (p.length + 1 + q.length)
            match first, second with
            | .code lo, .code hi =>
              if hi < lo then bad else setMembers here n (found ++ [.range lo hi])
            | _, _ => bad
        else setMembers here n (found ++ [first.member])

def bracketSet : Read Test := do
  let here := (← tell) - 1
  let negated ← accept '^'
  let members ← setMembers here ((← get).rest.length + 1) []
  return .set (!negated) members

/-! ### Repetitions -/

/-- An item of a sequence, with what matters for the repetition that may follow it. -/
structure Item where
  regex : Regex
  width : Width
  isAnchor : Bool := false
  isRepetition : Bool := false

/-- Counts from this on are refused. -/
def repetitionLimit : Nat := 4294967295

/-- The bounds behind an opening brace, if they are well formed. -/
def braceBounds? (cs : List Char) : Option (List Char × List Char × Nat) :=
  let lo := cs.takeWhile isDecimal
  let rest := cs.dropWhile isDecimal
  match rest with
  | ',' :: more =>
    let hi := more.takeWhile isDecimal
    match more.dropWhile isDecimal with
    | '\x7d' :: _ => some (lo, hi, lo.length + 1 + hi.length + 1)
    | _ => none
  | '\x7d' :: _ => if lo.isEmpty then none else some (lo, lo, lo.length + 1)
  | _ => none

/-- Read `n` single characters. -/
def skip : (n : Nat) → Read Unit
  | 0 => return ()
  | n + 1 => do
    let _ ← take
    skip n

/-- The bounds of a repetition whose mark was just read; `none` if a brace is a plain one. -/
def bounds (mark : Char) : Read (Option (Nat × Option Nat)) := do
  if mark == '?' then return some (0, some 1)
  else if mark == '*' then return some (0, none)
  else if mark == '+' then return some (1, none)
  else
    match braceBounds? (← get).rest with
    | none => return none
    | some (lo, hi, length) =>
      let here ← tell
      skip length
      let min := radixValue 10 lo
      if repetitionLimit ≤ min then throw .hugeRepetition
      if hi.isEmpty then return some (min, none)
      else
        let max := radixValue 10 hi
        if repetitionLimit ≤ max then throw .hugeRepetition
        if max < min then refuse "min repeat greater than max repeat" ((← tell) - here)
        else return some (min, some max)

/-- The mark that says how often a repetition is tried. -/
def takeGreed : Read Greed := do
  if ← accept '?' then return .least
  if ← accept '+' then return .possessive
  return .most

/-- The items with the last one repeated; `here` is the place behind the repetition's mark. -/
def repeatLast (here : Nat) (lo : Nat) (hi : Option Nat) (items : List Item) :
    Read (List Item) := do
  let back := (← tell) - here + 1
  match items.getLast? with
  | none => refuse "nothing to repeat" back
  | some last =>
    if last.isAnchor then refuse "nothing to repeat" back
    else if last.isRepetition then refuse "multiple repeat" back
    else
      let greed ← takeGreed
      return items.dropLast ++
        [{ regex := .rep greed lo hi last.regex, width := last.width.times lo hi,
           isRepetition := true }]

/-! ### Groups -/

/-- Flags turned on and off by a group. -/
structure Turned where
  on : List Flag
  off : List Flag

def isLetter : Piece → Bool
  | [c] => c.isAlpha || (128 ≤ c.toNat && Text.isLetterOrNumber c && !Text.isDigit c)
  | _ => false

/-- The flags from `p` on up to what ends them, which is given back. -/
def flagsOn : (fuel : Nat) → List Flag → Piece → Read (List Flag × Piece)
  | 0, _, _ => refuse "missing -, : or )"
  | n + 1, found, p => do
    match flag? p with
    | none => refuse "missing -, : or )"
    | some f =>
      if f == .locale then
        refuse "bad inline flags: cannot use 'L' flag with a str pattern"
      else if f.isType && found.any fun g => g.isType && g != f then
        refuse "bad inline flags: flags 'a', 'u' and 'L' are incompatible"
      else
        let found := found ++ [f]
        match ← take with
        | none => refuse "missing -, : or )"
        | some q =>
          if q == [')'] || q == ['-'] || q == [':'] then return (found, q)
          else if (flag? q).isSome then flagsOn n found q
          else
            refuse (if isLetter q then "unknown flag" else "missing -, : or )") q.length

/-- The flags behind a minus, up to the colon. -/
def flagsOff : (fuel : Nat) → List Flag → Piece → Read (List Flag)
  | 0, _, _ => refuse "missing :"
  | n + 1, found, p => do
    match flag? p with
    | none => refuse "missing :"
    | some f =>
      if f.isType then
        refuse "bad inline flags: cannot turn off flags 'a', 'u' and 'L'"
      else
        let found := found ++ [f]
        match ← take with
        | none => refuse "missing :"
        | some q =>
          if q == [':'] then return found
          else if (flag? q).isSome then flagsOff n found q
          else refuse (if isLetter q then "unknown flag" else "missing :") q.length

/-- The flags of a group from `p` on; without a group of their own they are for the whole
pattern. -/
def groupFlags (p : Piece) : Read (Turned × Bool) := do
  let fuel := (← get).rest.length + 1
  let (on, stop) ← if p == ['-'] then pure ([], p) else flagsOn fuel [] p
  if stop == [')'] then return (⟨on, []⟩, true)
  else if on.contains .template then
    refuse "bad inline flags: cannot turn on global flag" 1
  else
    let off ←
      if stop == ['-'] then
        match ← take with
        | none => refuse "missing flag"
        | some q =>
          if (flag? q).isSome then flagsOff fuel [] q
          else refuse (if isLetter q then "unknown flag" else "missing flag") q.length
      else pure []
    if off.contains .template then refuse "bad inline flags: cannot turn off global flag" 1
    else if on.any off.contains then refuse "bad inline flags: flag turned on and off" 1
    else return (⟨on, off⟩, false)

/-- Open a group with an optional name. -/
def openGroup (groupName : Option String) : Read Nat := do
  let r ← get
  let number := r.widths.length + 1
  match groupName with
  | none => set { r with widths := r.widths ++ [none] }
  | some s =>
    match r.names.lookup s with
    | some old =>
      refuse ("redefinition of group name " ++ Text.quoted s ++ " as group " ++
        Number.natText number ++ "; was group " ++ Number.natText old) (s.length + 1)
    | none => set { r with widths := r.widths ++ [none], names := r.names ++ [(s, number)] }
  return number

def closeGroup (number : Nat) (w : Width) : Read Unit :=
  modify fun r => { r with widths := r.widths.set (number - 1) (some w) }

def checkName (s : String) : Read Unit :=
  if Text.isIdentifier s then return ()
  else refuse ("bad character in group name " ++ Text.quoted s) (s.length + 1)

/-- The number of the group that a condition asks for. -/
def askedGroup (s : String) : Read Nat := do
  let number ←
    if Text.isIdentifier s then
      match (← get).names.lookup s with
      | some n => pure n
      | none => refuse ("unknown group name " ++ Text.quoted s) (s.length + 1)
    else
      match Number.readInt? s with
      | none => refuse ("bad character in group name " ++ Text.quoted s) (s.length + 1)
      | some v =>
        if v < 0 then refuse ("bad character in group name " ++ Text.quoted s) (s.length + 1)
        else if v == 0 then refuse "bad group number" (s.length + 1)
        else
          let n := v.toNat
          modify fun r =>
            if r.asked.any (·.1 == n) then r
            else { r with asked := r.asked ++ [(n, r.taken - s.length - 1)] }
          pure n
  checkBehind number
  return number

/-- The items in sequence. -/
def sequence (items : List Item) : Regex × Width :=
  (items.foldr (fun i r => .seq i.regex r) .empty,
    items.foldl (fun w i => w.add i.width) ⟨0, some 0⟩)

def closeOrRefuse (start : Nat) : Read Unit := do
  if !(← accept ')') then
    refuse "missing ), unterminated subpattern" ((← tell) - start)

/-- Skip a comment up to its closing parenthesis. -/
def skipComment (start : Nat) : (fuel : Nat) → Read Unit
  | 0 => return ()
  | n + 1 => do
    match ← peek with
    | none => refuse "missing ), unterminated comment" ((← tell) - start)
    | some p =>
      let _ ← take
      if p == [')'] then return () else skipComment start n

/-- Skip the rest of a line. -/
def skipLine : (fuel : Nat) → Read Unit
  | 0 => return ()
  | n + 1 => do
    match ← take with
    | none => return ()
    | some p => if p == ['\n'] then return () else skipLine n

/-- A reference to a named group, behind `(?P=`. -/
def namedBack : Read Item := do
  let s ← name ')'
  checkName s
  let r ← get
  match r.names.lookup s with
  | none => refuse ("unknown group name " ++ Text.quoted s) (s.length + 1)
  | some n =>
    if !r.closed n then refuse "cannot refer to an open group" (s.length + 1)
    else
      checkBehind n
      return { regex := .back n r.flags.ignoreCase,
               width := ((r.widths[n - 1]?).getD none).getD ⟨0, none⟩ }

/-- The item that an escape is. -/
def escapeItem (c : Char) : Read Item := do
  let flags := (← get).flags
  match ← escape c with
  | .code n => return { regex := .char (.code n) flags, width := ⟨1, some 1⟩ }
  | .category k inside =>
    return { regex := .char (.set true [.category k inside]) flags, width := ⟨1, some 1⟩ }
  | .anchor a => return { regex := .anchor a, width := ⟨0, some 0⟩, isAnchor := true }
  | .back n =>
    return { regex := .back n flags.ignoreCase,
             width := (((← get).widths[n - 1]?).getD none).getD ⟨0, none⟩ }

/-- What stands behind an opening parenthesis. -/
inductive Opening where
  | capture (groupName : Option String)
  | plain (turned : Turned)
  | atomic
  | look (behind positive : Bool)
  | condition (number : Nat)
  /-- It is read to its end and stands for nothing. -/
  | nothing
  | item (i : Item)

/-- Read what tells the kind of a group; `start` is the place of its parenthesis, and `first`
holds where flags for the whole pattern may stand. -/
def opening (start : Nat) (first : Bool) : Read Opening := do
  if !(← accept '?') then return .capture none
  else
    match ← take with
    | none => refuse "unexpected end of pattern"
    | some p =>
      if p == ['P'] then
        if ← accept '<' then
          let s ← name '>'
          checkName s
          return .capture (some s)
        else if ← accept '=' then return .item (← namedBack)
        else
          match ← take with
          | none => refuse "unexpected end of pattern"
          | some q => refuse ("unknown extension ?P" ++ String.ofList q) (q.length + 2)
      else if p == [':'] then return .plain ⟨[], []⟩
      else if p == ['#'] then
        skipComment start ((← get).rest.length + 1)
        return .nothing
      else if p == ['='] then return .look false true
      else if p == ['!'] then return .look false false
      else if p == ['<'] then
        match ← take with
        | none => refuse "unexpected end of pattern"
        | some ['='] => return .look true true
        | some ['!'] => return .look true false
        | some q => refuse ("unknown extension ?<" ++ String.ofList q) (q.length + 2)
      else if p == ['('] then return .condition (← askedGroup (← name ')'))
      else if p == ['>'] then return .atomic
      else if (flag? p).isSome || p == ['-'] then
        let (turned, whole) ← groupFlags p
        if whole then
          if !first then
            refuse "global flags not at the start of the expression" ((← tell) - start)
          else
            modify fun r => { r with flags := turned.on.foldl (Flags.turn true) r.flags }
            return .nothing
        else return .plain turned
      else refuse ("unknown extension ?" ++ String.ofList p) (p.length + 1)

mutual

/-- Alternatives up to the end of a group or of the pattern. -/
def alternatives (first : Bool) : (fuel : Nat) → Read (Regex × Width)
  | 0 => return (.empty, ⟨0, some 0⟩)
  | n + 1 => do
    let (r, w) ← sequence <$> sequenceItems first n []
    if ← accept '|' then
      let (r', w') ← alternatives false n
      return (.alt r r', w.join w')
    else return (r, w)

/-- The items up to a bar, the end of a group or the end of the pattern. -/
def sequenceItems (first : Bool) : (fuel : Nat) → List Item → Read (List Item)
  | 0, items => return items
  | n + 1, items => do
    match ← peek with
    | none => return items
    | some p =>
      if p == ['|'] || p == [')'] then return items
      else
        let _ ← take
        let flags := (← get).flags
        let unit (t : Test) : Item := { regex := .char t flags, width := ⟨1, some 1⟩ }
        let anchor (a : Anchor) : Item :=
          { regex := .anchor a, width := ⟨0, some 0⟩, isAnchor := true }
        match p with
        | ['\\', c] => sequenceItems first n (items ++ [← escapeItem c])
        | c :: _ =>
          if flags.verbose && (c == ' ' || (9 ≤ c.toNat && c.toNat ≤ 13)) then
            sequenceItems first n items
          else if flags.verbose && c == '#' then
            skipLine ((← get).rest.length + 1)
            sequenceItems first n items
          else if c == '[' then sequenceItems first n (items ++ [unit (← bracketSet)])
          else if c == '.' then sequenceItems first n (items ++ [unit (.any flags.dotAll)])
          else if c == '^' then
            sequenceItems first n (items ++ [anchor (.lineStart flags.multiline)])
          else if c == '$' then
            sequenceItems first n (items ++ [anchor (.lineEnd flags.multiline)])
          else if c == '*' || c == '+' || c == '?' || c == '\x7b' then
            let here ← tell
            match ← bounds c with
            | none => sequenceItems first n (items ++ [unit (.code c.toNat)])
            | some (lo, hi) => sequenceItems first n (← repeatLast here lo hi items)
          else if c == '(' then
            let more ← groupItem (first && items.isEmpty) n
            sequenceItems first n (items ++ more)
          else sequenceItems first n (items ++ [unit (.code c.toNat)])
        | [] => return items

/-- The item of a group whose parenthesis was just read. -/
def groupItem (first : Bool) : (fuel : Nat) → Read (List Item)
  | 0 => return []
  | n + 1 => do
    let start := (← tell) - 1
    match ← opening start first with
    | .nothing => return []
    | .item i => return [i]
    | .capture s =>
      let number ← openGroup s
      let flags := (← get).flags
      let (r, w) ← alternatives false n
      closeOrRefuse start
      closeGroup number w
      modify fun s => { s with flags := flags }
      return [{ regex := .group number r, width := w }]
    | .plain turned =>
      let flags := (← get).flags
      modify fun s => { s with
        flags := turned.off.foldl (Flags.turn false) (turned.on.foldl (Flags.turn true) s.flags) }
      let (r, w) ← alternatives false n
      closeOrRefuse start
      modify fun s => { s with flags := flags }
      return [{ regex := r, width := w }]
    | .atomic =>
      let (r, w) ← alternatives false n
      closeOrRefuse start
      return [{ regex := .atomic r, width := w }]
    | .look behind positive =>
      let outer := (← get).behind
      if behind && outer.isNone then
        modify fun s => { s with behind := some s.widths.length }
      let (r, w) ← alternatives false n
      modify fun s => { s with behind := outer }
      closeOrRefuse start
      if behind && w.most != some w.least then modify fun s => { s with loose := true }
      return [{ regex := .look (if behind then some w.least else none) positive r,
                width := ⟨0, some 0⟩ }]
    | .condition number =>
      let (yes, w) ← sequence <$> sequenceItems false n []
      let (no, w') ←
        if ← accept '|' then
          let pair ← sequence <$> sequenceItems false n []
          if (← peek) == some ['|'] then
            refuse "conditional backref with more than two branches"
          else pure pair
        else pure (Regex.empty, Width.mk 0 (some 0))
      closeOrRefuse start
      return [{ regex := .choose number yes no, width := w.join w' }]

end

/-- Read a whole pattern. -/
def readAll : Read Regex := do
  let (r, _) ← alternatives true (4 * (← get).rest.length + 4)
  if (← peek).isSome then refuse "unbalanced parenthesis"
  else
    let s ← get
    match s.asked.find? fun (n, _) => s.widths.length < n with
    | some (n, place) =>
      throw (.malformed ("invalid group reference " ++ Number.natText n) (some place))
    | none =>
      if s.loose then throw (.malformed "look-behind requires fixed-width pattern" none)
      else return r

end Pattern

namespace Regex

open Pattern

/-- The regular expression that a pattern is. -/
def read (pattern : String) : Except Fault Pattern.Regex := do
  let cs := pattern.toList
  checkEnd cs cs.length
  let (r, _) ← readAll.run { rest := cs, taken := 0, total := cs.length }
  return r

end Regex

namespace Pattern.Fault

/-- The message about a pattern, with line and column when it has several lines. -/
def message (pattern : String) : Fault → String
  | hugeRepetition => "the repetition number is too large"
  | malformed m none => m
  | malformed m (some place) =>
    let before := pattern.toList.take place
    let at_ := m ++ " at position " ++ Number.natText place
    if pattern.toList.contains '\n' then
      at_ ++ " (line " ++ Number.natText (before.count '\n' + 1) ++ ", column " ++
        Number.natText ((before.reverse.takeWhile (· != '\n')).length + 1) ++ ")"
    else at_

end Stencil.Pattern.Fault
