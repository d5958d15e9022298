import Stencil.Number.Rounded
import Stencil.Value.Show
import Stencil.Value.Equal
import Stencil.Failure

/-!
Messages with places for arguments. A place is a percent sign, a layout and a letter: `%s` takes
any value as text, `%5.2f` a number in five columns with two places behind the point. Places are
filled from left to right, and the first one that cannot be filled is the fault of the whole.
-/

namespace Stencil.Log

/-- A number in a layout: written out, absent, or taken from the arguments. -/
inductive Amount where
  | absent
  | given (n : Nat)
  | taken
  /-- More digits than a layout can have. -/
  | tooLarge
deriving DecidableEq

/-- What is between the percent sign and the letter. -/
structure Layout where
  left : Bool := false
  sign : Bool := false
  blank : Bool := false
  marked : Bool := false
  zeros : Bool := false
  width : Amount := .absent
  precision : Amount := .absent

/-- The rest of a message behind the layout of a place. -/
structure Place where
  layout : Layout
  /-- The letter, and the place of it in the message. -/
  letter : Option Char
  index : Nat
  rest : List Char

def takeFlags : Layout → List Char → Layout × List Char
  | l, '-' :: cs => takeFlags { l with left := true } cs
  | l, '+' :: cs => takeFlags { l with sign := true } cs
  | l, ' ' :: cs => takeFlags { l with blank := true } cs
  | l, '#' :: cs => takeFlags { l with marked := true } cs
  | l, '0' :: cs => takeFlags { l with zeros := true } cs
  | l, cs => (l, cs)

def isDigit (c : Char) : Bool := '0' ≤ c && c ≤ '9'

/-- An amount that is not larger than a limit. -/
def takeAmount (limit : Nat) : List Char → Amount × List Char
  | '*' :: cs => (.taken, cs)
  | cs =>
    let ds := cs.takeWhile isDigit
    let n := ds.foldl (fun n d => 10 * n + (d.toNat - 48)) 0
    let amount : Amount :=
      if ds.isEmpty then .absent else if limit < n then .tooLarge else .given n
    (amount, cs.drop ds.length)

def widthLimit : Nat := Nat.pow 2 63 - 1
def precisionLimit : Nat := Nat.pow 2 31 - 1

def takePrecision : List Char → Amount × List Char
  | '.' :: cs =>
    match takeAmount precisionLimit cs with
    | (.absent, cs) => (.given 0, cs)
    | r => r
  | cs => (.absent, cs)

/-- A letter for the size of a number, which says nothing here. -/
def dropSize : List Char → List Char
  | 'h' :: cs => cs
  | 'l' :: cs => cs
  | 'L' :: cs => cs
  | cs => cs

/-- Read a layout and its letter; `length` is that of the whole message. -/
def takePlace (length : Nat) (cs : List Char) : Place :=
  let (flags, cs) := takeFlags {} cs
  let (width, cs) := takeAmount widthLimit cs
  let (precision, cs) := takePrecision cs
  let cs := dropSize cs
  { layout := { flags with width, precision }, letter := cs.head?, index := length - cs.length,
    rest := cs.drop 1 }

/-- The key of a place and the rest, where brackets inside a key are closed. -/
def takeKey : (depth : Nat) → (key : List Char) → List Char → Option (String × List Char)
  | _, _, [] => none
  | d, key, '(' :: cs => takeKey (d + 1) ('(' :: key) cs
  | 0, key, ')' :: cs => some (String.ofList key.reverse, cs)
  | d + 1, key, ')' :: cs => takeKey d (')' :: key) cs
  | d, key, c :: cs => takeKey d (c :: key) cs

/-- Why a message cannot be filled. -/
inductive MessageFault where
  | unfinished
  | unfinishedKey
  | noMapping
  | noKey (key : String)
  | tooFew
  | tooMany
  | widthTooLarge
  | precisionTooLarge
  | badAmount
  | unknownLetter (letter : Char) (index : Nat)
  | notANumber (letter : Char) (kind : String)
  | notAnInteger (letter : Char) (kind : String)
  | notAReal (kind : String)
  | notACharacter
  | noSuchCharacter
  | infinite
  | noNumber
  | value (f : ValueFault)
deriving DecidableEq

namespace MessageFault

def message : MessageFault → String
  | unfinished => "incomplete format"
  | unfinishedKey => "incomplete format key"
  | noMapping => "format requires a mapping"
  | noKey key => Text.quoted key
  | tooFew => "not enough arguments for format string"
  | tooMany => "not all arguments converted during string formatting"
  | widthTooLarge => "width too big"
  | precisionTooLarge => "precision too big"
  | badAmount => "* wants int"
  | unknownLetter c i =>
    let shown := if 31 < c.toNat && c.toNat < 126 then c else '?'
    "unsupported format character '" ++ shown.toString ++ "' (0x" ++
      String.ofList (Nat.toDigits 16 c.toNat) ++ ") at index " ++ Number.natText i
  | notANumber c kind =>
    "%" ++ c.toString ++ " format: a real number is required, not " ++ kind
  | notAnInteger c kind => "%" ++ c.toString ++ " format: an integer is required, not " ++ kind
  | notAReal kind => "must be real number, not " ++ kind
  | notACharacter => "%c requires int or char"
  | noSuchCharacter => "%c arg not in range(0x110000)"
  | infinite => "cannot convert float infinity to integer"
  | noNumber => "cannot convert float NaN to integer"
  | value f => f.message

/-- The name of the fault's kind. -/
def kind : MessageFault → String
  | noKey _ => "KeyError"
  | noMapping | tooFew | tooMany | badAmount | notANumber .. | notAnInteger .. | notAReal _
  | notACharacter => "TypeError"
  | noSuchCharacter | infinite => "OverflowError"
  | unfinished | unfinishedKey | widthTooLarge | precisionTooLarge | unknownLetter ..
  | noNumber => "ValueError"
  | value f => f.kind

def failure (f : MessageFault) : Failure := .foreign f.kind f.message

end MessageFault

/-- What is left to fill places with. -/
structure Supply where
  args : List Value
  /-- The mapping that places with keys look into. -/
  mapping : Option (List (Value × Value)) := none

abbrev Filling := StateT Supply (Except MessageFault)

def nextArg : Filling Value := do
  let s ← get
  match s.args with
  | [] => throw .tooFew
  | a :: rest =>
    set { s with args := rest }
    return a

/-- An integer that stands for an amount. -/
def nextAmount : Filling Int := do
  match ← nextArg with
  | .int n => return n
  | .bool b => return if b then 1 else 0
  | _ => throw .badAmount

/-- A layout with its amounts known. -/
structure Settled where
  layout : Layout
  left : Bool
  width : Nat
  precision : Option Nat

def settle (l : Layout) : Filling Settled := do
  let (left, width) ← match l.width with
    | .absent => pure (l.left, 0)
    | .given n => pure (l.left, n)
    | .tooLarge => throw .widthTooLarge
    | .taken => do
      let n ← nextAmount
      pure (l.left || n < 0, n.natAbs)
  let precision ← match l.precision with
    | .absent => pure none
    | .given n => pure (some n)
    | .tooLarge => throw .precisionTooLarge
    | .taken => do pure (some (← nextAmount).toNat)
  return ⟨l, left, width, precision⟩

/-- Columns filled up with blanks. -/
def Settled.pad (s : Settled) (cs : List Char) : List Char :=
  let blanks := List.replicate (s.width - cs.length) ' '
  if s.left then cs ++ blanks else blanks ++ cs

/-- A number in its columns: zeros go between the sign and the digits, blanks outside. -/
def Settled.padNumber (s : Settled) (negative : Bool) (mark digits : List Char) : List Char :=
  let sign : List Char :=
    if negative then ['-']
    else if s.layout.sign then ['+']
    else if s.layout.blank then [' ']
    else []
  let zeros :=
    if s.layout.zeros && !s.left then s.width - (sign.length + mark.length + digits.length) else 0
  s.pad (sign ++ mark ++ List.replicate zeros '0' ++ digits)

def Settled.padText (s : Settled) (text : String) : List Char :=
  s.pad (match s.precision with
    | some n => text.toList.take n
    | none => text.toList)

/-- A whole number, fractions cut off. -/
def wholeOf (letter : Char) : Value → Except MessageFault Int
  | .int n => .ok n
  | .bool b => .ok (if b then 1 else 0)
  | .float .nan => .error .noNumber
  | .float (.infinite _) => .error .infinite
  | .float x => .ok (x.truncate?.getD 0)
  | v => .error (.notANumber letter v.fullKind)

def integerOf (letter : Char) : Value → Except MessageFault Int
  | .int n => .ok n
  | .bool b => .ok (if b then 1 else 0)
  | v => .error (.notAnInteger letter v.fullKind)

def realOf : Value → Except MessageFault Double
  | .float x => .ok x
  | .bool b => .ok (.ofInt (if b then 1 else 0))
  | .int n =>
    match Double.ofInt? n with
    | some x => .ok x
    | none => .error (.value .beyondDouble)
  | v => .error (.notAReal v.fullKind)

def characterOf : Value → Except MessageFault Char
  | .text s =>
    match s.toList with
    | [c] => .ok c
    | _ => .error .notACharacter
  | .int n => ofNumber n
  | .bool b => ofNumber (if b then 1 else 0)
  | _ => .error .notACharacter
where
  ofNumber (n : Int) : Except MessageFault Char :=
    if 0 ≤ n && n < 0x110000 then .ok (Char.ofNat n.toNat) else .error .noSuchCharacter

def upperCase (cs : List Char) : List Char := cs.map Char.toUpper

/-- An integer with digits of a base, with zeros up to the precision. -/
def Settled.integer (s : Settled) (base : Nat) (mark : List Char) (upper : Bool) (n : Int) :
    List Char :=
  let ds := Nat.toDigits base n.natAbs
  let ds := List.replicate (s.precision.getD 0 - ds.length) '0' ++ ds
  let mark := if s.layout.marked then mark else []
  s.padNumber (n < 0) (if upper then upperCase mark else mark) (if upper then upperCase ds else ds)

def Settled.real (s : Settled) (layout : Nat → Number.Layout) (upper : Bool) (x : Double) :
    List Char :=
  let (negative, cs) := Number.roundedText s.layout.marked (layout (s.precision.getD 6)) x
  s.padNumber negative [] (if upper then upperCase cs else cs)

def ofValueFault {α : Type} : Except ValueFault α → Except MessageFault α
  | .ok a => .ok a
  | .error f => .error (.value f)

/-- A value quoted without characters beyond ASCII. -/
def plainQuoted (v : Value) : Except ValueFault String := do
  let s ← v.inspect
  return String.ofList (s.toList.flatMap fun c =>
    if c.toNat < 128 then [c] else Text.numericEscape c.toNat)

/-- A value in a place. -/
def Settled.fill (s : Settled) (letter : Char) (index : Nat) (v : Value) :
    Except MessageFault (List Char) := do
  match letter with
  | 's' => return s.padText (← ofValueFault v.show)
  | 'r' => return s.padText (← ofValueFault v.inspect)
  | 'a' => return s.padText (← ofValueFault (plainQuoted v))
  | 'c' => return s.pad [← characterOf v]
  | 'd' | 'i' | 'u' => do
    let n ← wholeOf letter v
    if ValueFault.digitLimit < Number.digitCount n.natAbs then throw (.value .tooManyDigits)
    return s.integer 10 [] false n
  | 'o' => return s.integer 8 ['0', 'o'] false (← integerOf letter v)
  | 'x' => return s.integer 16 ['0', 'x'] false (← integerOf letter v)
  | 'X' => return s.integer 16 ['0', 'x'] true (← integerOf letter v)
  | 'f' => return s.real .fixed false (← realOf v)
  | 'F' => return s.real .fixed true (← realOf v)
  | 'e' => return s.real .scientific false (← realOf v)
  | 'E' => return s.real .scientific true (← realOf v)
  | 'g' => return s.real .general false (← realOf v)
  | 'G' => return s.real .general true (← realOf v)
  | c => throw (.unknownLetter c index)

/-- What stands at a percent sign, and the rest of the message. -/
def fillPlace (length : Nat) : List Char → Filling (List Char × List Char)
  | '%' :: cs => return (['%'], cs)
  | cs => do
    let cs ← match cs with
      | '(' :: cs =>
        match (← get).mapping with
        | none => throw .noMapping
        | some entries =>
          match takeKey 0 [] cs with
          | none => throw .unfinishedKey
          | some (key, cs) =>
            match Value.named? key entries with
            | none => throw (.noKey key)
            | some v =>
              modify fun s => { s with args := [v] }
              pure cs
      | cs => pure cs
    let place := takePlace length cs
    let settled ← settle place.layout
    match place.letter with
    | none => throw .unfinished
    | some letter =>
      let v ← nextArg
      return (← settled.fill letter place.index v, place.rest)

/-- The message with its places filled. Each turn of `fuel` takes at least one character. -/
def fillAll (length : Nat) : (fuel : Nat) → List Char → Filling (List Char)
  | _, [] => return []
  | 0, _ => return []
  | n + 1, '%' :: cs => do
    let (filled, rest) ← fillPlace length cs
    return filled ++ (← fillAll length n rest)
  | n + 1, c :: cs => do return c :: (← fillAll length n cs)

/-- A message with arguments put into it. One mapping as the only argument is what places with
keys look into; without arguments the message stays as it is. -/
def filled (message : String) (args : List Value) : Except MessageFault String := do
  match args with
  | [] => return message
  | args =>
    let mapping := match args with
      | [.dict (e :: es)] => some (e :: es)
      | _ => none
    let length := message.length
    let (cs, left) ← (fillAll length length message.toList).run { args, mapping }
    if mapping.isNone && !left.args.isEmpty then throw .tooMany
    return String.ofList cs

end Stencil.Log
