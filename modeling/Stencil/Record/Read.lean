import Stencil.Record.Complaint
import Stencil.Value.Equal
import Stencil.Text.Character
import Stencil.Text.Search
import Stencil.Files.Path

/-!
Reading the fields of a record. A field takes values of its own kind and such of other kinds as
mean the same: numbers spelled as texts, whole doubles for integers, words for truth values.
-/

namespace Stencil.Record

/-- How the value of a field is read. -/
abbrev Reader (α : Type) := Value → Checked α

/-- White space as number texts may have it around them. -/
def isSpace (c : Char) : Bool :=
  Text.isBlank c && !(0x1c ≤ c.toNat && c.toNat ≤ 0x1f)

def trimSpace (cs : List Char) : List Char :=
  ((cs.dropWhile isSpace).reverse.dropWhile isSpace).reverse

/-- The text that a value is, if it is text or bytes. -/
def textOf? : Value → Option (Option String)
  | .text s => some (some s)
  | .bytes bs => some (String.fromUTF8? ⟨bs.toArray⟩)
  | _ => none

def text : Reader String := fun v =>
  match textOf? v with
  | some (some s) => .ok s
  | some none => .refuse .undecodableText v
  | none => .refuse .notText v

/-- The words for truth values. -/
def truthWords : List (String × Bool) :=
  [("0", false), ("f", false), ("n", false), ("no", false), ("off", false), ("false", false),
   ("1", true), ("t", true), ("y", true), ("on", true), ("yes", true), ("true", true)]

/-- The truth value that a number is. -/
def truthOfInt (n : Int) (v : Value) : Checked Bool :=
  if n = 0 then .ok false else if n = 1 then .ok true else .refuse .unclearBoolean v

/-- The first whole number that a machine word has no room for. -/
def machineLimit : Nat := 9223372036854775808

/-- Whole numbers beyond these are no truth values at all. -/
def isMachineInt (n : Int) : Bool := -machineLimit ≤ n && n < machineLimit

def truth : Reader Bool := fun v =>
  match v with
  | .bool b => .ok b
  | .int n => if isMachineInt n then truthOfInt n v else .refuse .notBoolean v
  | .float x =>
    match x.toInt? with
    | some n => if isMachineInt n then truthOfInt n v else .refuse .notBoolean v
    | none => .refuse .notBoolean v
  | v =>
    match textOf? v with
    | some (some s) =>
      match truthWords.lookup (String.ofList (s.toList.map Char.toLower)) with
      | some b => .ok b
      | none => .refuse .unclearBoolean v
    | some none => .refuse .unclearBoolean v
    | none => .refuse .notBoolean v

/-- The characters without the underscores between them, where there are any and each stands
alone inside. -/
def withoutUnderscores? (cs : List Char) : Option (List Char) :=
  let parts := Text.splitBy (· == '_') cs
  if parts.length ≤ 1 || parts.any (·.isEmpty) then none else some parts.flatten

/-- The double that ASCII characters spell. -/
def doubleOf? (cs : List Char) : Option Double :=
  if cs.all fun c => c.toNat < 128 && !Text.isBlank c && c != '_' then
    Number.readDouble? (String.ofList cs)
  else none

def numberOfText? (s : String) : Option Double :=
  match doubleOf? (trimSpace s.toList) with
  | some x => some x
  | none => (withoutUnderscores? s.toList).bind doubleOf?

def number : Reader Double := fun v =>
  match v with
  | .float x => .ok x
  | .bool b => .ok (Double.ofInt (if b then 1 else 0))
  | .int n =>
    match Double.ofInt? n with
    | some x => .ok x
    | none => .refuse .notNumber v
  | v =>
    match textOf? v with
    | some (some s) =>
      match numberOfText? s with
      | some x => .ok x
      | none => .refuse .unclearNumber v
    | some none => .refuse .unclearNumber v
    | none => .refuse .notNumber v

/-- The integer that ASCII digits with a sign spell. -/
def digitsInt? (cs : List Char) : Option Int :=
  let (negative, ds) := match cs with
    | '-' :: r => (true, r)
    | '+' :: r => (false, r)
    | r => (false, r)
  if !ds.isEmpty && ds.all Char.isDigit then
    let n := Number.digitsValue (ds.map fun c => c.toNat - 48)
    some (if negative then -(n : Int) else n)
  else none

/-- The characters before a point that only zeros follow. -/
def withoutZeroFraction (cs : List Char) : List Char :=
  let whole := cs.takeWhile (· != '.')
  if whole.length < cs.length && (cs.drop (whole.length + 1)).all (· == '0') then whole else cs

def intOfText (v : Value) (s : String) : Checked Int :=
  let cs := trimSpace s.toList
  if ValueFault.digitLimit < cs.length then .refuse .longInteger v
  else
    let plain := withoutZeroFraction cs
    match digitsInt? plain with
    | some n => .ok n
    | none =>
      match (withoutUnderscores? plain).bind digitsInt? with
      | some n => .ok n
      | none => .refuse .unclearInteger v

def integer : Reader Int := fun v =>
  match v with
  | .int n => .ok n
  | .bool b => .ok (if b then 1 else 0)
  | .float x =>
    if !x.isFinite then .refuse .notFinite v
    else match x.toInt? with
      | some n => if n.natAbs < machineLimit then .ok n else .refuse .longInteger v
      | none => .refuse .fractional v
  | v =>
    match textOf? v with
    | some (some s) => intOfText v s
    | some none => .refuse .unclearInteger v
    | none => .refuse .notInteger v

/-- Absent, or as another reader reads it. -/
def optional {α : Type} (r : Reader α) : Reader (Option α) := fun v =>
  match v with
  | .null => .ok none
  | v => some <$> r v

/-- What a reader reads, if it also passes a test. -/
def guarded {α : Type} (r : Reader α) (test : α → Bool) (fault : Fault) : Reader α := fun v =>
  (r v).andThen fun a => if test a then .ok a else .refuse fault v

/-- More than zero. -/
def positive : Reader Double := guarded number (Double.lt (.zero false) ·) (.notGreater 0)

def atMost (limit : Nat) (r : Reader Double) : Reader Double :=
  fun v => (number v).andThen fun x =>
    if Double.le x (Double.ofInt limit) then r v else .refuse (.greater limit) v

def notNegative : Reader Double := guarded number (Double.le (.zero false) ·) (.less 0)

/-- One of two words. -/
def choice {α : Type} (first last : String × α) : Reader α := fun v =>
  match v with
  | .text s =>
    if s == first.1 then .ok first.2
    else if s == last.1 then .ok last.2
    else .refuse (.notChoice first.1 last.1) v
  | v => .refuse (.notChoice first.1 last.1) v

/-- The way to an entry, as complaints name its key. -/
def keyPlace : Value → String
  | .text s => s
  | .bool b => if b then "1" else "0"
  | v => (v.inspect).toOption.getD ""

/-- A mapping whose keys are texts. Of keys that are one text, the last has its value kept. -/
def mapping : Reader Bindings := fun v =>
  match v with
  | .dict entries =>
    Bindings.merge [] <$> Checked.all (entries.map fun (k, w) =>
      ((fun name => (name, w)) <$> (text k).within "[key]").within (keyPlace k))
  | v => .refuse .notMapping v

def anything : Reader Value := .ok

/-- A path, with what does not lead anywhere left out of it. -/
def path : Reader String := fun v =>
  match textOf? v with
  | some (some s) => .ok (Files.Path.tidy s)
  | _ => .refuse .notPath v

/-- The field of a record: under its name, else the default. -/
def field {α : Type} (record : Value) (name : String) (r : Reader α) (default : Option α) :
    Checked α :=
  match record.field? name, default with
  | some v, _ => (r v).within name
  | none, some a => .ok a
  | none, none => (Checked.refuse .required record).within name

/-- A record inside a field. -/
def nested {α : Type} (name : String) (r : Reader α) : Reader α := fun v =>
  match v with
  | .dict entries => r (.dict entries)
  | v => .refuse (.notRecord name) v

/-- The items of a list, each under its position. -/
def listOf {α : Type} (r : Reader α) (items : List Value) : Checked (List α) :=
  Checked.all (items.mapIdx fun i v => (r v).within (Number.natText i))

end Stencil.Record
