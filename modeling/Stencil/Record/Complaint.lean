import Stencil.Value.Show

/-!
What is wrong with a record read from a value: complaints about its fields, in the order of the
fields. A record is read as a whole, so that all complaints about it are known together.
-/

namespace Stencil.Record

/-- Why a value cannot stand in a field. -/
inductive Fault where
  | required
  | notBoolean
  | unclearBoolean
  | notText
  | undecodableText
  | notNumber
  | unclearNumber
  | notInteger
  | unclearInteger
  | longInteger
  | fractional
  | notFinite
  | notGreater (limit : Nat)
  | less (limit : Nat)
  | greater (limit : Nat)
  | notRecord (name : String)
  | notMapping
  | notChoice (first last : String)
  | notPath
  | notUrl (field : String)
deriving DecidableEq

namespace Fault

def message : Fault → String
  | required => "Field required"
  | notBoolean => "Input should be a valid boolean"
  | unclearBoolean => "Input should be a valid boolean, unable to interpret input"
  | notText => "Input should be a valid string"
  | undecodableText =>
    "Input should be a valid string, unable to parse raw data as a unicode string"
  | notNumber => "Input should be a valid number"
  | unclearNumber => "Input should be a valid number, unable to parse string as a number"
  | notInteger => "Input should be a valid integer"
  | unclearInteger => "Input should be a valid integer, unable to parse string as an integer"
  | longInteger => "Unable to parse input string as an integer, exceeded maximum size"
  | fractional => "Input should be a valid integer, got a number with a fractional part"
  | notFinite => "Input should be a finite number"
  | notGreater limit => "Input should be greater than " ++ Number.natText limit
  | less limit => "Input should be greater than or equal to " ++ Number.natText limit
  | greater limit => "Input should be less than or equal to " ++ Number.natText limit
  | notRecord name => "Input should be a valid dictionary or instance of " ++ name
  | notMapping => "Input should be a valid dictionary"
  | notChoice first last => "Input should be '" ++ first ++ "' or '" ++ last ++ "'"
  | notPath => "Input is not a valid path for <class 'pathlib.Path'>"
  | notUrl field => "Value error, " ++ field ++ " must start with http:// or https://"

end Fault

/-- A fault, the way to the field, and the value found there. -/
structure Complaint where
  place : List String := []
  fault : Fault
  value : Value

namespace Complaint

/-- The names on the way to the field with dots between them. -/
def field (c : Complaint) : String := ".".intercalate c.place

/-- The field and what is wrong with it. -/
def text (c : Complaint) : String := c.field ++ ": " ++ c.fault.message

/-- The same fault, seen from further out. -/
def within (step : String) (c : Complaint) : Complaint := { c with place := step :: c.place }

end Complaint

/-- What comes of reading a record: a result, or complaints. -/
inductive Checked (α : Type) where
  | ok (a : α)
  | refused (first : Complaint) (rest : List Complaint)

namespace Checked

/-- A result from two parts, or the complaints about both. -/
def seq {α β : Type} : Checked (α → β) → Checked α → Checked β
  | ok f, ok a => ok (f a)
  | ok _, refused c cs => refused c cs
  | refused c cs, ok _ => refused c cs
  | refused c cs, refused d ds => refused c (cs ++ d :: ds)

instance : Applicative Checked where
  pure := ok
  seq f a := seq f (a ())

def refuse {α : Type} (fault : Fault) (value : Value) : Checked α :=
  refused { fault, value } []

/-- The complaints seen from further out. -/
def within {α : Type} (step : String) : Checked α → Checked α
  | ok a => ok a
  | refused c cs => refused (c.within step) (cs.map (·.within step))

/-- Read on from a result. -/
def andThen {α β : Type} : Checked α → (α → Checked β) → Checked β
  | ok a, f => f a
  | refused c cs, _ => refused c cs

/-- The results of all, or the complaints about any. -/
def all {α : Type} : List (Checked α) → Checked (List α)
  | [] => ok []
  | c :: cs => seq (List.cons <$> c) (all cs)

def complaints {α : Type} : Checked α → List Complaint
  | ok _ => []
  | refused c cs => c :: cs

/-- The complaints in one line. -/
def report (cs : List Complaint) : String := "; ".intercalate (cs.map (·.text))

end Checked

end Stencil.Record
