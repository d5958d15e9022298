import Stencil.Calendar
import Stencil.Context.Result

/-!
The values that a template is filled with: what a data file, a caller or a context lookup can
bind to a name.
-/

namespace Stencil

/-- A bound value. A mapping keeps its entries in insertion order, and its keys are values that
can be compared as a whole. -/
inductive Value where
  | null
  | bool (b : Bool)
  | int (n : Int)
  | float (x : Double)
  | text (s : String)
  | bytes (bs : List UInt8)
  | date (d : Date)
  | moment (m : Moment)
  | list (items : List Value)
  | tuple (items : List Value)
  | dict (entries : List (Value × Value))
  | context (r : Context.Result)
deriving Inhabited

/-- The values under their names, in order. -/
abbrev Bindings := List (String × Value)

namespace Value

/-- The name of the value's kind, as messages give it. -/
def kind : Value → String
  | null => "NoneType"
  | bool _ => "bool"
  | int _ => "int"
  | float _ => "float"
  | text _ => "str"
  | bytes _ => "bytes"
  | date _ => "date"
  | moment _ => "datetime"
  | list _ => "list"
  | tuple _ => "tuple"
  | dict _ => "dict"
  | context _ => "ContextResolveResult"

/-- The same with the family that dates and times belong to. -/
def fullKind : Value → String
  | date _ => "datetime.date"
  | moment _ => "datetime.datetime"
  | v => v.kind

/-- Absent, zero and empty values are false, all others true. -/
def truthy : Value → Bool
  | null => false
  | bool b => b
  | int n => n != 0
  | float x => !x.isZero
  | text s => s != ""
  | bytes bs => !bs.isEmpty
  | date _ => true
  | moment _ => true
  | list xs => !xs.isEmpty
  | tuple xs => !xs.isEmpty
  | dict kvs => !kvs.isEmpty
  | context _ => true

/-- A mapping from names. -/
def ofBindings (b : Bindings) : Value := .dict (b.map fun (k, v) => (.text k, v))

def ofOptText : Option String → Value
  | none => null
  | some s => text s

end Value

/-- Why a value cannot be converted or compared. -/
inductive ValueFault where
  /-- An integer is too long to be written in decimal. -/
  | tooManyDigits
  /-- A run of digits is too long to be read as an integer. -/
  | digitsTooLong (count : Nat)
  /-- An integer has no double near it. -/
  | beyondDouble
  /-- A quotient of integers has no double near it. -/
  | quotientBeyondDouble
  /-- A key of this kind cannot stand in JSON. -/
  | jsonKey (kind : String)
  /-- A value of this kind cannot be written as JSON. -/
  | notJson (kind : String)
  /-- A number that is not finite where JSON allows none. -/
  | notFinite
  /-- Values of these kinds have no order. -/
  | unordered (relation left right : String)
  /-- A value of this kind cannot be called. -/
  | notCallable (kind : String)
  /-- A pattern repeats something too often. -/
  | hugeRepetition
deriving DecidableEq

namespace ValueFault

/-- Integers with more decimal digits than this are neither written nor read. -/
def digitLimit : Nat := 4300

def message : ValueFault → String
  | tooManyDigits =>
    "Exceeds the limit (4300 digits) for integer string conversion; " ++
      "use sys.set_int_max_str_digits() to increase the limit"
  | digitsTooLong n =>
    "Exceeds the limit (4300 digits) for integer string conversion: value has " ++
      Number.natText n ++ " digits; use sys.set_int_max_str_digits() to increase the limit"
  | beyondDouble => "int too large to convert to float"
  | quotientBeyondDouble => "integer division result too large for a float"
  | jsonKey kind => "keys must be str, int, float, bool or None, not " ++ kind
  | notJson kind => "Object of type " ++ kind ++ " is not JSON serializable"
  | notFinite => "Out of range float values are not JSON compliant"
  | unordered r a b =>
    "'" ++ r ++ "' not supported between instances of '" ++ a ++ "' and '" ++ b ++ "'"
  | notCallable kind => "'" ++ kind ++ "' object is not callable"
  | hugeRepetition => "the repetition number is too large"

/-- The name of the fault's kind. -/
def kind : ValueFault → String
  | beyondDouble | quotientBeyondDouble | hugeRepetition => "OverflowError"
  | jsonKey _ | notJson _ | unordered .. | notCallable _ => "TypeError"
  | tooManyDigits | digitsTooLong _ | notFinite => "ValueError"

end ValueFault

end Stencil
