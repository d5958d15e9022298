import Stencil.Failure
import Stencil.Template.Basic

/-!
Operators that conditions apply to a variable's value.
-/

namespace Stencil

/-- What an operator does with a value and an argument; the result counts by its truth. -/
abbrev Handler := Value → Value → Except Failure Value

/-- An operator takes no argument, or compares with one. -/
inductive OperatorKind where
  | unary
  | comparison
deriving DecidableEq

namespace OperatorKind

def word : OperatorKind → String
  | unary => "unary"
  | comparison => "comparison"

end OperatorKind

structure Operator where
  name : String
  handler : Handler
  kind : OperatorKind := .comparison
  description : String := ""
  example_ : String := ""

/-- Operators by the names that templates use. -/
abbrev Operators := List (String × Operator)

/-- The argument as a value. -/
def Argument.value : Argument → Value
  | .none => .null
  | .text s => .text s
  | .texts ss => .tuple (ss.map .text)

end Stencil
