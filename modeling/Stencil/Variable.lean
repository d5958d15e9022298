import Stencil.Value.Equal
import Stencil.Text.Character
import Stencil.Source.Lexeme

/-!
Variable paths: keys behind dots and indexes in brackets, followed step by step into a value.
-/

namespace Stencil.Variable

/-- One step of a path. -/
inductive Segment where
  | key (name : String)
  | index (digits : List Nat)
deriving DecidableEq

def isPlain (c : Char) : Bool := c != '.' && c != '[' && c != ']'

/-- The segments of a path; characters that belong to none are skipped. -/
def segmentsFrom : (fuel : Nat) → List Char → List Segment
  | 0, _ => []
  | _, [] => []
  | n + 1, c :: cs =>
    match Source.index? (c :: cs) with
    | some w =>
      .index (((w.drop 1).dropLast).filterMap Text.digitValue?) ::
        segmentsFrom n ((c :: cs).drop w.length)
    | none =>
      if isPlain c then
        .key (String.ofList (c :: cs.takeWhile isPlain)) :: segmentsFrom n (cs.dropWhile isPlain)
      else segmentsFrom n cs

def segments (name : String) : List Segment := segmentsFrom name.length name.toList

/-- The number that an index stands for, unless it has too many digits. -/
def position (digits : List Nat) : Except ValueFault Nat :=
  if ValueFault.digitLimit < digits.length then .error (.digitsTooLong digits.length)
  else .ok (Number.digitsValue digits)

/-- The item at a position of a value that is a sequence but no text. -/
def item? (v : Value) (i : Nat) : Option Value :=
  match v with
  | .list xs | .tuple xs => xs[i]?
  | .bytes bs => (bs[i]?).map fun b => .int b.toNat
  | _ => none

/-- The value one step further, if the step is possible. -/
def step (v : Value) : Segment → Except ValueFault (Option Value)
  | .key name => .ok (v.field? name)
  | .index digits => do return item? v (← position digits)

/-- The value at the end of a path, if every step is possible. -/
def follow : Value → List Segment → Except ValueFault (Option Value)
  | v, [] => .ok (some v)
  | v, s :: rest => do
    match ← step v s with
    | some w => follow w rest
    | none => return none

/-- The value that a path has under some bindings. A name that is bound as it stands is not
taken apart. -/
def lookup (name : String) (b : Bindings) : Except ValueFault (Option Value) :=
  match b.find? name with
  | some v => .ok (some v)
  | none => follow (Value.ofBindings b) (segments name)

end Stencil.Variable
