import Stencil.Value.Equal
import Stencil.Failure
import Stencil.Yaml.Kind

/-!
The value of a YAML text.
-/

namespace Stencil.Yaml

/-- A key can be looked up. -/
def canBeKey : Value → Bool
  | .list _ | .dict _ => false
  | _ => true

/-- A key stands for the entries of another mapping. -/
def isMerge : Node → Bool
  | .scalar tag s => tag == .unmarked true && plainKind s == .merge
  | _ => false

/-- The text of a key that stands for itself: a plain mark for a mapping's own value. -/
def ownKey? : Node → Option String
  | .scalar tag s => if tag == .unmarked true && plainKind s == .value then some s else none
  | _ => none

def notMerged {α : Type} : Except Fault α :=
  .error (.malformed "only mappings can be merged")

mutual

/-- The value of a node. -/
def valueOf : Node → Except Fault Value
  | .scalar tag s => do scalarValue (← kindOf tag .text (plainKind s)) s
  | .sequence tag items => do
    match ← kindOf tag .sequence .sequence with
    | .sequence => return .list (← valuesOf items)
    | .pairs => return .list (← pairsOf items)
    | _ => throw (.malformed "a sequence is marked as something else")
  | .mapping tag entries => do
    match ← kindOf tag .mapping .mapping with
    | .mapping =>
      let (merged, own) ← entriesOf entries
      return Value.dictOf (merged ++ own)
    | _ => throw (.malformed "a mapping is marked as something else")

def valuesOf : List Node → Except Fault (List Value)
  | [] => return []
  | n :: ns => do return (← valueOf n) :: (← valuesOf ns)

/-- Mappings of one entry as pairs. -/
def pairsOf : List Node → Except Fault (List Value)
  | [] => return []
  | .mapping _ [(k, v)] :: ns => do
    let key ← match ownKey? k with
      | some s => pure (.text s)
      | none => valueOf k
    return .tuple [key, ← valueOf v] :: (← pairsOf ns)
  | _ => throw (.malformed "a pair is missing")

/-- The entries that a mapping takes from others, and its own. -/
def entriesOf : List (Node × Node) → Except Fault (List (Value × Value) × List (Value × Value))
  | [] => return ([], [])
  | (k, v) :: rest => do
    if isMerge k then
      let merged ← mergedOf v
      let (more, own) ← entriesOf rest
      return (merged ++ more, own)
    else
      let key ← match ownKey? k with
        | some s => pure (.text s)
        | none => valueOf k
      if !canBeKey key then throw (.malformed "a collection cannot be a key")
      let value ← valueOf v
      let (merged, own) ← entriesOf rest
      return (merged, (key, value) :: own)

/-- The entries of a mapping to be merged, or of several, of which the first count most. -/
def mergedOf : Node → Except Fault (List (Value × Value))
  | .mapping _ entries => do
    let (merged, own) ← entriesOf entries
    return merged ++ own
  | .sequence _ items => mergedItems items
  | .scalar .. => notMerged

def mergedItems : List Node → Except Fault (List (Value × Value))
  | [] => return []
  | .mapping _ entries :: ns => do
    let (merged, own) ← entriesOf entries
    return (← mergedItems ns) ++ (merged ++ own)
  | _ => notMerged

end

/-- The value of a text; an empty one has none. -/
def read (s : String) : Except Fault Value := do
  match ← parse s with
  | some node => valueOf node
  | none => return .null

namespace Fault

def message : Fault → String
  | malformed what => what
  | unreadable _ m => m

/-- A fault as a failure of its own kind. -/
def failure : Fault → Failure
  | malformed what => .foreign "YAMLError" what
  | unreadable kind m => .foreign kind m

end Fault

end Stencil.Yaml
