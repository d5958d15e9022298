import Stencil.Evaluation.Evaluate
import Stencil.Json.Writer
import Stencil.Text.Case

/-!
The text of an evaluated template, and of a template's source from start to end.
-/

namespace Stencil

/-- Runs of three or more newlines cut down to two: `run` newlines stand before the rest. -/
def collapseFrom : (run : Nat) → List Char → List Char
  | _, [] => []
  | run, c :: cs =>
    if c == '\n' then
      if run < 2 then c :: collapseFrom (run + 1) cs else collapseFrom (run + 1) cs
    else c :: collapseFrom 0 cs

/-- The text with at most one empty line between two lines. -/
def collapseBlankLines (s : String) : String := String.ofList (collapseFrom 0 s.toList)

namespace Value

/-- JSON as a prompt shows it: compact, and values that JSON does not have as their texts. -/
def promptJson : Json.Style := { Json.compact with others := .shown }

/-- The number that a double is, without a point if it is whole. -/
def doubleAsNumber (x : Double) : String :=
  match x.toInt? with
  | some n => Number.intText n
  | none => Number.doubleText x

/-- The value as a number: truth values as zero and one, texts by the number they spell. What is
no number is written as it is. -/
def asNumber (v : Value) : Except ValueFault String :=
  match v with
  | bool b => .ok (if b then "1" else "0")
  | int n => showInt n
  | float x => .ok (doubleAsNumber x)
  | v => do
    let s ← v.show
    match Number.readDouble? s with
    | some x => return doubleAsNumber x
    | none => return s

/-- The value as a truth value; texts that say no are false. -/
def asBoolean (v : Value) : String :=
  let b := match v with
    | text s => !(["", "false", "0", "no"].contains (Text.lower (Text.strip s)))
    | v => v.truthy
  if b then "true" else "false"

mutual

/-- The value as it stands in a prompt. -/
def asText : Value → Except ValueFault String
  | null => .ok ""
  | bool b => .ok (if b then "true" else "false")
  | text s => .ok s
  | dict kvs => Json.write promptJson (.dict kvs)
  | list xs => do return ", ".intercalate (← asTexts xs)
  | tuple xs => do return ", ".intercalate (← asTexts xs)
  | bytes bs => .ok (", ".intercalate (bs.map fun b => Number.natText b.toNat))
  | v => v.show

def asTexts : List Value → Except ValueFault (List String)
  | [] => .ok []
  | v :: vs => do return (← asText v) :: (← asTexts vs)

end

/-- The value as a slot with a hint shows it. -/
def format (hint : Option Hint) (v : Value) : Except ValueFault String :=
  match v, hint with
  | null, _ => .ok ""
  | v, some .json => Json.write promptJson v
  | v, some .boolean => .ok v.asBoolean
  | v, some .number => v.asNumber
  | v, _ => v.asText

end Value

/-- What happens to a variable without a binding and without a default. -/
inductive MissingVariable where
  | empty
  | error
deriving DecidableEq

namespace MissingVariable

def word : MissingVariable → String
  | empty => "empty"
  | error => "error"

end MissingVariable

namespace Render

/-- How strictly a tree is rendered. -/
structure Policy where
  strict : Bool := false
  missingVariable : MissingVariable := .empty

namespace Policy

def raisesOnMissing (p : Policy) : Bool := p.strict || p.missingVariable == .error

end Policy

def fail {α : Type} (f : RenderFault) : Except Failure α := .error (.error (.render f))

def slot (p : Policy) (b : Bindings) (name : String) (hint : Option Hint)
    (default : Option String) : Except Failure String := do
  match ← ofValue (Variable.lookup name b) with
  | some v => ofValue (v.format hint)
  | none =>
    match default with
    | some d => return d
    | none => if p.raisesOnMissing then fail (.missingVariable name) else return ""

/-- A context reference: its content, or a placeholder where strictness allows one. -/
def context (p : Policy) (b : Bindings) (path : String) : Except Failure String :=
  match Context.bound? b path with
  | some r =>
    match r.success, r.content with
    | true, some c => .ok c.asText
    | _, _ => absent ((r.error).getD "None")
  | none => absent "not resolved"
where
  absent (reason : String) : Except Failure String :=
    if p.strict then fail (.noContext path reason) else .ok ("[CONTEXT: " ++ path ++ "]")

mutual

def node (p : Policy) (b : Bindings) : Node → Except Failure String
  | .text content _ => .ok content
  | .slot name hint default _ => slot p b name hint default
  | .part _ children _ => nodes p b children
  | .context path _ => context p b path
  | .imported path _ => if p.strict then fail (.unresolvedImport path) else .ok ""
  | .included path _ => if p.strict then fail (.unresolvedInclude path) else .ok ""
  | .conditional .. => fail .unevaluated

def nodes (p : Policy) (b : Bindings) : List Node → Except Failure String
  | [] => .ok ""
  | n :: ns => do return (← node p b n) ++ (← nodes p b ns)

end

/-- What is done to a rendered text in the end. -/
structure Finish where
  trim : Bool := false
  collapseNewlines : Bool := false

/-- Collapse blank lines, then cut blanks off the ends. -/
def Finish.apply (f : Finish) (s : String) : String :=
  let s := if f.collapseNewlines then collapseBlankLines s else s
  if f.trim then Text.strip s else s

end Render

/-- The text of evaluated nodes. -/
def render (p : Render.Policy) (f : Render.Finish) (b : Bindings) (nodes : List Node) :
    Except Failure String := do
  return f.apply (← Render.nodes p b nodes)

/-- A template's source read, evaluated and rendered. -/
def renderTemplate {σ : Type} (e : Evaluation.Setup σ) (p : Render.Policy) (f : Render.Finish)
    (origin : Option String) (source : String) (b : Bindings) :
    StateM σ (Except Failure String) := do
  let parsed := parse source
  if !parsed.success then return .error (.error (.malformed none source parsed.errors))
  else
    match ← evaluate e origin parsed.document b with
    | .error failure => return .error failure
    | .ok r => return render p f r.bindings r.document.children

end Stencil
