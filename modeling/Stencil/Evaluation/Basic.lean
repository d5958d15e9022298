import Stencil.Operator.Basic
import Stencil.Context.Resolve
import Stencil.Import.Loader
import Stencil.Variable

/-!
What an evaluation works with: its collaborators, its settings and what it keeps on the way.
-/

namespace Stencil

/-- What comes of asking a judge. -/
inductive Verdict where
  /-- Counts by its truth. -/
  | answer (v : Value)
  | failed (f : Failure)
  /-- No answer comes; with a limit in seconds, the judge itself fails then. -/
  | stalled (limit : Option (Double × Failure))

/-- Answers yes or no questions about values. It keeps its own state. -/
structure Judge (σ : Type) where
  ask : Value → String → StateM σ Verdict

namespace Evaluation

/-- A problem that did not stop an evaluation. -/
structure Issue where
  kind : String
  message : String
  path : String
deriving DecidableEq

/-- The settings and collaborators of an evaluation. -/
structure Setup (σ : Type) where
  strict : Bool := false
  judge : Option (Judge σ) := none
  resolver : Option (Context.Resolver σ) := none
  operators : Operators := []
  loader : Option ImportLoader := none
  /-- How many seconds the evaluation may take. -/
  timeout : Option Value := none

/-- What an evaluation keeps: the bindings, the parts that can be included, the problems found,
and the state of the collaborators. -/
structure State (σ : Type) where
  bindings : Bindings
  parts : List (String × List Node)
  issues : List Issue
  world : σ

/-- A step of an evaluation. What it kept stays when it fails. -/
abbrev Eval (σ : Type) := ExceptT Failure (StateM (State σ))

/-- An evaluated template: its tree, the bindings to render it with, the parts by name and the
problems found. -/
structure Result where
  document : Document
  bindings : Bindings
  parts : List (String × List Node)
  issues : List Issue

variable {σ : Type}

def fail {α : Type} (e : Error) : Eval σ α := throw (.error e)

/-- Let a collaborator act on its state. -/
def onWorld {α : Type} (act : StateM σ α) : Eval σ α := do
  let s ← get
  let (a, w) := act.run s.world
  set { s with world := w }
  return a

def lookup (name : String) : Eval σ (Option Value) := do
  match Variable.lookup name (← get).bindings with
  | .ok v => return v
  | .error f => throw (.value f)

def report (kind message path : String) : Eval σ Unit :=
  modify fun s => { s with issues := s.issues ++ [⟨kind, message, path⟩] }

/-- The seconds in a setting. -/
def seconds? : Value → Option Double
  | .float x => some x
  | .int n => some (Double.ofInt n)
  | .bool b => some (Double.ofInt (if b then 1 else 0))
  | _ => none

/-- The evaluation may take no time at all, so that the first real wait ends it. -/
def Setup.isDue (e : Setup σ) : Bool :=
  match e.timeout.bind seconds? with
  | some t => Double.le t (.zero false)
  | none => false

end Evaluation

end Stencil
