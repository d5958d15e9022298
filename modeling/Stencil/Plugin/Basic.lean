import Stencil.Operator.Basic
import Stencil.Text.Identifier

/-!
Plugins: named bundles of operators, with something to do when they are loaded.
-/

namespace Stencil

namespace Operators

/-- The names that stand for judges in templates. -/
def judgeNames : List String := ["ai_judge", "ai_gate"]

/-- Why no operator can have a name. -/
def nameFault? (name : String) : Option Misuse :=
  if !Text.isIdentifier name then some (.operatorName name)
  else if judgeNames.contains name then some (.reservedName name)
  else none

/-- The operators with one put under a name: in place if the name is taken, else at the end. -/
def insert (name : String) (op : Operator) : Operators → Operators
  | [] => [(name, op)]
  | (k, o) :: rest => if k == name then (k, op) :: rest else (k, o) :: insert name op rest

/-- The operators with one put under a name that an operator can have. -/
def register (name : String) (op : Operator) (ops : Operators) : Except Misuse Operators :=
  match nameFault? name with
  | some m => .error m
  | none => .ok (insert name op ops)

end Operators

/-- An operator as a plugin declares it; what stands in its place may not be callable. -/
structure Declared where
  operator : Operator
  callable : Bool := true

/-- What a plugin does when it is loaded. -/
inductive Hook (σ : Type) where
  | run (act : StateM σ (Except Failure Unit))
  | uncallable

structure Plugin (σ : Type) where
  name : String
  version : String
  operators : List (String × Declared) := []
  onLoad : Option (Hook σ) := none

/-- Why a plugin cannot be used. -/
inductive PluginFault where
  /-- Something else of this kind stands where a plugin should. -/
  | notAPlugin (kind : String)
  | nameless
  | versionless (plugin : String)
  | operatorName (plugin operator : String)
  | uncallableOperator (plugin operator : String)
  | uncallableHook (plugin : String)
  | badReference (reference : String)
  | notImportable (reference module_ reason : String)
  | noMember (reference module_ member : String)
  | notAProvider (reference : String)
deriving DecidableEq

namespace PluginFault

def message : PluginFault → String
  | notAPlugin kind => "Plugin must be an EchoPlugin, got " ++ kind
  | nameless => "Plugin must have a name"
  | versionless _ => "Plugin must have a version"
  | operatorName plugin op =>
    "Plugin " ++ plugin ++ " declares invalid operator name " ++ Text.quoted op
  | uncallableOperator plugin op =>
    "Operator " ++ op ++ " of plugin " ++ plugin ++ " must be callable"
  | uncallableHook _ => "Plugin on_load must be callable"
  | badReference reference =>
    "Reference must look like 'module:attribute', got " ++ Text.quoted reference
  | notImportable _ module_ reason => "Cannot import module " ++ module_ ++ ": " ++ reason
  | noMember _ module_ member => "Module " ++ module_ ++ " has no attribute " ++ member
  | notAProvider reference =>
    reference ++ " is not a completion provider (no async complete())"

/-- The plugin or reference that the fault names. -/
def subject : PluginFault → Option String
  | notAPlugin _ | nameless => none
  | versionless p | operatorName p _ | uncallableOperator p _ | uncallableHook p => some p
  | badReference r | notImportable r _ _ | noMember r _ _ | notAProvider r => some r

def failure (f : PluginFault) : Failure := .error (.plugin f.message f.subject)

end PluginFault

namespace Plugin

variable {σ : Type}

def operatorFault? (plugin : String) (d : String × Declared) : Option PluginFault :=
  if (Operators.nameFault? d.1).isSome then some (.operatorName plugin d.1)
  else if !d.2.callable then some (.uncallableOperator plugin d.1)
  else none

/-- The first rule that a plugin breaks. -/
def fault? (p : Plugin σ) : Option PluginFault :=
  if p.name == "" then some .nameless
  else if p.version == "" then some (.versionless p.name)
  else
    match p.operators.findSome? (operatorFault? p.name) with
    | some f => some f
    | none =>
      match p.onLoad with
      | some .uncallable => some (.uncallableHook p.name)
      | _ => none

/-- The plugin's operators put among others. -/
def extend (p : Plugin σ) (ops : Operators) : Operators :=
  p.operators.foldl (fun acc d => acc.insert d.1 d.2.operator) ops

end Plugin

end Stencil
