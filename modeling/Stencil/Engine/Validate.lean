import Stencil.Engine.Basic
import Stencil.Template.Walk

/-!
Checking a template without evaluating it: the faults of its source, and warnings about what
would go wrong in an evaluation.
-/

namespace Stencil

/-- Something that shows only when a template is evaluated. -/
inductive Caution where
  | undefinedPart (name : String)
  | contextPath (fault : Context.PathFault)
  | unknownOperator (name : String)
  | noJudge
deriving DecidableEq

namespace Caution

/-- The word for the kind of caution. -/
def code : Caution → String
  | undefinedPart _ => "UNDEFINED_SECTION"
  | contextPath _ => "INVALID_CONTEXT_PATH"
  | unknownOperator _ => "UNKNOWN_OPERATOR"
  | noJudge => "AI_JUDGE_UNCONFIGURED"

def message : Caution → String
  | undefinedPart name => "Include of undefined section: " ++ name
  | contextPath fault => fault.message
  | unknownOperator name => "Unknown operator: #" ++ name
  | noJudge => "AI condition used but no AI provider is configured"

end Caution

/-- A caution and where it is due. -/
structure Warning where
  caution : Caution
  start : Position

namespace Warning

def text (w : Warning) : String :=
  Number.natText w.start.line ++ ":" ++ Number.natText w.start.column ++ ": " ++ w.caution.message

end Warning

/-- What a check of a template finds. -/
structure Validation where
  errors : List Diagnostic
  warnings : List Warning

namespace Validation

def valid (v : Validation) : Bool := v.errors.isEmpty

end Validation

namespace Engine

variable {σ : Type}

def contextWarnings (path : String) (start : Position) : List Warning :=
  match Context.pathFault? path with
  | some f => [⟨.contextPath f, start⟩]
  | none => []

def conditionWarnings (e : Engine σ) (c : Condition) : List Warning :=
  match c with
  | .compare _ op _ span =>
    if (e.operators.find? op).isNone then [⟨.unknownOperator op, span.start⟩] else []
  | .judge _ _ span => if e.judge.isNone then [⟨.noJudge, span.start⟩] else []
  | .present path span => contextWarnings path span.start
  | _ => []

/-- The name of an included part, and not the path of a document. -/
def isPartName (path : String) : Bool :=
  !path.toList.contains '/' && !path.toList.contains '.'

def nodeWarnings (e : Engine σ) (defined : List String) (n : Node) : List Warning :=
  match n with
  | .included path span =>
    if !defined.contains path && isPartName path then [⟨.undefinedPart path, span.start⟩] else []
  | .context path span => contextWarnings path span.start
  | .conditional .. => n.conditions.flatMap e.conditionWarnings
  | _ => []

/-- The warnings about a document in the order of the source. -/
def warnings (e : Engine σ) (d : Document) : List Warning :=
  let defined := (Node.parts d.children).map (·.1)
  ((Node.walk d.children).flatMap (e.nodeWarnings defined)).mergeSort
    fun a b => a.start.offset ≤ b.start.offset

def validate (e : Engine σ) (source : String) : Validation :=
  let parsed := parse source
  ⟨parsed.errors, e.warnings parsed.document⟩

end Engine

end Stencil
