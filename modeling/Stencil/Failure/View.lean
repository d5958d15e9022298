import Stencil.Engine.Validate
import Stencil.Template.View

/-!
Failures and the findings of checks as mappings, for tools that read them.
-/

namespace Stencil

/-- What an error knows beside its message. -/
def Error.details : Error → Bindings
  | .malformed _ _ ds =>
    [("errors", .list (ds.map fun d =>
      .list [.text d.problem.code.word, View.position d.start]))]
  | .evaluation f =>
    [("context_vars", .list ((EvaluationFault.sortedNames f.available).map .text))]
  | .render f => [("node_type", .text f.nodeKind)]
  | .contextPath _ p => [("path", .text p)]
  | .context _ p f => [("path", .text p), ("failure", .ofOptText (f.map (·.word)))]
  | .judge _ q => [("question", .ofOptText q)]
  | .timeout s => [("timeout_seconds", s)]
  | .settings _ f v => [("field", .ofOptText f), ("value", v)]
  | .suiteFile _ s => [("source", .ofOptText s)]
  | .plugin _ p => [("plugin", .ofOptText p)]

/-- The kind of a failure, its message, and its details if it has any. -/
def Failure.toValue (f : Failure) : Value :=
  .ofBindings ([("error", .text f.kind), ("message", .text f.message)] ++
    match f with
    | .error e => [("attrs", .ofBindings e.details)]
    | _ => [])

def Warning.toValue (w : Warning) : Value :=
  .ofBindings
    [("code", .text w.caution.code), ("message", .text w.caution.message),
     ("at", View.position w.start), ("str", .text w.text)]

def Validation.toValue (v : Validation) : Value :=
  .ofBindings
    [("valid", .bool v.valid), ("errors", .list (v.errors.map Diagnostic.toValue)),
     ("warnings", .list (v.warnings.map Warning.toValue))]

end Stencil
