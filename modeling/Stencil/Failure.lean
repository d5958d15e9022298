import Stencil.Value.Show
import Stencil.Template.Diagnostic

/-!
What can go wrong with a template, its collaborators and its files. Each cause is a constructor;
the words for it are in one place.
-/

namespace Stencil

/-- Why an imported document cannot be loaded. -/
inductive ImportFault where
  | emptyPath
  | notAFile (path : String)
  | notRelative (path : String)
  | outsideRoot (path : String)
  | notFound (path : String)
  | unreadable (path detail : String)
deriving DecidableEq

namespace ImportFault

def message : ImportFault → String
  | emptyPath => "Import path cannot be empty"
  | notAFile path => "Import path must be a relative file path: " ++ path
  | notRelative path => "Import path must be relative: " ++ path
  | outsideRoot path => "Import path escapes the import root: " ++ path
  | notFound path => "Import not found: " ++ path
  | unreadable path detail => "Cannot read import " ++ Text.quoted path ++ ": " ++ detail

end ImportFault

/-- Why a value cannot be put to a judge. -/
inductive UnjudgeableValue where
  | notFinite
  | namelessKey (key : String)
  | kind (name : String)
deriving DecidableEq

/-- Why a template cannot be evaluated. -/
inductive EvaluationFault where
  | unknownVariable (name : String) (available : List String)
  | unknownOperator (name : String)
  | circularInclude (chain : List String)
  | circularImport (chain : List String)
  | partNotFound (name : String)
  | noImportLoader (path : String)
  | operatorFailed (name detail : String)
  | importFailed (fault : ImportFault)
  | unjudgeable (fault : UnjudgeableValue) (path : String)
  /-- As a collaborator words it. -/
  | stated (message : String)
deriving DecidableEq

namespace EvaluationFault

/-- The names of variables that are listed with the fault. -/
def available : EvaluationFault → List String
  | unknownVariable _ names => names
  | _ => []

def cause : EvaluationFault → String
  | unknownVariable name _ => "Unknown variable '" ++ name ++ "' in condition"
  | unknownOperator name => "Unknown operator '#" ++ name ++ "'"
  | circularInclude chain => "Circular include: " ++ " -> ".intercalate chain
  | circularImport chain => "Circular import: " ++ " -> ".intercalate chain
  | partNotFound name => "Section not found: " ++ name
  | noImportLoader path => "No import loader configured for " ++ Text.quoted path
  | operatorFailed name detail => "Operator '#" ++ name ++ "' failed: " ++ detail
  | importFailed f => f.message
  | unjudgeable .notFinite path => "Cannot judge non-finite number at " ++ path
  | unjudgeable (.namelessKey key) path =>
    "Cannot judge mapping with non-string key " ++ key ++ " at " ++ path
  | unjudgeable (.kind name) path => "Cannot judge value of type " ++ name ++ " at " ++ path
  | stated m => m

/-- The names in code point order. -/
def sortedNames (names : List String) : List String := names.mergeSort fun a b => a ≤ b

def message (f : EvaluationFault) : String :=
  if f.available.isEmpty then f.cause
  else f.cause ++ "\nAvailable variables: " ++ ", ".intercalate (sortedNames f.available)

end EvaluationFault

/-- Why an evaluated template cannot be rendered. -/
inductive RenderFault where
  | missingVariable (name : String)
  | unresolvedImport (path : String)
  | unresolvedInclude (path : String)
  | unevaluated
  | noContext (path reason : String)
deriving DecidableEq

namespace RenderFault

/-- The kind of node that cannot be rendered. -/
def nodeKind : RenderFault → String
  | missingVariable _ => "VariableNode"
  | unresolvedImport _ => "ImportNode"
  | unresolvedInclude _ => "IncludeNode"
  | unevaluated => "ConditionalNode"
  | noContext .. => "ContextNode"

def message : RenderFault → String
  | missingVariable name => "Missing variable: " ++ name
  | unresolvedImport path => "Unresolved ImportNode: " ++ path
  | unresolvedInclude path => "Unresolved IncludeNode: " ++ path
  | unevaluated => "Cannot render an unevaluated conditional; evaluate the document first"
  | noContext path reason => "Context " ++ path ++ " unavailable: " ++ reason

end RenderFault

/-- Why a judge gave no answer. -/
inductive JudgeFault where
  | unconfigured
  | failed (detail : String)
  | timedOut (seconds : Double)
  | provider (detail : String)
  | stated (message : String)
deriving DecidableEq

namespace JudgeFault

def message : JudgeFault → String
  | unconfigured =>
    "AI judge condition requires an AI provider; configure ai_provider or pass ai_judge"
  | failed detail => "AI judge failed: " ++ detail
  | timedOut seconds => "AI judge timed out after " ++ Number.doubleText seconds ++ "s"
  | provider detail => "AI judge provider error: " ++ detail
  | stated m => m

end JudgeFault

/-- An error of this library. -/
inductive Error where
  /-- The source has faults; that of an imported document is named by its path. -/
  | malformed (imported : Option String) (source : String) (errors : List Diagnostic)
  | evaluation (fault : EvaluationFault)
  | render (fault : RenderFault)
  /-- A context path that is no context path. -/
  | contextPath (message path : String)
  /-- A context reference without content where it is needed. -/
  | context (message path : String) (failure : Option Context.Reason)
  | judge (fault : JudgeFault) (question : Option String)
  /-- Evaluation took longer than it may, in seconds. -/
  | timeout (seconds : Value)
  /-- Settings that cannot be used, with the field and the value at fault. -/
  | settings (message : String) (field : Option String) (value : Value)
  /-- A suite or data file that cannot be used. -/
  | suiteFile (message : String) (source : Option String)
  | plugin (message : String) (plugin : Option String)

namespace Error

def message : Error → String
  | malformed none source errors =>
    "Template has syntax errors:\n" ++ Diagnostic.reportAll errors source
  | malformed (some path) _ errors =>
    "Syntax errors in imported template " ++ Text.quoted path ++ ": " ++
      "; ".intercalate (errors.map (·.text))
  | evaluation f => f.message
  | render f => f.message
  | contextPath m _ => m
  | context m _ _ => m
  | judge f _ => f.message
  | timeout seconds =>
    "Evaluation exceeded " ++ (match seconds.show with | .ok s => s | .error _ => "") ++ "s"
  | settings m _ _ => m
  | suiteFile m none => m
  | suiteFile m (some source) => if source == "" then m else m ++ " (in " ++ source ++ ")"
  | plugin m _ => m

/-- The name of the error's kind. -/
def kind : Error → String
  | malformed .. => "EchoSyntaxError"
  | evaluation _ => "EvaluationError"
  | render _ => "RenderError"
  | contextPath .. => "EchoValidationError"
  | context .. => "ContextResolutionError"
  | judge .. => "AIJudgeError"
  | timeout _ => "EvaluationTimeoutError"
  | settings .. => "ConfigError"
  | suiteFile .. => "EvalLoadError"
  | plugin .. => "PluginError"

end Error

/-- What a caller may not ask for. -/
inductive Misuse where
  /-- An operator under a name that no template can use. -/
  | operatorName (name : String)
  /-- An operator under a name that stands for a judge. -/
  | reservedName (name : String)
  /-- A cache that remembers for no time. -/
  | cacheTime
deriving DecidableEq

namespace Misuse

def message : Misuse → String
  | operatorName name => "Invalid operator name: " ++ Text.quoted name
  | reservedName name =>
    "Operator name " ++ Text.quoted name ++ " is reserved for AI judge conditions"
  | cacheTime => "ttl must be positive"

end Misuse

/-- Why an operation has no result. -/
inductive Failure where
  | error (e : Error)
  | misuse (m : Misuse)
  /-- A value cannot be converted or compared. -/
  | value (f : ValueFault)
  /-- A collaborator or the system failed in its own way. -/
  | foreign (kind message : String)
  /-- The operation does not come to an end. -/
  | endless

namespace Failure

def message : Failure → String
  | error e => e.message
  | misuse m => m.message
  | value f => f.message
  | foreign _ m => m
  | endless => ""

/-- The name of the failure's kind. -/
def kind : Failure → String
  | error e => e.kind
  | misuse _ => "ValueError"
  | value f => f.kind
  | foreign kind _ => kind
  | endless => ""

/-- The message, or the kind when there is no message. -/
def summary (f : Failure) : String := if f.message == "" then f.kind else f.message

/-- Whether the failure is an error of this library. -/
def isOwn : Failure → Bool
  | error _ => true
  | _ => false

end Failure

/-- A conversion's fault as a failure. -/
def ofValue {α : Type} : Except ValueFault α → Except Failure α
  | .ok a => .ok a
  | .error f => .error (.value f)

end Stencil
