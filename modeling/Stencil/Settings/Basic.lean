import Stencil.Render

/-!
The settings of a session: how templates are evaluated and rendered, and the services behind
judges and context references.
-/

namespace Stencil

/-- The families of completion services. -/
inductive ProviderKind where
  | openai
  | anthropic
deriving DecidableEq

namespace ProviderKind

def word : ProviderKind → String
  | openai => "openai"
  | anthropic => "anthropic"

/-- The model that answers yes or no questions unless another is set. -/
def judgeModel : ProviderKind → String
  | openai => "gpt-4o-mini"
  | anthropic => "claude-haiku-4-5-20251001"

end ProviderKind

/-- The completion service behind a judge. -/
structure ProviderSettings where
  kind : ProviderKind := .openai
  apiKey : String := ""
  model : String := kind.judgeModel
  temperature : Double := Double.ofRatio false 7 10
  maxTokens : Option Int := none
  timeout : Double := Double.ofInt 30

/-- The service that holds context assets. -/
structure StoreSettings where
  /-- Without slashes at its end. -/
  serverUrl : String
  auth : String := ""
  promptId : Option String := none
  timeout : Double := Double.ofInt 10
  maxRetries : Int := 2
  /-- How many requests may be sent in a period. -/
  rateLimit : Option Int := none
  ratePeriod : Double := Double.ofInt 60

structure Settings where
  strict : Bool := false
  missingVariable : MissingVariable := .empty
  trim : Bool := false
  collapseNewlines : Bool := true
  provider : Option ProviderSettings := none
  contextStore : Option StoreSettings := none
  /-- How many seconds a judgment is remembered. -/
  judgeCacheTtl : Double := Double.ofInt 300
  /-- How many seconds an evaluation may take. -/
  evaluationTimeout : Option Double := none
  importRoot : Option String := none

namespace Settings

def policy (s : Settings) : Render.Policy := ⟨s.strict, s.missingVariable⟩

def finish (s : Settings) : Render.Finish := ⟨s.trim, s.collapseNewlines⟩

end Settings

end Stencil
