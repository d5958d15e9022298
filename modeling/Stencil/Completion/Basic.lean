import Stencil.Settings.Basic

/-!
Completion services: what is sent to them, what comes back.
-/

namespace Stencil.Completion

inductive Role where
  | system
  | user
deriving DecidableEq

namespace Role

def word : Role → String
  | system => "system"
  | user => "user"

end Role

structure Message where
  role : Role
  content : String
deriving DecidableEq

/-- What a request asks for, passed on as given; null leaves it to the service. -/
structure Options where
  model : Option String := none
  temperature : Value := .null
  maxTokens : Value := .null

structure Request where
  messages : List Message
  options : Option Options := none

structure Usage where
  prompt : Int := 0
  completion : Int := 0

namespace Usage

def total (u : Usage) : Int := u.prompt + u.completion

end Usage

structure Response where
  text : Option String
  model : String
  /-- The kind of the service that answered, in its own word. -/
  provider : Option String := none
  latencyMs : Value := .float (.zero false)
  usage : Usage := {}

/-- What comes of a request. -/
inductive Outcome where
  | answer (r : Response)
  | failed (f : Failure)
  /-- No answer comes. -/
  | stalled

/-- A completion service. It keeps its own state. -/
structure Provider (σ : Type) where
  complete : Request → StateM σ Outcome

/-- The failure of a service that says itself that time ran out. -/
def isTimeout : Failure → Bool
  | .foreign kind _ => kind == "TimeoutError"
  | _ => false

end Stencil.Completion
