import Stencil.Engine.Basic

/-!
Rendering a template and sending the text to a completion service.
-/

namespace Stencil

/-- A rendered prompt and what came back for it. -/
structure Answered where
  prompt : String
  response : Completion.Response

open Completion in
/-- The request for a prompt, with a message of the system in front unless it is empty. -/
def promptRequest (system : Option String) (options : Options) (prompt : String) : Request :=
  let front := match system with
    | some s => if s == "" then [] else [⟨.system, s⟩]
    | none => []
  ⟨front ++ [⟨.user, prompt⟩], some options⟩

/-- Render a template and have the text completed. -/
def Engine.runPrompt {σ : Type} (e : Engine σ) (provider : Completion.Provider σ)
    (system : Option String) (options : Completion.Options) (source : String) (b : Bindings) :
    StateM σ (Except Failure Answered) := do
  match ← e.render source b none none with
  | .error f => return .error f
  | .ok prompt =>
    match ← provider.complete (promptRequest system options prompt) with
    | .answer r => return .ok ⟨prompt, r⟩
    | .failed f => return .error f
    | .stalled => return .error .endless

end Stencil
