import Stencil.Completion.Basic
import Stencil.Judgment.Cache

/-!
A judge that puts its questions to a completion service, and one that remembers its answers.
-/

namespace Stencil.Judgment

open Completion

def instruction : String :=
  "You are a precise yes/no evaluator. Answer ONLY with \"yes\" or \"no\" " ++
    "(lowercase, no punctuation). Do not explain or elaborate."

/-- JSON laid out over lines. -/
def laidOut : Json.Style := { indent := some 2 }

/-- The question as the service gets it, under the value: a text as it is, all else as JSON. -/
def prompt (v : Value) (question : String) : Except ValueFault String := do
  let shown ← match v with
    | .text s => pure s
    | v => Json.write laidOut v
  return "Given the following value:\n---\n" ++ shown ++
    "\n---\n\nAnswer with ONLY \"yes\" or \"no\":\n" ++ question

/-- Only a plain yes counts as one. -/
def isYes (answer : Option String) : Bool := Text.lower (Text.strip (answer.getD "")) == "yes"

/-- How a question is asked: without chance, for a few tokens. -/
def options (s : ProviderSettings) : Options :=
  ⟨some s.model, .float (.zero false), .int 10⟩

def request (s : ProviderSettings) (shown : String) : Request :=
  ⟨[⟨.system, instruction⟩, ⟨.user, shown⟩], some (options s)⟩

/-- The judge behind which a completion service stands. -/
def ofProvider {σ : Type} (s : ProviderSettings) (p : Provider σ) : Judge σ where
  ask v question := do
    let timedOut := Failure.error (.judge (.timedOut s.timeout) (some question))
    match prompt v question with
    | .error f => return .failed (.value f)
    | .ok shown =>
      match ← p.complete (request s shown) with
      | .answer r => return .answer (.bool (isYes r.text))
      | .stalled => return .stalled (some (s.timeout, timedOut))
      | .failed f =>
        if isTimeout f then return .failed timedOut
        else return .failed (.error (.judge (.provider f.message) (some question)))

/-- Where a cache is kept in a state, and the clock that it goes by. -/
structure Memory (σ : Type) where
  read : σ → Cache
  write : Cache → σ → σ
  now : σ → Double

namespace Memory

variable {σ : Type}

/-- Look up a judgment. -/
def find (m : Memory σ) (key : String) : StateM σ (Option Bool) := fun w =>
  let (found, c) := (m.read w).get key (m.now w)
  (found, m.write c w)

/-- Remember a judgment. -/
def keep (m : Memory σ) (key : String) (result : Bool) : StateM σ Unit :=
  modify fun w => m.write ((m.read w).set key result (m.now w)) w

/-- Forget all judgments, and remember new ones for a time. -/
def renew (m : Memory σ) (ttl : Double) : StateM σ Unit := modify (m.write { ttl })

/-- What is known before another judge is asked: the verdict, or the key that one is to be kept
under. -/
def look (m : Memory σ) (provider model : String) (v : Value) (question : String) :
    StateM σ (Verdict ⊕ String) := do
  match key v question provider model with
  | .error f => return .inl (.failed f)
  | .ok k =>
    match ← m.find k with
    | some b => return .inl (.answer (.bool b))
    | none => return .inr k

/-- What is done once another judge has come to a verdict: an answer is kept. -/
def settle (m : Memory σ) (key : String) (verdict : Verdict) : StateM σ Verdict := do
  if let .answer a := verdict then m.keep key a.truthy
  return verdict

end Memory

/-- A judge that asks another one once for each value and question, while it remembers. Others may
be at work between the look and the verdict, and between the verdict and its keeping. -/
def remembering {σ : Type} (m : Memory σ) (provider model : String) (judge : Judge σ) :
    Judge σ where
  ask v question := do
    match ← m.look provider model v question with
    | .inl verdict => return verdict
    | .inr k => m.settle k (← judge.ask v question)

/-- A judge behind which a completion service stands, with its answers remembered. -/
def standard {σ : Type} (s : ProviderSettings) (p : Provider σ) (m : Memory σ) : Judge σ :=
  remembering m s.kind.word s.model (ofProvider s p)

end Stencil.Judgment
