import Stencil.Evaluation.Basic
import Stencil.Operator.Builtin

/-!
The truth of conditions. `AND` and `OR` stop at the operand that decides them, so that operands
behind it ask and look up nothing.
-/

namespace Stencil.Evaluation

variable {σ : Type}

/-- The names of the bindings that a message lists. -/
def publicNames (b : Bindings) : List String :=
  (b.map (·.1)).filter (· != Context.bindingName)

/-- A variable that is not bound: a fault in strict evaluation, else false. -/
def unknownVariable (e : Setup σ) (name : String) : Eval σ Bool := do
  if e.strict then
    fail (.evaluation (.unknownVariable name (publicNames (← get).bindings)))
  else return false

/-- The result for a context path, looked up now if it is not bound yet. -/
def contextResult (e : Setup σ) (path : String) : Eval σ Context.Result := do
  match Context.bound? (← get).bindings path with
  | some r => return r
  | none =>
    let results ← onWorld (Context.resolvePaths e.resolver [path])
    modify fun s => { s with bindings := Context.bind s.bindings results }
    return (results.lookup path).getD (.failed path .unavailable "")

/-- The error for a context reference without content. -/
def contextError (r : Context.Result) : Error :=
  let message := match r.error with
    | some m => if m == "" then unresolved else m
    | none => unresolved
  match r.failure with
  | some .invalidPath => .contextPath message r.path
  | f => .context message r.path f
where
  unresolved : String := "Context could not be resolved: " ++ r.path

/-- Fail unless a context path has content. -/
def requireContext (e : Setup σ) (path : String) : Eval σ Unit := do
  let r ← contextResult e path
  if !r.success then fail (contextError r)

/-- A failure of a judge, as the evaluation reports it. -/
def judgeFailure (question : String) : Failure → Failure
  | .error e => .error e
  | f => .error (.judge (.failed f.message) (some question))

/-- Put a question about a value to the judge. -/
def askJudge (e : Setup σ) (v : Value) (question : String) : Eval σ Bool := do
  match e.judge with
  | none => fail (.judge .unconfigured (some question))
  | some judge =>
    match ← onWorld (judge.ask v question) with
    | .answer a => return a.truthy
    | .failed f => throw (judgeFailure question f)
    | .stalled limit =>
      match e.timeout, limit with
      | some t, some (s, f) =>
        match seconds? t with
        | some x => if Double.le x s then fail (.timeout t) else throw (judgeFailure question f)
        | none => throw (judgeFailure question f)
      | some t, none => fail (.timeout t)
      | none, some (_, f) => throw (judgeFailure question f)
      | none, none => throw .endless

/-- Apply an operator. A failure of its own makes the evaluation fail. -/
def applyOperator (name : String) (op : Operator) (v : Value) (arg : Argument) :
    Eval σ Bool := do
  match op.handler v arg.value with
  | .ok r => return r.truthy
  | .error (.error f) => fail f
  | .error f => fail (.evaluation (.operatorFailed name f.message))

def comparison (e : Setup σ) (name operator : String) (arg : Argument) : Eval σ Bool := do
  match e.operators.find? operator with
  | none =>
    if e.strict then fail (.evaluation (.unknownOperator operator)) else return false
  | some op =>
    match ← lookup name with
    | some v => applyOperator operator op v arg
    | none =>
      if operator == "exists" then return false
      else if e.strict then unknownVariable e name
      else applyOperator operator op .null arg

mutual

/-- Whether a condition holds. -/
def holds (e : Setup σ) : Condition → Eval σ Bool
  | .literal b _ => return b
  | .ref name _ => do
    match ← lookup name with
    | some v => return v.truthy
    | none => unknownVariable e name
  | .not c _ => return !(← holds e c)
  | .and cs _ => allHold e cs
  | .or cs _ => anyHolds e cs
  | .compare name op arg _ => comparison e name op arg
  | .judge name question _ => do
    match ← lookup name with
    | some v => askJudge e v question
    | none => unknownVariable e name
  | .present path _ => do
    let r ← contextResult e path
    if r.success then return true
    else if r.failure == some .notFound then return false
    else fail (contextError r)

def allHold (e : Setup σ) : List Condition → Eval σ Bool
  | [] => return true
  | c :: cs => do if ← holds e c then allHold e cs else return false

def anyHolds (e : Setup σ) : List Condition → Eval σ Bool
  | [] => return false
  | c :: cs => do if ← holds e c then return true else anyHolds e cs

end

end Stencil.Evaluation
