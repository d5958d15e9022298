import Stencil.Completion.Basic
import Stencil.Evaluation.Basic
import Stencil.Json.Reader
import Stencil.Pattern.Read
import Stencil.Pattern.Search
import Stencil.Suite.Read

/-!
Checking expectations. An expectation that cannot be checked gives an error finding and stops
nothing.
-/

namespace Stencil.Suite

/-- What expectations are about: a text, and how it came about where it is a completion. A
completion may have no text. -/
structure Subject (σ : Type) where
  text : Option String
  response : Option Completion.Response := none
  judge : Option (Judge σ) := none

/-- Why an expectation cannot be checked. -/
inductive CheckFault where
  | unknown (operator : String)
  | withoutJudge (operator : String)
  | withoutData (what : String)
  /-- The check itself broke off. -/
  | broken (detail : String)
deriving DecidableEq

def CheckFault.message : CheckFault → String
  | unknown op => "Unknown assertion operator: " ++ op
  | withoutJudge op => "AI provider not configured; cannot run " ++ op ++ " assertion"
  | withoutData what => "No " ++ what ++ " data available"
  | broken detail => "Assertion error: " ++ detail

/-- What a check finds out, before it has its operator's name. -/
structure Insight where
  passed : Bool
  expected : Option String := none
  actual : Option String := none
  message : Option String := none

abbrev Check := Except CheckFault Insight

/-- The first characters of a text; dots show that there are more. -/
def shorten (s : String) : String :=
  if s.length ≤ 100 then s else String.ofList (s.toList.take 100) ++ "..."

def breakOff {α : Type} (detail : String) : Except CheckFault α := .error (.broken detail)

/-- A conversion that may break off. -/
def orBreak {α : Type} : Except ValueFault α → Except CheckFault α
  | .ok a => .ok a
  | .error f => .error (.broken f.message)

/-- The text of the subject, or how the lack of one shows. -/
def needText {α : Type} (detail : String) (text : Option String)
    (f : String → Except CheckFault α) :
    Except CheckFault α :=
  match text with
  | some s => f s
  | none => breakOff detail

def noMember (name : String) : String := "'NoneType' object has no attribute '" ++ name ++ "'"

def inQuotes (s : String) : String := "\"" ++ s ++ "\""

/-! ### Texts -/

def contains (value : Value) (text : Option String) : Check := do
  let expected ← orBreak value.show
  needText "argument of type 'NoneType' is not iterable" text fun s =>
    if Text.hasText expected s then .ok { passed := true, expected }
    else .ok ⟨false, expected, shorten s, "Expected output to contain " ++ inQuotes expected⟩

def containsNot (value : Value) (text : Option String) : Check := do
  let expected ← orBreak value.show
  needText "argument of type 'NoneType' is not iterable" text fun s =>
    let shown := "not " ++ inQuotes expected
    if Text.hasText expected s then
      .ok ⟨false, shown, none, "Expected output NOT to contain " ++ inQuotes expected⟩
    else .ok { passed := true, expected := shown }

/-- Equality but for blanks at the ends. -/
def equals (value : Value) (text : Option String) : Check := do
  let expected ← orBreak value.show
  needText (noMember "strip") text fun s =>
    if Text.strip s == Text.strip expected then .ok { passed := true, expected }
    else .ok ⟨false, expected, shorten s, "Output does not match expected text"⟩

def «matches» (value : Value) (text : Option String) : Check := do
  let pattern ← orBreak value.show
  match Regex.read pattern with
  | .error f => breakOff (f.message pattern)
  | .ok r =>
    needText "expected string or bytes-like object, got 'NoneType'" text fun s =>
      if r.foundIn s then .ok { passed := true, expected := pattern }
      else .ok ⟨false, pattern, none, "Output does not match pattern: " ++ pattern⟩

/-- The text behind its leading blanks starts so. -/
def startsWith (value : Value) (text : Option String) : Check := do
  let expected ← orBreak value.show
  needText (noMember "lstrip") text fun s =>
    if Text.startsWith expected (String.ofList (s.toList.dropWhile Text.isBlank)) then
      .ok { passed := true, expected }
    else .ok ⟨false, expected, none, "Expected output to start with " ++ inQuotes expected⟩

/-- The text before its trailing blanks ends so. -/
def endsWith (value : Value) (text : Option String) : Check := do
  let expected ← orBreak value.show
  needText (noMember "rstrip") text fun s =>
    let kept := (s.toList.reverse.dropWhile Text.isBlank).reverse
    if Text.endsWith expected (String.ofList kept) then .ok { passed := true, expected }
    else .ok ⟨false, expected, none, "Expected output to end with " ++ inQuotes expected⟩

/-! ### Figures -/

/-- The bounds in a mapping; an absent one is null. -/
def boundsOf (value : Value) : Except CheckFault (Value × Value) :=
  match value with
  | .dict entries =>
    .ok ((Value.named? "min" entries).getD .null, (Value.named? "max" entries).getD .null)
  | v => do
    breakOff ("expected a mapping with min/max, got " ++ (← orBreak v.inspect))

/-- The name of a value's kind, as an order between two kinds is refused. -/
def orderedKind : Value → String
  | .date _ => "datetime.date"
  | .moment _ => "datetime.datetime"
  | v => v.kind

/-- Compare two numbers. Truth values are numbers; nothing else is. -/
def compareBy (relation : String) (test : Double.Place → Double.Place → Bool) (a b : Value) :
    Except CheckFault Bool :=
  match number? a, number? b with
  | some x, some y =>
    match x, y with
    | some x, some y => .ok (test x y)
    | _, _ => .ok false
  | _, _ => orBreak (.error (.unordered relation (orderedKind a) (orderedKind b)))
where
  /-- A number's place among all numbers, which one that is no number has not. -/
  number? : Value → Option (Option Double.Place)
    | .int n => some (some (Double.placeOfInt n))
    | .bool b => some (some (Double.placeOfInt (if b then 1 else 0)))
    | .float x => some x.place?
    | _ => none

def isLess (a b : Value) : Except CheckFault Bool := compareBy "<" Double.Place.lt a b

def isGreater (a b : Value) : Except CheckFault Bool :=
  compareBy ">" (fun x y => Double.Place.lt y x) a b

def isAtMost (a b : Value) : Except CheckFault Bool :=
  compareBy "<=" (fun x y => Double.Place.lt x y || x == y) a b

/-- A bound with the text for none. -/
def shownBound (absent : String) : Value → Except CheckFault String
  | .null => .ok absent
  | v => orBreak v.show

/-- A count within bounds. -/
def within (unit : String) (count : Int) (value : Value) : Check := do
  let (low, high) ← boundsOf value
  let n := Value.int count
  let isPast (absent : Bool) (test : Value → Value → Except CheckFault Bool) (bound : Value) :
      Except CheckFault Bool := if absent then .ok false else test n bound
  let isNull : Value → Bool
    | .null => true
    | _ => false
  let counted := unit ++ " " ++ Number.intText count
  let below ← isPast (isNull low) isLess low
  let tooLow ← if below then (fun s => [counted ++ " < min " ++ s]) <$> orBreak low.show else .ok []
  let above ← isPast (isNull high) isGreater high
  let tooHigh ←
    if above then (fun s => [counted ++ " > max " ++ s]) <$> orBreak high.show else .ok []
  let problems := tooLow ++ tooHigh
  return ⟨problems.isEmpty, (← shownBound "0" low) ++ ".." ++ (← shownBound "inf" high),
    Number.intText count, if problems.isEmpty then none else some (", ".intercalate problems)⟩

def length (value : Value) (text : Option String) : Check :=
  needText "object of type 'NoneType' has no len()" text fun s => within "length" s.length value

def wordCount (value : Value) (text : Option String) : Check :=
  needText (noMember "split") text fun s => within "word count" (Text.words s).length value

/-- A number of milliseconds without a fraction. -/
def shownMilliseconds : Value → Except CheckFault String
  | .float x => .ok (Number.fixedText 0 x)
  | .int n => ofInt n
  | .bool b => ofInt (if b then 1 else 0)
  | .text _ => breakOff "Unknown format code 'f' for object of type 'str'"
  | v => breakOff ("unsupported format string passed to " ++ orderedKind v ++ ".__format__")
where
  ofInt (n : Int) : Except CheckFault String :=
    match Double.ofInt? n with
    | some x => .ok (Number.fixedText 0 x)
    | none => orBreak (.error .beyondDouble)

def latency (value : Value) (response : Option Completion.Response) : Check :=
  match response with
  | none => .error (.withoutData "latency")
  | some r => do
    let (_, limit) ← boundsOf value
    let passed ← match limit with
      | .null => pure true
      | limit => isAtMost r.latencyMs limit
    let shown := (← orBreak limit.show) ++ "ms"
    let actual := (← shownMilliseconds r.latencyMs) ++ "ms"
    return ⟨passed, "<= " ++ shown, actual,
      if passed then none else some ("Latency " ++ actual ++ " exceeds max " ++ shown)⟩

def tokenCount (value : Value) (response : Option Completion.Response) : Check :=
  match response with
  | none => .error (.withoutData "token count")
  | some r => within "tokens" r.usage.completion value

/-! ### Structure -/

def isJson (text : Option String) : Except CheckFault Bool :=
  needText "the JSON object must be str, bytes or bytearray, not NoneType" text fun s =>
    match Json.read s with
    | .ok _ => .ok true
    | .error .malformed => .ok false
    | .error (.value f) => orBreak (.error f)

def notJson : String := "Output is not valid JSON"

def jsonValid (text : Option String) : Check := do
  let passed ← isJson text
  return { passed, message := if passed then none else some notJson }

/-- Only that the text is JSON is checked, whatever the schema. -/
def jsonSchema (text : Option String) : Check := do
  let passed ← isJson text
  let message := if passed then "JSON is valid (schema not checked)" else notJson
  return { passed, message }

/-! ### Judgments -/

variable {σ : Type}

/-- The question that an expectation puts to a judge, and what its answer means. -/
structure Question where
  question : String
  expected : String
  message : Bool → String

def judged (value : Value) : Except CheckFault Question := do
  let question ← orBreak value.show
  return ⟨question, question, fun b => "LLM judge answered " ++ if b then "yes" else "no"⟩

def sentiment (value : Value) : Except CheckFault Question := do
  let expected ← orBreak value.show
  return ⟨"Does this text have a " ++ expected ++ " sentiment or tone?", expected,
    fun b => (if b then "Sentiment is " else "Sentiment does not match expected: ") ++ expected⟩

/-- Put a question to the judge. A judge that never answers leaves no finding. -/
def askJudge (operator : String) (question : Except CheckFault Question) (s : Subject σ) :
    StateM σ (Option Check) :=
  match question, s.judge with
  | .error f, _ => pure (some (.error f))
  | .ok _, none => pure (some (.error (.withoutJudge operator)))
  | .ok q, some judge => do
    match ← judge.ask (.ofOptText s.text) q.question with
    | .answer v => return some (.ok ⟨v.truthy, q.expected, none, some (q.message v.truthy)⟩)
    | .failed f | .stalled (some (_, f)) => return some (.error (.broken f.message))
    | .stalled none => return none

/-! ### Expectations -/

/-- Check an expectation of an operator. -/
def Operator.check (op : Operator) (value : Value) (s : Subject σ) : StateM σ (Option Check) :=
  match op with
  | contains => pure (some (Suite.contains value s.text))
  | notContains => pure (some (containsNot value s.text))
  | equals => pure (some (Suite.equals value s.text))
  | «matches» => pure (some (Suite.«matches» value s.text))
  | startsWith => pure (some (Suite.startsWith value s.text))
  | endsWith => pure (some (Suite.endsWith value s.text))
  | length => pure (some (Suite.length value s.text))
  | wordCount => pure (some (Suite.wordCount value s.text))
  | jsonValid => pure (some (Suite.jsonValid s.text))
  | jsonSchema => pure (some (Suite.jsonSchema s.text))
  | judged => askJudge op.word (Suite.judged value) s
  | sentiment => askJudge op.word (Suite.sentiment value) s
  | latency => pure (some (Suite.latency value s.response))
  | tokenCount => pure (some (Suite.tokenCount value s.response))
  | cost => pure (some (.error (.withoutData "cost")))

/-- The finding that a check gives. -/
def findingOf (operator : String) : Check → Finding
  | .ok i => ⟨operator, .ofBool i.passed, i.expected, i.actual, i.message⟩
  | .error f => { operator, status := .error, message := some f.message }

/-- Check an expectation. There is no finding where a judge never answers. -/
def Assertion.check (a : Assertion) (s : Subject σ) : StateM σ (Option Finding) := do
  match Operator.ofWord? a.operator with
  | none => return some (findingOf a.operator (.error (.unknown a.operator)))
  | some op => return (← op.check a.value s).map (findingOf a.operator)

/-- Check expectations in turn. -/
def checkAll (s : Subject σ) : List Assertion → StateM σ (Option (List Finding))
  | [] => pure (some [])
  | a :: as => do
    match ← a.check s with
    | none => return none
    | some f => return (← checkAll s as).map (f :: ·)

end Stencil.Suite
