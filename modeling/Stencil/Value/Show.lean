import Stencil.Value.Basic
import Stencil.Text.Quoted

/-!
The text of a value: `show` as a prompt splices it in, `inspect` as a message quotes it.
-/

namespace Stencil

/-- An integer in decimal, unless it has too many digits. -/
def showInt (n : Int) : Except ValueFault String :=
  if Nat.pow 10 ValueFault.digitLimit ≤ n.natAbs then .error .tooManyDigits
  else .ok (Number.intText n)

namespace Context.Result

def inspectOpt : Option String → String
  | none => "None"
  | some s => Text.quoted s

/-- The fields of a result, as a message shows them. -/
def inspect (r : Result) : String :=
  let content := match r.content with
    | none => "None"
    | some c => "ResolvedContent(mime_type=" ++ Text.quoted c.mimeType ++ ", text=" ++
        inspectOpt c.text ++ ", data_url=" ++ inspectOpt c.dataUrl ++ ")"
  let failure := match r.failure with
    | none => "None"
    | some f => "<ContextFailure." ++ f.word.toUpper ++ ": " ++ Text.quoted f.word ++ ">"
  "ContextResolveResult(path=" ++ Text.quoted r.path ++ ", content=" ++ content ++
    ", failure=" ++ failure ++ ", error=" ++ inspectOpt r.error ++ ")"

end Context.Result

namespace Value

mutual

/-- The value as messages quote it: texts in quotes, collections in brackets. -/
def inspect : Value → Except ValueFault String
  | null => .ok "None"
  | bool b => .ok (if b then "True" else "False")
  | int n => showInt n
  | float x => .ok (Number.doubleText x)
  | text s => .ok (Text.quoted s)
  | bytes bs => .ok (Text.quotedBytes bs)
  | date d => .ok d.shown
  | moment m => .ok m.shown
  | list xs => do return "[" ++ ", ".intercalate (← inspectItems xs) ++ "]"
  | tuple xs => do
    match ← inspectItems xs with
    | [one] => return "(" ++ one ++ ",)"
    | parts => return "(" ++ ", ".intercalate parts ++ ")"
  | dict kvs => do return "\x7b" ++ ", ".intercalate (← inspectEntries kvs) ++ "\x7d"
  | context r => .ok r.inspect

def inspectItems : List Value → Except ValueFault (List String)
  | [] => .ok []
  | v :: vs => do return (← inspect v) :: (← inspectItems vs)

def inspectEntries : List (Value × Value) → Except ValueFault (List String)
  | [] => .ok []
  | (k, v) :: rest => do
    return ((← inspect k) ++ ": " ++ (← inspect v)) :: (← inspectEntries rest)

end

/-- The value as plain text: a text is itself, a date or time reads as written. -/
def «show» : Value → Except ValueFault String
  | text s => .ok s
  | date d => .ok d.text
  | moment m => .ok m.text
  | v => v.inspect

end Value

end Stencil
