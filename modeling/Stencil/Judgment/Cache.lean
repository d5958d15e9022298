import Stencil.Digest.Sha256
import Stencil.Failure
import Stencil.Json.Writer

/-!
Judgments remembered for a time.

The key under which a judgment is remembered is a digest of the value, the question and who is
asked. Values that can be judged are those that JSON has a form for. An entry that is older than
the cache allows is dropped when it is asked for.
-/

namespace Stencil.Judgment

mutual

/-- The first part of a value that cannot be judged, and why; `path` leads to the value. -/
def fault? (path : String) : Value → Option EvaluationFault
  | .float x => if x.isFinite then none else some (.unjudgeable .notFinite path)
  | .list xs => itemFault? path 0 xs
  | .tuple xs => itemFault? path 0 xs
  | .dict kvs => entryFault? path kvs
  | .bytes _ => some (.unjudgeable (.kind "bytes") path)
  | .date _ => some (.unjudgeable (.kind "date") path)
  | .moment _ => some (.unjudgeable (.kind "datetime") path)
  | .context r => some (.unjudgeable (.kind (Value.context r).kind) path)
  | .null | .bool _ | .int _ | .text _ => none

def itemFault? (path : String) (i : Nat) : List Value → Option EvaluationFault
  | [] => none
  | v :: vs =>
    match fault? (path ++ "[" ++ Number.natText i ++ "]") v with
    | some f => some f
    | none => itemFault? path (i + 1) vs

def entryFault? (path : String) : List (Value × Value) → Option EvaluationFault
  | [] => none
  | (k, v) :: rest =>
    match k with
    | .text name =>
      match fault? (path ++ "." ++ name) v with
      | some f => some f
      | none => entryFault? path rest
    | k => some (.unjudgeable (.namelessKey ((k.inspect).toOption.getD "")) path)

end

/-- JSON with one form for each value: keys in order, no blanks, characters as they are. -/
def canonical : Json.Style := { Json.compact with sorted := true, names := false }

/-- What the key is the digest of. -/
def payload (v : Value) (question provider model : String) : Except ValueFault String :=
  Json.write canonical (.ofBindings
    [("value", v), ("question", .text question), ("provider", .text provider),
     ("model", .text model)])

/-- The key of a judgment. -/
def key (v : Value) (question provider model : String) : Except Failure String :=
  match fault? "value" v with
  | some f => .error (.error (.evaluation f))
  | none => (ofValue (payload v question provider model)).map Digest.ofText

/-- What a clock may count seconds in: numbers with differences and an order. -/
class TimeScale (τ : Type) where
  zero : τ
  sub : τ → τ → τ
  lt : τ → τ → Bool
  le : τ → τ → Bool

instance : TimeScale Double where
  zero := .zero false
  sub := Double.sub
  lt := Double.lt
  le := Double.le

structure Entry (τ : Type := Double) where
  result : Bool
  /-- The clock when the judgment was made, in seconds. -/
  storedAt : τ

/-- Judgments by key, each valid for `ttl` seconds. -/
structure Cache (τ : Type := Double) where
  ttl : τ
  entries : List (String × Entry τ) := []

namespace Cache

variable {τ : Type}

/-- An empty cache, if the time is more than none. -/
def make [TimeScale τ] (ttl : τ) : Except Failure (Cache τ) :=
  if TimeScale.le ttl TimeScale.zero then .error (.misuse .cacheTime) else .ok { ttl }

/-- How long judgments are remembered unless set otherwise. -/
def standardTtl : Double := Double.ofInt 300

/-- The entry is too old to be used. -/
def isExpired [TimeScale τ] (c : Cache τ) (e : Entry τ) (now : τ) : Bool :=
  TimeScale.lt c.ttl (TimeScale.sub now e.storedAt)

/-- The judgment under a key if it is still valid, and the cache without it if it is not. -/
def get [TimeScale τ] (c : Cache τ) (key : String) (now : τ) : Option Bool × Cache τ :=
  match c.entries.lookup key with
  | none => (none, c)
  | some e =>
    if c.isExpired e now then (none, { c with entries := c.entries.filter (·.1 != key) })
    else (some e.result, c)

/-- The cache with a judgment made now under a key. -/
def set (c : Cache τ) (key : String) (result : Bool) (now : τ) : Cache τ :=
  { c with entries := (c.entries.filter (·.1 != key)) ++ [(key, ⟨result, now⟩)] }

def clear (c : Cache τ) : Cache τ := { c with entries := [] }

def size (c : Cache τ) : Nat := c.entries.length

end Cache

end Stencil.Judgment
