import Stencil.Suite.Basic
import Stencil.Suite.Fault

/-!
Suites read from files. Each expectation is a mapping of one operator to its value; all operators
are known before a suite counts as read.
-/

namespace Stencil.Suite

open Record

/-- The operators that expectations may have. -/
inductive Operator where
  | contains
  | notContains
  | equals
  | «matches»
  | startsWith
  | endsWith
  | length
  | wordCount
  | jsonValid
  | jsonSchema
  | judged
  | sentiment
  | latency
  | tokenCount
  | cost
deriving DecidableEq

namespace Operator

def all : List Operator :=
  [contains, notContains, equals, «matches», startsWith, endsWith, length, wordCount, jsonValid,
   jsonSchema, judged, sentiment, latency, tokenCount, cost]

def word : Operator → String
  | contains => "contains"
  | notContains => "not_contains"
  | equals => "equals"
  | «matches» => "matches"
  | startsWith => "starts_with"
  | endsWith => "ends_with"
  | length => "length"
  | wordCount => "word_count"
  | jsonValid => "json_valid"
  | jsonSchema => "json_schema"
  | judged => "llm_judge"
  | sentiment => "sentiment"
  | latency => "latency"
  | tokenCount => "token_count"
  | cost => "cost"

def ofWord? (w : String) : Option Operator := all.find? (·.word == w)

/-- An operator that is known, and refused. -/
def unsupported : String := "similar_to"

end Operator

/-- The expectation that an item is: the first entry of a mapping. -/
def assertionOf (source : Option String) (test : String) (index : Nat) :
    Value → Except Failure Assertion
  | .dict ((.text op, v) :: _) =>
    if op == Operator.unsupported then
      .error ((SuiteFault.unsupportedOperator test op).failure source)
    else if (Operator.ofWord? op).isNone then
      .error ((SuiteFault.unknownOperator test op).failure source)
    else .ok ⟨op, v⟩
  | .dict ((k, _) :: _) => do
    throw ((SuiteFault.unknownOperator test (← ofValue k.show)).failure source)
  | _ => .error ((SuiteFault.emptyAssertion test index).failure source)

def assertionsOf (source : Option String) (test : String) :
    (index : Nat) → List Value → Except Failure (List Assertion)
  | _, [] => .ok []
  | i, v :: vs => do
    return (← assertionOf source test i v) :: (← assertionsOf source test (i + 1) vs)

/-- The expectations in a field of a test. -/
def expectations (source : Option String) (test field : String) :
    Option Value → Except Failure (Option (List Assertion))
  | none | some .null => .ok none
  | some (.list vs) => some <$> assertionsOf source test 0 vs
  | some _ => .error ((SuiteFault.notList test field).failure source)

/-- A test whose expectations are known, and the mapping that holds the rest of it. -/
structure Draft where
  record : Value
  rendered : Option (List Assertion)
  completed : Option (List Assertion)

def renderedKey : String := "expect_render"

def completedKey : String := "expect_llm"

def hasAny (as : Option (List Assertion)) : Bool := !(as.getD []).isEmpty

/-- A test as far as its name and its expectations. -/
def draftOf (source : Option String) (index : Nat) : Value → Except Failure Draft
  | .dict entries =>
    match textAt? "name" entries with
    | none => .error ((SuiteFault.namelessTest index).failure source)
    | some name => do
      let part key := expectations source name key (Value.named? key entries)
      let rendered ← part renderedKey
      let completed ← part completedKey
      if hasAny rendered || hasAny completed then return ⟨.dict entries, rendered, completed⟩
      else throw ((SuiteFault.withoutAssertions name).failure source)
  | _ => .error ((SuiteFault.namelessTest index).failure source)

def draftsOf (source : Option String) : (index : Nat) → List Value → Except Failure (List Draft)
  | _, [] => .ok []
  | i, v :: vs => do return (← draftOf source i v) :: (← draftsOf source (i + 1) vs)

/-- The test that a draft becomes. -/
def Draft.test (d : Draft) : Checked Test :=
  let build (name : String) (given : Option Bindings) (dataset params : Option String) : Test :=
    ⟨name, given, dataset, params, d.rendered, d.completed⟩
  build <$> field d.record "name" text none
    <*> field d.record "given" (optional mapping) (some none)
    <*> field d.record "dataset" (optional text) (some none)
    <*> field d.record "params" (optional text) (some none)

def Config.read : Reader Config := fun v =>
  Config.mk <$> field v "target" text (some standardTarget)
    <*> field v "model" (optional text) (some none)
    <*> field v "timeout" (optional positive) (some none)

/-- The suite in a text. -/
def parse (content : String) (source : Option String) : Except Failure Suite := do
  let entries ← mappingOf content ".eval" source
  let some name := textAt? "suite" entries
    | throw ((SuiteFault.missing "suite").failure source)
  let some items := itemsAt? "tests" entries
    | throw ((SuiteFault.missingOrEmpty "tests").failure source)
  let drafts ← draftsOf source 0 items
  let config := match nestedAt "config" entries with
    | some v => (Config.read v).within "config"
    | none => .ok {}
  let tests := Checked.all (drafts.mapIdx fun i d => d.test.within (Number.natText i))
  accepted source (Suite.mk name <$> config <*> tests.within "tests")

/-- The suite in a file. -/
def load (tree : Files.Tree) (path : String) : Except Failure Suite := do
  parse (← fileText tree path) (some path)

end Stencil.Suite
