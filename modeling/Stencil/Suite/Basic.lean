import Stencil.Value.Basic

/-!
Suites of tests for a template, and what comes of running them.
-/

namespace Stencil

namespace Suite

/-- What comes of an assertion, a test or a suite. -/
inductive Status where
  | pass
  | fail
  | error
deriving DecidableEq

namespace Status

def word : Status → String
  | pass => "pass"
  | fail => "fail"
  | error => "error"

def ofWord? : String → Option Status
  | "pass" => some pass
  | "fail" => some fail
  | "error" => some error
  | _ => none

def ofBool (b : Bool) : Status := if b then pass else fail

/-- The worst of several: an error is worse than a failure, and that than a pass. Of none it is a
pass. -/
def worst (ss : List Status) : Status :=
  if ss.contains error then error else if ss.contains fail then fail else pass

end Status

/-- An expectation: an operator and the value that it takes. -/
structure Assertion where
  operator : String
  value : Value

/-- A test. Its variables are given, or they are a parameter set of a dataset: the one that is
named, else the first. -/
structure Test where
  name : String
  given : Option Bindings
  dataset : Option String
  params : Option String
  /-- Expectations of the rendered text. -/
  rendered : Option (List Assertion)
  /-- Expectations of the completion that the rendered text gets. -/
  completed : Option (List Assertion)

/-- The template that a suite is about when it names none. -/
def standardTarget : String := "prompt.echo"

structure Config where
  /-- The template's path, seen from the directory of the prompt. -/
  target : String := standardTarget
  /-- The model that completions are asked of. -/
  model : Option String := none
  /-- The seconds that a completion may take. -/
  timeout : Option Double := none

end Suite

structure Suite where
  name : String
  config : Suite.Config
  tests : List Suite.Test

namespace Suite

/-- What comes of one assertion, with texts that show what was expected and found. -/
structure Finding where
  operator : String
  status : Status
  expected : Option String := none
  actual : Option String := none
  message : Option String := none
deriving DecidableEq

/-- What comes of one test: the findings about the rendered text, then those about the
completion, or why the test could not be run. -/
structure TestResult where
  name : String
  status : Status
  findings : List Finding := []
  milliseconds : Int := 0
  rendered : Option String := none
  completed : Option String := none
  error : Option String := none
deriving DecidableEq

/-- How many tests came out how. -/
structure Summary where
  total : Nat
  passed : Nat
  failed : Nat
  errored : Nat
  milliseconds : Int
deriving DecidableEq

def Summary.ofTests (ts : List TestResult) (milliseconds : Int) : Summary where
  total := ts.length
  passed := ts.countP (·.status == .pass)
  failed := ts.countP (·.status == .fail)
  errored := ts.countP (·.status == .error)
  milliseconds

/-- What comes of a suite. -/
structure Outcome where
  name : String
  status : Status
  tests : List TestResult
  summary : Summary
  /-- Why the suite could not be run at all. -/
  error : Option String := none
deriving DecidableEq

/-- The outcome of tests that were run. -/
def Outcome.ofTests (name : String) (ts : List TestResult) (milliseconds : Int) : Outcome :=
  ⟨name, .worst (ts.map (·.status)), ts, .ofTests ts milliseconds, none⟩

/-- The outcome of a suite that could not be run. -/
def Outcome.failed (name error : String) (milliseconds : Int) : Outcome :=
  ⟨name, .error, [], .ofTests [] milliseconds, some error⟩

end Suite

end Stencil
