import Stencil.Dataset.Shelf
import Stencil.Engine.Basic
import Stencil.Suite.Verify

/-!
Running suites. A test renders the suite's template with its variables, checks what it expects of
the text, and then what it expects of the completion of the text. A failing test does not stop
the others.
-/

namespace Stencil.Suite

/-- Where files are kept in a state. -/
structure Disk (σ : Type) where
  read : σ → Files.Tree
  write : Files.Tree → σ → σ

/-- What is asked of a run. -/
structure RunOptions where
  /-- Run only the tests with this in their names. -/
  filter : Option String := none
  /-- Record completions in datasets. -/
  record : Bool := false
  /-- The model for a suite that names none. -/
  model : Option String := none

/-- What a run works with. -/
structure Bench (σ : Type) where
  settings : Settings := {}
  provider : Option (Completion.Provider σ) := none
  judge : Option (Judge σ) := none
  plugins : List (Plugin σ) := []
  store : StoreSettings → Context.Resolver σ
  memories : Engine.Memories σ
  /-- What a judge remembers that is made for the run alone. -/
  spare : Judgment.Memory σ
  disk : Disk σ
  workingDirectory : Files.Path
  /-- The time that goes with a recording. -/
  time : String

variable {σ : Type}

/-- The directory of the prompt that a suite's file is about: the third one above the file. -/
def promptDirectory (workingDirectory : Files.Path) (path : String) : Files.Path :=
  (Files.Path.resolve workingDirectory path).parent.parent.parent

/-- The text under a name that counts: present and not empty. -/
def filled? (s : Option String) : Option String := s.filter (· != "")

/-- The variables of a test. -/
def Test.bindings (t : Test) (tree : Files.Tree) : Dataset.Shelving Bindings :=
  match t.given, filled? t.dataset, filled? t.params with
  | some b, _, _ => return b
  | none, some d, some p => Dataset.fetchSet tree d p
  | none, some d, none => Dataset.fetchFirst tree d
  | none, none, _ => return []

/-- A suite at work. -/
structure Run (σ : Type) where
  bench : Bench σ
  options : RunOptions
  suite : Suite
  /-- The engine but for its loader. -/
  engine : Engine σ
  judge : Option (Judge σ)
  template : String
  directory : Files.Path

/-- A step of a run. -/
abbrev Step (σ : Type) := ExceptT Failure (StateT Dataset.Shelf (StateM σ))

/-- Let a collaborator act on its state. -/
def act {α : Type} (m : StateM σ α) : Step σ α :=
  liftM (m := StateT Dataset.Shelf (StateM σ)) (liftM m)

/-- Go on with a result, if there is one. -/
def settle {α : Type} : Except Failure α → Step σ α
  | .ok a => pure a
  | .error f => throw f

/-- Work with the datasets of the run. -/
def shelve {α : Type} (m : Dataset.Shelving α) : Step σ α := do
  let (a, shelf) := m.run (← get)
  set shelf
  settle a

namespace Run

/-- Check expectations. -/
def check (s : Subject σ) (as : List Assertion) : Step σ (List Finding) := do
  match ← act (checkAll s as) with
  | some fs => return fs
  | none => throw .endless

variable (r : Run σ)

/-- The files as they are now. -/
def tree : Step σ Files.Tree := do return r.bench.disk.read (← act get)

/-- The loader that imports find their files with, as they are now. -/
def loader (tree : Files.Tree) : ImportLoader :=
  Import.files tree r.bench.workingDirectory
    (match r.bench.settings.importRoot with
      | some root => Files.Path.resolve r.bench.workingDirectory root
      | none => r.directory)

/-- The rendered template. -/
def render (b : Bindings) : Step σ String := do
  let engine := { r.engine with loader := some (r.loader (← r.tree)) }
  settle (← act (engine.render r.template b none none))

/-- The operator of findings about a completion itself. -/
def callOperator : String := "llm_call"

def callFinding (message : String) : Finding :=
  { operator := callOperator, status := .error, message := some message }

/-- What an answer to a request comes to: a response, or a finding about the lack of one. -/
def answered : Completion.Outcome → Step σ (Except Finding Completion.Response)
  | .answer a => return .ok a
  | .failed f => return .error (failed f)
  | .stalled =>
    if r.suite.config.timeout.isSome then return .error (failed (.foreign "TimeoutError" ""))
    else throw .endless
where
  failed (f : Failure) : Finding := callFinding ("LLM call failed: " ++ f.summary)

/-- What comes of asking for a completion. -/
def complete (p : Completion.Provider σ) (prompt : String) :
    Step σ (Except Finding Completion.Response) := do
  let model := (filled? r.suite.config.model).or r.options.model
  r.answered (← act (p.complete ⟨[⟨.user, prompt⟩], some { model }⟩))

/-- Record a response as the golden of the test's dataset, where that is asked for. -/
def recordFor (t : Test) (a : Completion.Response) : Step σ Unit := do
  match filled? t.dataset with
  | some d =>
    if r.options.record then
      let tree ← shelve (Dataset.record (← r.tree) d a r.bench.time)
      act (modify (r.bench.disk.write tree))
  | none => return ()

/-- The findings about the completion of a text, and the completion. -/
def completion (t : Test) (as : List Assertion) (prompt : String) :
    Step σ (List Finding × Option String) := do
  match r.bench.provider with
  | none => return ([callFinding "No completion provider configured"], none)
  | some p =>
    match ← r.complete p prompt with
    | .ok a =>
      r.recordFor t a
      return (← Run.check ⟨a.text, some a, r.judge⟩ as, a.text)
    | .error f => return (f :: (← Run.check ⟨some "", none, r.judge⟩ as), some "")

/-- All that a test asks for. -/
def steps (t : Test) : Step σ TestResult := do
  let b ← shelve (t.bindings (← r.tree))
  let rendered ← r.render b
  let first ← match t.rendered.getD [] with
    | [] => pure []
    | as => Run.check { text := some rendered, judge := r.judge } as
  let (second, completed) ← match t.completed.getD [] with
    | [] => pure ([], none)
    | as => r.completion t as rendered
  let findings := first ++ second
  return { name := t.name, status := .worst (findings.map (·.status)), findings,
           rendered := some rendered, completed }

/-- What comes of a test. Only what never ends has no result. -/
def test (t : Test) : Step σ TestResult :=
  tryCatch (r.steps t) fun
    | .endless => throw .endless
    | f => return { name := t.name, status := .error, error := some f.summary }

def tests : List Test → Step σ (List TestResult)
  | [] => return []
  | t :: ts => do return (← r.test t) :: (← tests ts)

end Run

/-- The tests whose names have the filter in them, but for case. -/
def selected (filter : Option String) (ts : List Test) : List Test :=
  match filled? filter with
  | none => ts
  | some f => ts.filter fun t => Text.hasText (Text.lower f) (Text.lower t.name)

/-- The engine of a run, before its plugins are loaded. -/
def Bench.engine (b : Bench σ) : Engine σ :=
  Engine.create b.settings {
    provider := b.provider
    judge := b.judge
    store := b.store
    files := fun _ => Import.fixed []
    memories := b.memories }

/-- The judge of expectations: the engine's, else one behind the completion service. -/
def Bench.judgeFor (b : Bench σ) (model : Option String) (e : Engine σ) : Option (Judge σ) :=
  e.judge.or (b.provider.map fun p =>
    Judgment.standard { model := model.getD ProviderKind.openai.judgeModel } p b.spare)

/-- Run the tests of a suite that stands in a file at a path. -/
def run (b : Bench σ) (o : RunOptions) (path : String) (s : Suite) :
    StateM σ (Except Failure Outcome) := do
  let directory := promptDirectory b.workingDirectory path
  let target := Files.Path.joined directory.text s.config.target
  match (b.disk.read (← get)).readAt target with
  | .error .noPath =>
    return .error (.foreign Files.Tree.Fault.noPath.kind (Files.Tree.Fault.noPath.message target))
  | .error _ => return .ok (.failed s.name ("Failed to load target prompt: " ++ target) 0)
  | .ok template =>
    b.memories.own.renew b.settings.judgeCacheTtl
    b.spare.renew Judgment.Cache.standardTtl
    match ← b.engine.loadPlugins b.plugins with
    | (_, .error f) => return .error f
    | (engine, .ok ()) =>
      let r : Run σ := ⟨b, o, s, engine, b.judgeFor o.model engine, template, directory⟩
      let (results, _) ←
        ((r.tests (selected o.filter s.tests)).run).run { directory := directory.text }
      return results.map fun ts => .ofTests s.name ts 0

/-- Run the suite in a file. -/
def runFile (b : Bench σ) (o : RunOptions) (path : String) : StateM σ (Except Failure Outcome) := do
  match load (b.disk.read (← get)) path with
  | .error f => return .error f
  | .ok s => run b o path s

end Stencil.Suite
