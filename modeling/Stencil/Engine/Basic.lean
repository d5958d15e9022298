import Stencil.Judgment.Judge
import Stencil.Plugin.Reference

/-!
An engine: settings, collaborators and operators under which templates are evaluated and
rendered.
-/

namespace Stencil

structure Engine (σ : Type) where
  settings : Settings
  judge : Option (Judge σ) := none
  resolver : Option (Context.Resolver σ) := none
  loader : Option ImportLoader := none
  operators : Operators := []
  plugins : List (Plugin σ) := []

namespace Engine

variable {σ : Type}

/-- Put an operator under a name. -/
def register (e : Engine σ) (name : String) (op : Operator) : Except Failure (Engine σ) :=
  match e.operators.register name op with
  | .ok ops => .ok { e with operators := ops }
  | .error m => .error (.misuse m)

/-- Load a plugin: its operators are registered first, then its hook runs. When the hook fails,
the operators stay and the plugin does not count as loaded. -/
def loadPlugin (e : Engine σ) (p : Plugin σ) : StateM σ (Engine σ × Except Failure Unit) := do
  match p.fault? with
  | some f => return (e, .error f.failure)
  | none =>
    let extended := { e with operators := p.extend e.operators }
    let loaded := { extended with plugins := extended.plugins ++ [p] }
    match p.onLoad with
    | some (.run act) =>
      match ← act with
      | .ok () => return (loaded, .ok ())
      | .error f => return (extended, .error f)
    | _ => return (loaded, .ok ())

/-- Load what should be a plugin. -/
def load (e : Engine σ) : Plugin.Member σ → StateM σ (Engine σ × Except Failure Unit)
  | .plugin p => e.loadPlugin p
  | a => return (e, .error (PluginFault.notAPlugin a.kind).failure)

/-- Load plugins in turn, up to the first that fails. -/
def loadPlugins (e : Engine σ) : List (Plugin σ) → StateM σ (Engine σ × Except Failure Unit)
  | [] => return (e, .ok ())
  | p :: ps => do
    match ← e.loadPlugin p with
    | (e, .ok ()) => e.loadPlugins ps
    | (e, .error f) => return (e, .error f)

def setup (e : Engine σ) : Evaluation.Setup σ where
  strict := e.settings.strict
  judge := e.judge
  resolver := e.resolver
  operators := e.operators
  loader := e.loader
  timeout := e.settings.evaluationTimeout.map .float

/-- A template's source read and evaluated. -/
def evaluate (e : Engine σ) (source : String) (b : Bindings) :
    StateM σ (Except Failure Evaluation.Result) :=
  let parsed := parse source
  if parsed.success then Stencil.evaluate e.setup none parsed.document b
  else pure (.error (.error (.malformed none source parsed.errors)))

/-- The settings for the end of rendering, with choices for one rendering put in place. -/
def finish (e : Engine σ) (trim collapse : Option Bool) : Render.Finish :=
  ⟨trim.getD e.settings.trim, collapse.getD e.settings.collapseNewlines⟩

def render (e : Engine σ) (source : String) (b : Bindings) (trim collapse : Option Bool) :
    StateM σ (Except Failure String) :=
  renderTemplate e.setup e.settings.policy (e.finish trim collapse) none source b

/-- The memories that a judge made for an engine may use. -/
structure Memories (σ : Type) where
  /-- One that the caller chose. -/
  chosen : Option (Judgment.Memory σ) := none
  /-- One for this engine alone, with the time that its settings give. -/
  own : Judgment.Memory σ
  /-- One for all engines. -/
  shared : Judgment.Memory σ

/-- The memory chosen, else one of the engine's own where the settings ask for a time of their
own. -/
def Memories.pick (m : Memories σ) (s : Settings) : Judgment.Memory σ :=
  match m.chosen with
  | some c => c
  | none => if Double.eq s.judgeCacheTtl Judgment.Cache.standardTtl then m.shared else m.own

/-- What an engine is made from, beside its settings. -/
structure Collaborators (σ : Type) where
  provider : Option (Completion.Provider σ) := none
  judge : Option (Judge σ) := none
  resolver : Option (Context.Resolver σ) := none
  /-- The resolver that asks a store of context assets. -/
  store : StoreSettings → Context.Resolver σ
  loader : Option ImportLoader := none
  /-- The loader for files below the import root that the settings give. -/
  files : Option String → ImportLoader
  memories : Memories σ

/-- An engine whose collaborators come from its settings where none are given. -/
def create (s : Settings) (c : Collaborators σ) : Engine σ where
  settings := s
  judge := c.judge.or (do
    let p ← c.provider
    let ps ← s.provider
    return Judgment.standard ps p (c.memories.pick s))
  resolver := c.resolver.or (s.contextStore.map c.store)
  loader := some (c.loader.getD (c.files s.importRoot))

end Engine

end Stencil
