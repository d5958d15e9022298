import Stencil.Evaluation.Condition
import Stencil.Template.Parse

/-!
Evaluating a template: conditionals give way to the branch taken, references to what they refer
to.

First every context path of the document is looked up in one batch, whatever branches will be
taken; a failed lookup matters only where the path is needed. Then the tree is reduced in
document order. References are followed to a depth that no run can exceed, since no part is
inside itself and no document inside itself: there are no more parts and documents than
characters in all the sources (`depthBound`).
-/

namespace Stencil.Evaluation

variable {σ : Type}

/-- Look up the context paths of a document that are not bound yet. -/
def prefetch (e : Setup σ) (nodes : List Node) : Eval σ Unit := do
  let b := (← get).bindings
  let paths := (Node.contextPaths nodes).filter fun p => (Context.bound? b p).isNone
  if paths.isEmpty then return ()
  else
    let results ← onWorld (Context.resolvePaths e.resolver paths)
    for (path, r) in results do
      if !r.success then
        let message := match r.error with
          | some m => if m == "" then "Context could not be resolved" else m
          | none => "Context could not be resolved"
        report "context" message path
    modify fun s => { s with bindings := Context.bind s.bindings results }

/-- Make the parts of a document known; a part that is known already stays. -/
def defineParts (nodes : List Node) : Eval σ Unit :=
  modify fun s => { s with
    parts := (Node.parts nodes).foldl
      (fun known d => if known.any (·.1 == d.1) then known else known ++ [d]) s.parts }

/-- Enter a document: look up its context paths and make its parts known. -/
def enter (e : Setup σ) (nodes : List Node) : Eval σ Unit := do
  prefetch e nodes
  defineParts nodes

mutual

/-- The nodes that a node comes down to, where `follow` tells what a reference does. -/
def reduce (e : Setup σ) (follow : Node → Eval σ (List Node)) : Node → Eval σ (List Node)
  | .conditional c t f _ => do
    if ← holds e c then reduceAll e follow t else reduceAll e follow f
  | .part name children span => return [.part name (← reduceAll e follow children) span]
  | .imported path span => follow (.imported path span)
  | .included path span => follow (.included path span)
  | .context path span => do
    if e.strict then requireContext e path
    return [.context path span]
  | n => return [n]

def reduceAll (e : Setup σ) (follow : Node → Eval σ (List Node)) :
    List Node → Eval σ (List Node)
  | [] => return []
  | n :: ns => return (← reduce e follow n) ++ (← reduceAll e follow ns)

end

/-- Where a reference stands: the documents around it by key, the innermost first, and the parts
around it by name, the innermost first. The outermost document may have no key. -/
structure Stack where
  outermost : Option String
  documents : List String := []
  parts : List String := []

namespace Stack

/-- The key of the document being evaluated. -/
def origin (s : Stack) : Option String :=
  match s.documents with
  | key :: _ => some key
  | [] => s.outermost

def holdsDocument (s : Stack) (key : String) : Bool :=
  s.documents.contains key || s.outermost == some key

end Stack

/-- The key and the nodes of the document behind a path, unless it is around the reference
already. -/
def openDocument (e : Setup σ) (loader : ImportLoader) (stack : Stack) (path : String) :
    Eval σ (String × List Node) :=
  if e.isDue then fail (.timeout (e.timeout.getD .null))
  else match loader.load path stack.origin with
    | .error f => fail (.evaluation (.importFailed f))
    | .ok (key, source) =>
      if stack.holdsDocument key then
        fail (.evaluation (.circularImport (stack.documents.reverse ++ [key])))
      else
        let parsed := parse source
        if !parsed.success then fail (.malformed (some path) source parsed.errors)
        else return (key, parsed.document.children)

/-- A document put in place of a reference to it. `descend` follows the references in it. -/
def importDocument (e : Setup σ) (descend : Stack → Node → Eval σ (List Node)) (stack : Stack)
    (node : Node) (path : String) : Eval σ (List Node) := do
  match e.loader with
  | none =>
    let fault := EvaluationFault.noImportLoader path
    if e.strict then fail (.evaluation fault)
    else
      report "import" fault.message path
      return [node]
  | some loader =>
    let (key, nodes) ← openDocument e loader stack path
    enter e nodes
    reduceAll e (descend { stack with documents := key :: stack.documents }) nodes

/-- A part or a document put in place of a reference to it. -/
def includePart (e : Setup σ) (descend : Stack → Node → Eval σ (List Node)) (stack : Stack)
    (node : Node) (path : String) : Eval σ (List Node) := do
  match (← get).parts.lookup path with
  | some children =>
    if stack.parts.contains path then
      fail (.evaluation (.circularInclude (stack.parts.reverse ++ [path])))
    else reduceAll e (descend { stack with parts := path :: stack.parts }) children
  | none =>
    if (path.toList.contains '/' || Text.endsWith templateExtension path) && e.loader.isSome then
      importDocument e descend stack node path
    else
      let fault := EvaluationFault.partNotFound path
      if e.strict then fail (.evaluation fault)
      else
        report "include" fault.message path
        return [node]

/-- What a reference comes down to, with at most `depth` further references inside each other. -/
def follow (e : Setup σ) : (depth : Nat) → Stack → Node → Eval σ (List Node)
  | 0, _, _ => throw .endless
  | d + 1, stack, .imported path span =>
    importDocument e (follow e d) stack (.imported path span) path
  | d + 1, stack, .included path span =>
    includePart e (follow e d) stack (.included path span) path
  | _ + 1, _, n => return [n]

/-- More than the number of parts and documents that references can lead into. -/
def depthBound (e : Setup σ) (nodes : List Node) : Nat :=
  let documents := match e.loader with
    | some l => l.documents
    | none => []
  Node.sizeAll nodes + documents.foldl (fun n d => n + (d.2.length + 1)) 0 + 1

/-- Evaluate a document in a given state. -/
def evaluateIn (e : Setup σ) (origin : Option String) (d : Document) : Eval σ Document := do
  enter e d.children
  let children ← reduceAll e (follow e (depthBound e d.children) ⟨origin, [], []⟩) d.children
  return { d with children }

end Stencil.Evaluation

namespace Stencil

open Evaluation in
/-- Evaluate a template under bindings. The state of the collaborators comes back in any case. -/
def evaluate {σ : Type} (e : Setup σ) (origin : Option String) (d : Document) (b : Bindings) :
    StateM σ (Except Failure Evaluation.Result) := fun world =>
  let (r, s) := ((evaluateIn e origin d).run).run ⟨b, [], [], world⟩
  (r.map fun d => ⟨d, s.bindings, s.parts, s.issues⟩, s.world)

end Stencil
