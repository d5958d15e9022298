import Stencil.Failure
import Stencil.Template.Walk
import Stencil.Text.Character
import Stencil.Text.Search
import Stencil.Value.Equal

/-!
Context paths, looking them up in one batch, and binding what comes back.

A path is the name of an asset of a prompt, or `plp://` and the identifier of an asset. It is
checked before anything else sees it.
-/

namespace Stencil.Context

/-- What marks a reference to an asset by its identifier. -/
def assetMark : String := "plp://"

def isAsset (path : String) : Bool := Text.startsWith assetMark path

/-- The path behind the mark; other paths as they are. -/
def assetId (path : String) : String :=
  match Text.dropLead? assetMark.toList path.toList with
  | some rest => String.ofList rest
  | none => path

/-- Why a text is no context path. -/
inductive PathFault where
  | empty
  | traversal
  | external
  | encoded
  | assetId
  | name
deriving DecidableEq

namespace PathFault

def message : PathFault → String
  | empty => "Context path cannot be empty"
  | traversal => "Context path cannot contain path traversal (..)"
  | external => "Only plp:// references are allowed (no external URLs)"
  | encoded => "Context path cannot contain encoded characters"
  | assetId => "Invalid asset ID: must be 1-64 alphanumeric characters, hyphens, or underscores"
  | name =>
    "Invalid context name: must be 1-128 alphanumeric characters, hyphens, underscores, or dots"

end PathFault

def isIdPart (c : Char) : Bool := c.isAlphanum || c == '_' || c == '-'

def isNamePart (c : Char) : Bool := isIdPart c || c == '.'

/-- One to `limit` characters that pass the test, and possibly a newline at the end. -/
def isWord (p : Char → Bool) (limit : Nat) (s : String) : Bool :=
  let cs := s.toList
  let body := if cs.getLast? == some '\n' then cs.dropLast else cs
  1 ≤ body.length && body.length ≤ limit && body.all p

/-- The first rule that a path breaks. -/
def pathFault? (path : String) : Option PathFault :=
  if Text.allBlank path then some .empty
  else if Text.hasText ".." path then some .traversal
  else if Text.hasText "://" path && !isAsset path then some .external
  else if path.toList.contains '%' then some .encoded
  else if isAsset path then if isWord isIdPart 64 (assetId path) then none else some .assetId
  else if isWord isNamePart 128 path then none else some .name

def isValid (path : String) : Bool := (pathFault? path).isNone

/-- What looks up context references. It keeps its own state. -/
structure Resolver (σ : Type) where
  /-- The results for some paths, by path, or a failure of the whole batch. -/
  resolveBatch : List String → StateM σ (Except Failure (List (String × Result)))

/-- What the result of an unusable path says. -/
def invalidResults (paths : List String) : List (String × Result) :=
  paths.filterMap fun p => (pathFault? p).map fun f => (p, Result.failed p .invalidPath f.message)

def unavailable (paths : List String) (message : String) : List (String × Result) :=
  paths.map fun p => (p, Result.failed p .unavailable message)

/-- The result of each path in a batch, unavailable where there is none. -/
def fromBatch (batch : List (String × Result)) (paths : List String) : List (String × Result) :=
  paths.map fun p =>
    (p, (batch.lookup p).getD (Result.failed p .unavailable "Resolver returned no result"))

/-- Look up the distinct paths among `paths`. Unusable ones are told so without being passed on;
the others go to the resolver in one batch. -/
def resolvePaths {σ : Type} (resolver : Option (Resolver σ)) (paths : List String) :
    StateM σ (List (String × Result)) := do
  let paths := Node.distinct paths
  let valid := paths.filter isValid
  let invalid := invalidResults paths
  if valid.isEmpty then return invalid
  else
    match resolver with
    | none => return invalid ++ unavailable valid "No context resolver configured"
    | some r =>
      match ← r.resolveBatch valid with
      | .error f => return invalid ++ unavailable valid ("Context resolver failed: " ++ f.message)
      | .ok batch => return invalid ++ fromBatch batch valid

/-- The name under which results are bound. -/
def bindingName : String := "@context"

/-- The bindings with results put under their name, beside those already there. -/
def bind (b : Bindings) (results : List (String × Result)) : Bindings :=
  let existing := match b.find? bindingName with
    | some (.dict entries) => entries
    | _ => []
  b.insert bindingName
    (.dict (results.foldl (fun acc r => Value.insertEntry (.text r.1) (.context r.2) acc) existing))

/-- The result bound for a path, if there is one. -/
def bound? (b : Bindings) (path : String) : Option Result :=
  match b.find? bindingName with
  | some v =>
    match v.field? path with
    | some (.context r) => some r
    | _ => none
  | none => none

/-- Contents by path, for lookups without any service. -/
abbrev Shelf := List (String × Content)

namespace Shelf

def resolve (s : Shelf) (path : String) : Result :=
  match pathFault? path with
  | some f => .failed path .invalidPath f.message
  | none =>
    match s.lookup path with
    | some c => .ok path c
    | none => .failed path .notFound ("Context not found: " ++ path)

def resolveBatch (s : Shelf) (paths : List String) : List (String × Result) :=
  (Node.distinct paths).map fun p => (p, s.resolve p)

end Shelf

end Stencil.Context
