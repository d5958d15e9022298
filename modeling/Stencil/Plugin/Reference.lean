import Stencil.Completion.Basic
import Stencil.Plugin.Basic
import Stencil.Text.Search

/-!
References to plugins and completion services in modules: the module's name, a colon and the
name of a member.
-/

namespace Stencil.Plugin

/-- What a member of a module is. A maker is called to get what it makes. -/
inductive Member (σ : Type) where
  | plugin (p : Plugin σ)
  | provider (className : String) (p : Completion.Provider σ)
  | maker (kind : String) (makes : Member σ)
  /-- A value of some other kind. -/
  | other (kind : String)

namespace Member

variable {σ : Type}

/-- The name of the member's kind. -/
def kind : Member σ → String
  | plugin _ => "EchoPlugin"
  | provider className _ => className
  | maker kind _ => kind
  | other kind => kind

end Member

/-- Modules by name, each with its members by name. -/
abbrev Modules (σ : Type) := List (String × List (String × Member σ))

/-- A module's name without its last part, if it has several. -/
def package? (module_ : String) : Option String :=
  let cs := module_.toList
  if cs.contains '.' then
    some (String.ofList (((cs.reverse.dropWhile (· != '.')).drop 1).reverse))
  else none

/-- Why a module cannot be imported: the outermost package on the way to it that is missing, or a
module on the way that is no package. -/
def importFault? {σ : Type} (modules : Modules σ) : (fuel : Nat) → String → Option String
  | 0, _ => none
  | n + 1, name =>
    let missing := "No module named " ++ Text.quoted name
    if modules.any (·.1 == name) then none
    else
      match package? name with
      | none => some missing
      | some parent =>
        match importFault? modules n parent with
        | some fault => some fault
        | none => some (missing ++ "; " ++ Text.quoted parent ++ " is not a package")

/-- The parts of a reference around its first colon. -/
def split? (reference : String) : Option (String × String) :=
  let cs := reference.toList
  let module_ := cs.takeWhile (· != ':')
  let member := cs.drop (module_.length + 1)
  if module_.isEmpty || member.isEmpty then none
  else some (String.ofList module_, String.ofList member)

/-- The member that a reference names. -/
def find {σ : Type} (modules : Modules σ) (reference : String) :
    Except Failure (Member σ) :=
  match split? reference with
  | none => .error (PluginFault.badReference reference).failure
  | some (module_, member) =>
    if Text.startsWith "." module_ then
      .error (.foreign "TypeError"
        ("the 'package' argument is required to perform a relative import for " ++
          Text.quoted module_))
    else
      match importFault? modules (module_.length + 1) module_ with
      | some reason => .error (PluginFault.notImportable reference module_ reason).failure
      | none =>
        match (modules.lookup module_).bind (·.lookup member) with
        | some a => .ok a
        | none => .error (PluginFault.noMember reference module_ member).failure

/-- The plugin that a member is or makes. -/
def ofMember {σ : Type} (a : Member σ) : Except Failure (Plugin σ) :=
  let a := match a with
    | .maker _ makes => makes
    | a => a
  match a with
  | .plugin p =>
    match p.fault? with
    | some f => .error f.failure
    | none => .ok p
  | a => .error (PluginFault.notAPlugin a.kind).failure

/-- The plugin behind a reference. -/
def load {σ : Type} (modules : Modules σ) (reference : String) : Except Failure (Plugin σ) :=
  (find modules reference).bind ofMember

/-- The completion service behind a reference, with the name of its class. -/
def loadProvider {σ : Type} (modules : Modules σ) (reference : String) :
    Except Failure (String × Completion.Provider σ) := do
  let a := match ← find modules reference with
    | .maker _ makes => makes
    | a => a
  match a with
  | .provider className p => return (className, p)
  | _ => throw (PluginFault.notAProvider reference).failure

end Stencil.Plugin
