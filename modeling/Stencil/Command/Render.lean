import Stencil.Command.Inputs
import Stencil.Command.Shell

/-!
The commands about a template in a file: the one that renders it and the one that checks it.
-/

namespace Stencil.Command

/-! ### Rendering a template -/

/-- How the argument for a template is called. -/
def templateArgument : String := "TEMPLATE"

def renderForm : Form where
  path := "echo-pdk render"
  synopsis := "[OPTIONS] TEMPLATE"
  switches :=
    [{ name := "input", short := some 'i', long := "input", takesValue := true },
     { name := "file", long := "input-file", takesValue := true },
     { name := "trim", long := "trim" },
     { name := "whole", long := "no-collapse" },
     { name := "strict", long := "strict" }]
  help :=
    "  Render TEMPLATE and print the resulting prompt.\n\n" ++
    "  Examples:     echo-pdk render prompt.echo -i name=Alice -i age=30     echo-pdk\n" ++
    "  render prompt.echo --input-file vars.yaml --strict\n\n" ++
    "Options:\n" ++
    "  -i, --input KEY=VALUE  Variable binding; VALUE is parsed as JSON when\n" ++
    "                         possible. Repeatable.\n" ++
    "  --input-file FILE      JSON or YAML file of variable bindings (-i values win).\n" ++
    "  --trim                 Strip surrounding whitespace.\n" ++
    "  --no-collapse          Keep runs of blank lines instead of collapsing them.\n" ++
    "  --strict               Fail on unknown variables, operators and unresolved\n" ++
    "                         references.\n" ++
    "  --help                 Show this message and exit.\n"

variable {σ : Type}

/-- The path of the template among words. -/
def templatePath (f : Form) (tree : Files.Tree) (words : List String) : Act σ String := do
  match words with
  | [] => f.refuse (.argumentMissing templateArgument)
  | path :: rest =>
    let path ← f.require (existingFile tree ("'" ++ templateArgument ++ "'") path)
    f.noMore rest
    return path

/-- The settings with what options say. -/
def withOptions (s : Settings) (p : Parsed) : Settings :=
  { s with
    strict := s.strict || p.has "strict"
    trim := s.trim || p.has "trim"
    collapseNewlines := s.collapseNewlines && !p.has "whole" }

/-- The directory that imports of a template are found in: that of the settings, else the one
that the template is in. -/
def importDirectory (h : Host σ) (s : Settings) (template : String) : Files.Path :=
  match s.importRoot with
  | some r => Files.Path.resolve h.workingDirectory r
  | none => Files.Path.holder h.workingDirectory template

/-- The engine that a template is rendered with. -/
def engineFor (h : Host σ) (tree : Files.Tree) (s : Settings) (template : String) : Engine σ :=
  let loader := Import.files tree h.workingDirectory (importDirectory h s template)
  Engine.create s {
    store := h.store
    loader := some loader
    files := fun _ => loader
    memories := h.memories }

/-- Render the template that arguments name. -/
def renderFile (h : Host σ) (session : Session) (args : List String) : Act σ Unit := do
  let f := renderForm
  let p ← f.read true args
  f.helpIfAsked p
  let tree ← h.tree
  let file ← (p.value? "file").mapM fun path => f.require (existingFile tree fileOption path)
  let template ← templatePath f tree p.words
  let entries ← match file with
    | some path => f.require (entriesOfFile tree path)
    | none => pure []
  let pairs ← f.require (bindingsOfPairs (p.values "input"))
  let engine := engineFor h tree (withOptions session.settings p) template
  let source ← orComplain (fun m => errorText m ++ "\n") (templateText tree template)
  let text ← orComplain (fun m => errorText m ++ "\n")
    (← within (engine.render source ((named entries).merge pairs) none none))
  say text

/-! ### Checking a template -/

def validateForm : Form where
  path := "echo-pdk validate"
  synopsis := "[OPTIONS] TEMPLATE"
  switches := []
  help :=
    "  Check TEMPLATE for syntax errors and likely mistakes.\n\n" ++
    "  Exits with status 1 when the template has errors. Warnings (unknown operators,\n" ++
    "  includes of undefined sections...) are printed but do not fail validation.\n\n" ++
    "  Examples:     echo-pdk validate prompt.echo\n\n" ++
    "Options:\n" ++
    "  --help  Show this message and exit.\n"

/-- Say what a template is found to be. The command fails if that is not valid. -/
def tell (session : Session) (template source : String) (v : Validation) : Act σ Unit := do
  whenever (!v.warnings.isEmpty) (say (warningsText v.warnings))
  if v.valid then whenever (!session.quiet) (say (template ++ ": valid"))
  else
    say (Diagnostic.reportAll v.errors source)
    complain (template ++ ": " ++ Number.natText v.errors.length ++ " error(s)")
    leave failedCode

/-- Check the template that arguments name. -/
def validateFile (h : Host σ) (session : Session) (args : List String) : Act σ Unit := do
  let f := validateForm
  let p ← f.read true args
  f.helpIfAsked p
  let tree ← h.tree
  let template ← templatePath f tree p.words
  let source ← orComplain (fun m => errorText m ++ "\n") (templateText tree template)
  tell session template source (({ settings := session.settings : Engine σ }).validate source)

end Stencil.Command
