import Stencil.Template.Diagnostic
import Stencil.Value.Basic

/-!
Trees and diagnostics as mappings, for tools that read them. Each node names its kind; spans are
there when they are asked for.
-/

namespace Stencil

namespace View

def numbers (p : Position) : List Value := [.int p.offset, .int p.line, .int p.column]

/-- A mapping from names, with a kind in front and a span behind. -/
def node (spans : Bool) (kind : String) (s : Span) (fields : Bindings) : Value :=
  .ofBindings ([("k", .text kind)] ++ fields ++ if spans then [("span", spanValue s)] else [])
where
  spanValue (s : Span) : Value := .list (numbers s.start ++ numbers s.stop)

def position (p : Position) : Value := .list (numbers p)

def argument : Argument → Value
  | .none => .null
  | .text s => .text s
  | .texts ss => .list (ss.map .text)

mutual

def condition (spans : Bool) : Condition → Value
  | .literal b s => node spans "BoolLiteral" s [("value", .bool b)]
  | .ref n s => node spans "VariableRef" s [("name", .text n)]
  | .not c s => node spans "Not" s [("operand", condition spans c)]
  | .and cs s => node spans "And" s [("operands", .list (conditions spans cs))]
  | .or cs s => node spans "Or" s [("operands", .list (conditions spans cs))]
  | .compare n op a s =>
    node spans "Comparison" s
      [("variable", .text n), ("operator", .text op), ("argument", argument a)]
  | .judge n q s => node spans "AiJudge" s [("value", .text n), ("question", .text q)]
  | .present p s => node spans "ContextPresence" s [("path", .text p)]

def conditions (spans : Bool) : List Condition → List Value
  | [] => []
  | c :: cs => condition spans c :: conditions spans cs

end

mutual

def tree (spans : Bool) : Node → Value
  | .text c s => node spans "TextNode" s [("content", .text c)]
  | .slot n h d s => node spans "VariableNode" s
      [("name", .text n), ("type_hint", .ofOptText (h.map (·.word))), ("default", .ofOptText d)]
  | .conditional c t e s => node spans "ConditionalNode" s
      [("condition", condition spans c), ("then_branch", .list (trees spans t)),
       ("else_branch", .list (trees spans e))]
  | .part n cs s =>
    node spans "SectionNode" s [("name", .text n), ("children", .list (trees spans cs))]
  | .imported p s => node spans "ImportNode" s [("path", .text p)]
  | .included p s => node spans "IncludeNode" s [("path", .text p)]
  | .context p s => node spans "ContextNode" s [("path", .text p)]

def trees (spans : Bool) : List Node → List Value
  | [] => []
  | n :: ns => tree spans n :: trees spans ns

end

end View

def Document.toValue (spans : Bool) (d : Document) : Value :=
  View.node spans "Document" d.span [("children", .list (View.trees spans d.children))]

def Diagnostic.toValue (d : Diagnostic) : Value :=
  .ofBindings [("code", .text d.problem.code.word), ("message", .text d.message),
    ("at", View.position d.start), ("str", .text d.text)]

end Stencil
