import Stencil.Template.Basic
import Stencil.Json.Writer

/-!
Outlines: a template as an indented list of its nodes, with conditions in source form.
-/

namespace Stencil

/-- An argument as it stands in parentheses. -/
def Argument.written : Argument → String
  | .none => ""
  | .text s => s
  | .texts ss => ", ".intercalate (ss.map (Json.quotedText true))

/-- A variable as conditions write it. -/
def slotText (name : String) : String := "\x7b\x7b" ++ name ++ "\x7d\x7d"

namespace Condition

mutual

/-- The condition in source form, every group in parentheses. -/
def written : Condition → String
  | literal b _ => if b then "true" else "false"
  | ref name _ => slotText name
  | not c _ => "NOT " ++ written c
  | and cs _ => "(" ++ " AND ".intercalate (writtenAll cs) ++ ")"
  | or cs _ => "(" ++ " OR ".intercalate (writtenAll cs) ++ ")"
  | compare name op .none _ => slotText name ++ " #" ++ op
  | compare name op arg _ => slotText name ++ " #" ++ op ++ "(" ++ arg.written ++ ")"
  | judge name question _ => slotText name ++ " #ai_judge(" ++ question ++ ")"
  | present path _ => "#context(" ++ path ++ ")"

def writtenAll : List Condition → List String
  | [] => []
  | c :: cs => written c :: writtenAll cs

end

end Condition

namespace Node

def indent (depth : Nat) (line : String) : String :=
  String.ofList (List.replicate (2 * depth) ' ') ++ line

/-- A slot with its hint and its default. -/
def slotLine (name : String) (hint : Option Hint) (default : Option String) : String :=
  let h := match hint with
    | some h => ":" ++ h.word
    | none => ""
  let d := match default with
    | some d => " ?? " ++ Json.quotedText true d
    | none => ""
  "Variable " ++ name ++ h ++ d

mutual

/-- The lines of a node's outline at a depth. -/
def outlineLines (depth : Nat) : Node → List String
  | text content _ => [indent depth ("Text " ++ Json.quotedText true content)]
  | slot name hint default _ => [indent depth (slotLine name hint default)]
  | conditional c t e _ =>
    indent depth ("If " ++ c.written) :: outlineLinesAll (depth + 1) t ++
      (if e.isEmpty then [] else indent depth "Else" :: outlineLinesAll (depth + 1) e)
  | part name cs _ => indent depth ("Section " ++ name) :: outlineLinesAll (depth + 1) cs
  | imported path _ => [indent depth ("Import " ++ path)]
  | included path _ => [indent depth ("Include " ++ path)]
  | context path _ => [indent depth ("Context " ++ path)]

def outlineLinesAll (depth : Nat) : List Node → List String
  | [] => []
  | n :: ns => outlineLines depth n ++ outlineLinesAll depth ns

end

/-- The outline of some trees. -/
def outline (nodes : List Node) : String := "\n".intercalate (outlineLinesAll 0 nodes)

end Node

/-- The outline of a document. -/
def Document.outline (d : Document) : String :=
  "\n".intercalate ("Document" :: Node.outlineLinesAll 1 d.children)

end Stencil
