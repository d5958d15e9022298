import Stencil.Source.Token

/-!
Templates as trees: text, slots for values, conditionals, named parts, and references to other
documents and to context.
-/

namespace Stencil

/-- How a slot's value is written. -/
inductive Hint where
  | text
  | number
  | boolean
  | json
deriving DecidableEq, Repr

namespace Hint

def word : Hint → String
  | text => "text"
  | number => "number"
  | boolean => "boolean"
  | json => "json"

def all : List Hint := [boolean, json, number, text]

def ofWord? (w : String) : Option Hint := all.find? (·.word == w)

end Hint

/-- What stands in an operator's parentheses: nothing, one text, or several quoted texts. -/
inductive Argument where
  | none
  | text (s : String)
  | texts (ss : List String)
deriving DecidableEq, Repr

/-- The condition of a conditional. -/
inductive Condition where
  | literal (value : Bool) (span : Span)
  /-- True when the variable's value counts as true. -/
  | ref (name : String) (span : Span)
  | not (operand : Condition) (span : Span)
  | and (operands : List Condition) (span : Span)
  | or (operands : List Condition) (span : Span)
  /-- An operator applied to a variable. -/
  | compare (name : String) (operator : String) (argument : Argument) (span : Span)
  /-- A yes or no question about a variable, put to a judge. -/
  | judge (name : String) (question : String) (span : Span)
  /-- True when the context reference has content. -/
  | present (path : String) (span : Span)

/-- A node of a template. An else-if is an else branch of a single conditional; an empty else
branch means that there is none. -/
inductive Node where
  | text (content : String) (span : Span)
  | slot (name : String) (hint : Option Hint) (default : Option String) (span : Span)
  | conditional (condition : Condition) (thenBranch elseBranch : List Node) (span : Span)
  | part (name : String) (children : List Node) (span : Span)
  /-- Another document in this place. -/
  | imported (path : String) (span : Span)
  /-- A named part, or a document by its path, in this place. -/
  | included (path : String) (span : Span)
  | context (path : String) (span : Span)

structure Document where
  children : List Node
  span : Span

namespace Condition

def span : Condition → Span
  | literal _ s | ref _ s | not _ s | and _ s | or _ s | compare _ _ _ s | judge _ _ s
  | present _ s => s

mutual

/-- The condition and all conditions in it, each before its operands. -/
def subterms : Condition → List Condition
  | not c s => not c s :: subterms c
  | and cs s => and cs s :: subtermsOf cs
  | or cs s => or cs s :: subtermsOf cs
  | c => [c]

def subtermsOf : List Condition → List Condition
  | [] => []
  | c :: cs => subterms c ++ subtermsOf cs

end

mutual

/-- The condition with no place in any source. -/
def unplaced : Condition → Condition
  | literal b _ => literal b .empty
  | ref n _ => ref n .empty
  | not c _ => not (unplaced c) .empty
  | and cs _ => and (unplacedAll cs) .empty
  | or cs _ => or (unplacedAll cs) .empty
  | compare n op a _ => compare n op a .empty
  | judge n q _ => judge n q .empty
  | present p _ => present p .empty

def unplacedAll : List Condition → List Condition
  | [] => []
  | c :: cs => unplaced c :: unplacedAll cs

end

end Condition

namespace Node

def span : Node → Span
  | text _ s | slot _ _ _ s | conditional _ _ _ s | part _ _ s | imported _ s | included _ s
  | context _ s => s

def withSpan (s : Span) : Node → Node
  | text c _ => text c s
  | slot n h d _ => slot n h d s
  | conditional c t e _ => conditional c t e s
  | part n cs _ => part n cs s
  | imported p _ => imported p s
  | included p _ => included p s
  | context p _ => context p s

/-- The nodes right below a node, both branches of a conditional included. -/
def children : Node → List Node
  | conditional _ t e _ => t ++ e
  | part _ cs _ => cs
  | _ => []

/-- The else branch is an else-if. -/
def isElseIf : Node → Bool
  | conditional _ _ [conditional ..] _ => true
  | _ => false

mutual

/-- The node with no place in any source. -/
def unplaced : Node → Node
  | text c _ => text c .empty
  | slot n h d _ => slot n h d .empty
  | conditional c t e _ => conditional c.unplaced (unplacedAll t) (unplacedAll e) .empty
  | part n cs _ => part n (unplacedAll cs) .empty
  | imported p _ => imported p .empty
  | included p _ => included p .empty
  | context p _ => context p .empty

def unplacedAll : List Node → List Node
  | [] => []
  | n :: ns => unplaced n :: unplacedAll ns

end

end Node

/-- The document with no place in any source. -/
def Document.unplaced (d : Document) : Document := ⟨Node.unplacedAll d.children, .empty⟩

end Stencil
