import Mathlib.Tactic.Common
import Stencil.Template.Parse

/-!
The grammar of templates over tokens: which lists of tokens are a node, a body, a condition,
and which tree they stand for.

The grammar knows nothing of faults, of recovery or of open blocks. Trees carry no places
(`Span.empty` throughout), so a derivation fixes its tree. Conditions are layered by how tightly
their connectives bind.

With places (`Placed`), it also says where each node lies, and what it may stand next to.
`Joins a b` says which place `b` a node or a directive may start at where the one before it ended
at `a`. With no condition on joints this is what the parser makes of tokens, wherever they are.
With equality for it, the nodes of a body lie one right behind the other, from the bracket that
opens the body up to the directive that ends it, and nothing of the source is lost or counted twice.
-/

namespace Stencil.Template.Grammar

/-- Words that connect conditions or are conditions; a bare variable has none of these names. -/
def reserved : List String := ["AND", "OR", "NOT", "TRUE", "FALSE"]

/-- The identifier is the word, in any case. -/
def Word (word : String) (t : Token) : Prop := t.kind = .identifier ∧ t.text.toUpper = word

/-- The directive of this name. -/
def Directive (name : String) (t : Token) : Prop := t.kind = .directive ∧ t.text = name

/-! ### Slots, names and arguments -/

/-- The hint of a slot: its word in any case behind a colon, or nothing. -/
inductive HintPart : List Token → Option Hint → Prop
  | absent : HintPart [] none
  | given {c w : Token} {h : Hint} (hc : c.kind = .colon) (hw : w.kind = .identifier)
      (hh : w.text.toLower = h.word) : HintPart [c, w] (some h)

/-- The default of a slot: a literal or a word behind its mark, or nothing. -/
inductive DefaultPart : List Token → Option String → Prop
  | absent : DefaultPart [] none
  | given {m v : Token} (hm : m.kind = .defaultMark)
      (hv : v.kind = .string ∨ v.kind = .number ∨ v.kind = .identifier) :
      DefaultPart [m, v] v.value

/-- The name of a part or the path of a document. -/
def Name (t : Token) : Prop := t.kind = .string ∨ t.kind = .identifier

/-- Further literals, each behind a comma. -/
inductive Literals : List Token → List String → Prop
  | nil : Literals [] []
  | cons {c s : Token} {ts : List Token} {ss : List String} (hc : c.kind = .comma)
      (hs : s.kind = .string) (h : Literals ts ss) : Literals (c :: s :: ts) (s.text :: ss)

/-- What stands between the parentheses of an operator. -/
inductive Enclosed : List Token → Argument → Prop
  | nothing : Enclosed [] .none
  | raw {a : Token} (ha : a.kind = .argument) : Enclosed [a] (.text a.text)
  | literal {s : Token} (hs : s.kind = .string) : Enclosed [s] (.text s.text)
  | literals {s : Token} {ts : List Token} {ss : List String} (hs : s.kind = .string)
      (h : Literals ts ss) (hne : ss ≠ []) : Enclosed (s :: ts) (.texts (s.text :: ss))

/-- The parentheses of an operator, right behind it, with what stands between them. -/
inductive Arguments (operator : Token) : List Token → Argument → Prop
  | mk {l r : Token} {ts : List Token} {a : Argument} (hl : l.kind = .leftParen)
      (adjacent : l.start.offset = operator.stop.offset) (h : Enclosed ts a)
      (hr : r.kind = .rightParen) : Arguments operator (l :: (ts ++ [r])) a

/-- A context reference: the operator `#context` and its path. -/
inductive Reference : List Token → String → Prop
  | mk {op : Token} {ts : List Token} {path : String} (hk : op.kind = .operator)
      (hc : op.text = "context") (h : Arguments op ts (.text path)) (hne : path ≠ "") :
      Reference (op :: ts) path

/-! ### Conditions -/

/-- A variable in a condition, in braces or bare. -/
inductive Operand : List Token → String → Prop
  | braced {o n c : Token} (ho : o.kind = .slotOpen) (hn : n.kind = .identifier)
      (hc : c.kind = .slotClose) : Operand [o, n, c] n.text
  | bare {n : Token} (hn : n.kind = .identifier) (hr : n.text.toUpper ∉ reserved) :
      Operand [n] n.text

/-- An operator on the variable `name`, with the condition that it makes. -/
inductive Predicate (name : String) : List Token → Condition → Prop
  | plain {op : Token} (hk : op.kind = .operator) (hj : ¬ isJudgeOperator op.text.toLower)
      (hc : op.text.toLower ≠ "context") :
      Predicate name [op] (.compare name op.text.toLower .none .empty)
  | applied {op : Token} {ts : List Token} {a : Argument} (hk : op.kind = .operator)
      (hj : ¬ isJudgeOperator op.text.toLower) (hc : op.text.toLower ≠ "context")
      (h : Arguments op ts a) :
      Predicate name (op :: ts) (.compare name op.text.toLower a .empty)
  | judged {op : Token} {ts : List Token} {question : String} (hk : op.kind = .operator)
      (hj : isJudgeOperator op.text.toLower) (h : Arguments op ts (.text question))
      (hq : ¬ Text.allBlank question) : Predicate name (op :: ts) (.judge name question .empty)

mutual

/-- Conditions joined by `OR`. -/
inductive Or : List Token → Condition → Prop
  | single {ts : List Token} {c : Condition} (h : And ts c) : Or ts c
  | joined {ts us : List Token} {c d : Condition} {cs : List Condition} (h : And ts c)
      (hs : OrTail us (d :: cs)) : Or (ts ++ us) (.or (c :: d :: cs) .empty)

inductive OrTail : List Token → List Condition → Prop
  | nil : OrTail [] []
  | cons {k : Token} {ts us : List Token} {c : Condition} {cs : List Condition}
      (hk : Word "OR" k) (h : And ts c) (hs : OrTail us cs) : OrTail (k :: (ts ++ us)) (c :: cs)

/-- Conditions joined by `AND`. -/
inductive And : List Token → Condition → Prop
  | single {ts : List Token} {c : Condition} (h : Not ts c) : And ts c
  | joined {ts us : List Token} {c d : Condition} {cs : List Condition} (h : Not ts c)
      (hs : AndTail us (d :: cs)) : And (ts ++ us) (.and (c :: d :: cs) .empty)

inductive AndTail : List Token → List Condition → Prop
  | nil : AndTail [] []
  | cons {k : Token} {ts us : List Token} {c : Condition} {cs : List Condition}
      (hk : Word "AND" k) (h : Not ts c) (hs : AndTail us cs) :
      AndTail (k :: (ts ++ us)) (c :: cs)

inductive Not : List Token → Condition → Prop
  | primary {ts : List Token} {c : Condition} (h : Primary ts c) : Not ts c
  | negated {k : Token} {ts : List Token} {c : Condition} (hk : Word "NOT" k) (h : Not ts c) :
      Not (k :: ts) (.not c .empty)

inductive Primary : List Token → Condition → Prop
  | group {l r : Token} {ts : List Token} {c : Condition} (hl : l.kind = .leftParen)
      (h : Or ts c) (hr : r.kind = .rightParen) : Primary (l :: (ts ++ [r])) c
  | true {t : Token} (h : Word "TRUE" t) : Primary [t] (.literal Bool.true .empty)
  | false {t : Token} (h : Word "FALSE" t) : Primary [t] (.literal Bool.false .empty)
  | present {ts : List Token} {path : String} (h : Reference ts path) :
      Primary ts (.present path .empty)
  | ref {ts : List Token} {name : String} (h : Operand ts name) : Primary ts (.ref name .empty)
  | predicate {ts us : List Token} {name : String} {c : Condition} (h : Operand ts name)
      (hp : Predicate name us c) : Primary (ts ++ us) c

end

/-! ### Nodes -/

/-- A directive, its condition and the bracket that closes it. -/
inductive Head (name : String) : List Token → Condition → Prop
  | mk {d close : Token} {ts : List Token} {c : Condition} (hd : Directive name d) (h : Or ts c)
      (hc : close.kind = .directiveClose) : Head name (d :: (ts ++ [close])) c

/-- What opens a part: its directive, perhaps `name=`, its name and the closing bracket. -/
inductive PartHead : List Token → String → Prop
  | plain {d n close : Token} (hd : Directive "SECTION" d) (hn : Name n)
      (hc : close.kind = .directiveClose) : PartHead [d, n, close] n.text
  | keyed {d k e n close : Token} (hd : Directive "SECTION" d) (hk : k.kind = .identifier)
      (hkn : k.text = "name") (he : e.kind = .equals) (hn : Name n)
      (hc : close.kind = .directiveClose) : PartHead [d, k, e, n, close] n.text

mutual

inductive OneNode : List Token → Node → Prop
  | text {t : Token} (h : t.kind = .text) : OneNode [t] (.text t.lexeme .empty)
  | slot {o n close : Token} {hs ds : List Token} {h : Option Hint} {d : Option String}
      (ho : o.kind = .slotOpen) (hn : n.kind = .identifier) (hh : HintPart hs h)
      (hd : DefaultPart ds d) (hc : close.kind = .slotClose) :
      OneNode (o :: n :: (hs ++ (ds ++ [close]))) (.slot n.text h d .empty)
  | context {ts : List Token} {path : String} (h : Reference ts path) :
      OneNode ts (.context path .empty)
  | imported {d n close : Token} (hd : Directive "IMPORT" d) (hn : Name n)
      (hc : close.kind = .directiveClose) : OneNode [d, n, close] (.imported n.text .empty)
  | included {d n close : Token} (hd : Directive "INCLUDE" d) (hn : Name n)
      (hc : close.kind = .directiveClose) : OneNode [d, n, close] (.included n.text .empty)
  | part {hs ts : List Token} {name : String} {ns : List Node} {close : Token}
      (hh : PartHead hs name) (h : Nodes ts ns) (hc : Directive "END_SECTION" close) :
      OneNode (hs ++ (ts ++ [close])) (.part name ns .empty)
  | conditional {hs ts us : List Token} {c : Condition} {n : Node} {ns es : List Node}
      {close : Token} (hh : Head "IF" hs c) (h : Nodes ts (n :: ns)) (he : Else us es)
      (hc : Directive "END_IF" close) :
      OneNode (hs ++ (ts ++ (us ++ [close]))) (.conditional c (n :: ns) es .empty)

inductive Nodes : List Token → List Node → Prop
  | nil : Nodes [] []
  | cons {ts us : List Token} {n : Node} {ns : List Node} (h : OneNode ts n) (hs : Nodes us ns) :
      Nodes (ts ++ us) (n :: ns)

/-- The branches behind the first: any number of else-ifs, then perhaps an else. -/
inductive Else : List Token → List Node → Prop
  | absent : Else [] []
  | otherwise {d : Token} {ts : List Token} {ns : List Node} (hd : Directive "ELSE" d)
      (h : Nodes ts ns) : Else (d :: ts) ns
  | elseIf {hs ts us : List Token} {c : Condition} {n : Node} {ns es : List Node}
      (hh : Head "ELSE_IF" hs c) (h : Nodes ts (n :: ns)) (he : Else us es) :
      Else (hs ++ (ts ++ us)) [.conditional c (n :: ns) es .empty]

end

/-- A whole document: its nodes and the end of the input. -/
inductive Derives : List Token → List Node → Prop
  | mk {ts : List Token} {ns : List Node} {e : Token} (h : Nodes ts ns)
      (he : e.kind = .endOfInput) : Derives (ts ++ [e]) ns

end Stencil.Template.Grammar

/-! ### The grammar with places -/

namespace Stencil.Template

/-- The last of some tokens behind others, or else the last of those. -/
lemma getLastD_append (ts us : List Token) (t : Token) :
    (ts ++ us).getLastD t = us.getLastD (ts.getLastD t) := by
  rw [List.getLastD_eq_getLast?, List.getLastD_eq_getLast?, List.getLastD_eq_getLast?,
    List.getLast?_append]
  cases us.getLast? <;> rfl

namespace Placed

open Grammar (PartHead Head Directive)

/-- The node has no bodies. -/
def IsLeaf : Node → Prop
  | .conditional .. | .part .. => False
  | _ => True

variable (Joins : Position → Position → Prop)

mutual

/-- The tokens are the node, and it lies from the first of them to the last. -/
inductive OneNode : List Token → Node → Prop
  | leaf {t : Token} {ts : List Token} {n : Node} (h : Grammar.OneNode (t :: ts) n.unplaced)
      (hn : IsLeaf n) (hs : n.span = ⟨t.start, (ts.getLastD t).stop⟩) : OneNode (t :: ts) n
  | part {d bracket close : Token} {hs ts : List Token} {name : String} {ns : List Node}
      (hh : PartHead (d :: (hs ++ [bracket])) name) (h : Nodes bracket.stop ts ns close.start)
      (hc : Directive "END_SECTION" close) :
      OneNode (d :: (hs ++ [bracket]) ++ (ts ++ [close])) (.part name ns ⟨d.start, close.stop⟩)
  | conditional {d bracket close : Token} {hs ts us : List Token} {c : Condition} {n : Node}
      {ns es : List Node} {q : Position} (hh : Head "IF" (d :: (hs ++ [bracket])) c.unplaced)
      (h : Nodes bracket.stop ts (n :: ns) q) (he : Else q us es close.start)
      (hc : Directive "END_IF" close) :
      OneNode (d :: (hs ++ [bracket]) ++ (ts ++ (us ++ [close])))
        (.conditional c (n :: ns) es ⟨d.start, close.stop⟩)

/-- The tokens are the nodes, which lie one behind the other from one place to another. -/
inductive Nodes : Position → List Token → List Node → Position → Prop
  | nil {a b : Position} (hj : Joins a b) : Nodes a [] [] b
  | cons {a b : Position} {ts us : List Token} {n : Node} {ns : List Node}
      (hj : Joins a n.span.start) (h : OneNode ts n) (hs : Nodes n.span.stop us ns b) :
      Nodes a (ts ++ us) (n :: ns) b

/-- The branches behind a body that ends at one place, up to the place where the conditional's
closing directive stands. An else-if lies from its directive to that place. -/
inductive Else : Position → List Token → List Node → Position → Prop
  | absent {a b : Position} (hj : Joins a b) : Else a [] [] b
  | otherwise {a b : Position} {d : Token} {ts : List Token} {ns : List Node}
      (hj : Joins a d.start) (hd : Directive "ELSE" d) (h : Nodes d.stop ts ns b) :
      Else a (d :: ts) ns b
  | elseIf {a b q : Position} {d bracket : Token} {hs ts us : List Token} {c : Condition}
      {n : Node} {ns es : List Node} {stop : Position} (hj : Joins a d.start)
      (hh : Head "ELSE_IF" (d :: (hs ++ [bracket])) c.unplaced)
      (h : Nodes bracket.stop ts (n :: ns) q) (he : Else q us es b)
      (hlast : stop = ((hs ++ [bracket] ++ (ts ++ us)).getLastD d).stop)
      (hstop : Joins stop b) :
      Else a (d :: (hs ++ [bracket]) ++ (ts ++ us)) [.conditional c (n :: ns) es ⟨d.start, stop⟩] b

end

variable {Joins : Position → Position → Prop}

mutual

/-- Places aside, this is the grammar. -/
lemma OneNode.unplaced : ∀ {ts : List Token} {n : Node}, OneNode Joins ts n →
    Grammar.OneNode ts n.unplaced
  | _, _, .leaf h _ _ => h
  | _, _, .part hh h hc => .part hh h.unplaced hc
  | _, _, .conditional hh h he hc => .conditional hh h.unplaced he.unplaced hc

lemma Nodes.unplaced : ∀ {a b : Position} {ts : List Token} {ns : List Node},
    Nodes Joins a ts ns b → Grammar.Nodes ts (Node.unplacedAll ns)
  | _, _, _, _, .nil _ => .nil
  | _, _, _, _, .cons _ h hs => .cons h.unplaced hs.unplaced

lemma Else.unplaced : ∀ {a b : Position} {ts : List Token} {es : List Node},
    Else Joins a ts es b → Grammar.Else ts (Node.unplacedAll es)
  | _, _, _, _, .absent _ => .absent
  | _, _, _, _, .otherwise _ hd h => .otherwise hd h.unplaced
  | _, _, _, _, .elseIf _ hh h he _ _ => .elseIf hh h.unplaced he.unplaced

end

/-- Joints of any kind. -/
def Anywhere (_ _ : Position) : Prop := True

/-- A directive's condition, its body and the branches behind it, with the conditional that lies
from the directive to the last of their tokens. -/
inductive Branch (name : String) (d : Token) : List Token → Node → Prop
  | mk {bracket : Token} {hs ts us : List Token} {c : Condition} {n : Node} {ns es : List Node}
      (hh : Head name (d :: (hs ++ [bracket])) c.unplaced)
      (h : ∀ a b, Nodes Anywhere a ts (n :: ns) b) (he : ∀ a b, Else Anywhere a us es b) :
      Branch name d (hs ++ [bracket] ++ (ts ++ us)) (.conditional c (n :: ns) es
        ⟨d.start, ((hs ++ [bracket] ++ (ts ++ us)).getLastD d).stop⟩)

end Placed

end Stencil.Template
