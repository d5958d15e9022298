import Stencil.Proofs.Source.Lexeme
import Stencil.Proofs.Template.Forest
import Stencil.Template.Parse

/-!
Well-formed trees: what every node and every condition of a template is, however its source was
read. Nodes and conditions are proper by themselves (`Node.Proper`, `Condition.Proper`), and trees
are when all that they are made of is.
-/

namespace Stencil

/-- A template can use an operator by this name: it is a word in lower case that makes no
condition of another kind. -/
structure Operators.IsUsable (name : String) : Prop where
  word : Source.IsWord name
  lower : name.toLower = name
  own : Template.isJudgeOperator name = false ∧ name ≠ "context"

/-- Several texts are two at least. -/
def Argument.Proper : Argument → Prop
  | .texts ss => 2 ≤ ss.length
  | _ => True

namespace Condition

/-- What holds of a condition by itself, apart from its operands. -/
def Proper : Condition → Prop
  | and cs _ | or cs _ => 2 ≤ cs.length
  | compare _ op arg _ => Operators.IsUsable op ∧ arg.Proper
  | judge _ question _ => Text.allBlank question = false
  | present path _ => path ≠ ""
  | _ => True

/-- The condition and all conditions in it are proper. -/
def AllProper (c : Condition) : Prop := ∀ d ∈ c.subterms, d.Proper

variable {c : Condition} {cs : List Condition} {s : Span}

/-- A condition without operands. -/
lemma AllProper.alone (hs : c.subterms = [c]) (h : c.Proper) : c.AllProper := by
  unfold AllProper
  rw [hs]
  exact List.forall_mem_singleton.mpr h

lemma AllProper.not (h : c.AllProper) (s : Span) : (Condition.not c s).AllProper := by
  unfold AllProper
  rw [subterms_not]
  exact List.forall_mem_cons.mpr ⟨trivial, h⟩

lemma proper_operands (h : ∀ c ∈ cs, c.AllProper) : ∀ d ∈ cs.flatMap subterms, d.Proper := by
  intro d hd
  obtain ⟨c, hc, hd⟩ := List.mem_flatMap.mp hd
  exact h c hc d hd

lemma AllProper.and (hlength : 2 ≤ cs.length) (h : ∀ c ∈ cs, c.AllProper) (s : Span) :
    (Condition.and cs s).AllProper := by
  unfold AllProper
  rw [subterms_and]
  exact List.forall_mem_cons.mpr ⟨hlength, proper_operands h⟩

lemma AllProper.or (hlength : 2 ≤ cs.length) (h : ∀ c ∈ cs, c.AllProper) (s : Span) :
    (Condition.or cs s).AllProper := by
  unfold AllProper
  rw [subterms_or]
  exact List.forall_mem_cons.mpr ⟨hlength, proper_operands h⟩

end Condition

namespace Node

/-- What holds of a node by itself: slots have names and known hints, context references have
paths, and conditionals have something to show and a proper condition. -/
def Proper : Node → Prop
  | slot name hint _ _ => name ≠ "" ∧ ∀ h ∈ hint, h.word ∈ ["text", "number", "boolean", "json"]
  | conditional c t _ _ => t ≠ [] ∧ c.AllProper
  | context path _ => path ≠ ""
  | _ => True

/-- All nodes of the trees are proper. -/
def AllProper (ns : List Node) : Prop := ∀ n ∈ walk ns, n.Proper

variable {n : Node} {as bs ns : List Node}

lemma allProper_nil : AllProper [] := by simp [AllProper]

lemma allProper_append : AllProper (as ++ bs) ↔ AllProper as ∧ AllProper bs := by
  simp only [AllProper, walk_append, List.forall_mem_append]

/-- A tree is proper when its root is and what is below it. -/
lemma allProper_singleton (h : n.Proper) (hbelow : AllProper n.children) : AllProper [n] := by
  unfold AllProper
  rw [walk_cons, walk_nil, List.append_nil]
  exact List.forall_mem_cons.mpr ⟨h, hbelow⟩

/-- A node without children. -/
lemma allProper_leaf (h : n.Proper) (hchildren : n.children = []) : AllProper [n] :=
  allProper_singleton h (hchildren ▸ allProper_nil)

lemma proper_withSpan (s : Span) (n : Node) : (n.withSpan s).Proper ↔ n.Proper := by
  cases n <;> rfl

lemma children_withSpan (s : Span) (n : Node) : (n.withSpan s).children = n.children := by
  cases n <;> rfl

lemma allProper_withSpan {s : Span} (h : AllProper [n]) : AllProper [n.withSpan s] := by
  unfold AllProper at h ⊢
  rw [walk_cons, walk_nil, List.append_nil] at h ⊢
  rw [children_withSpan]
  obtain ⟨hroot, hbelow⟩ := List.forall_mem_cons.mp h
  exact List.forall_mem_cons.mpr ⟨(proper_withSpan s n).mpr hroot, hbelow⟩

lemma word_mem (h : Hint) : h.word ∈ ["text", "number", "boolean", "json"] := by
  cases h <;> decide

end Node

end Stencil
