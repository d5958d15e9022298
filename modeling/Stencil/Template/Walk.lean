import Stencil.Template.Basic

/-!
Walking a template: every node before its children, the then branch before the else branch.
`preorder` says the order by recursion; `walk` finds it with a stack of nodes still to visit.

Tools walk over trees, each a document or a node of one. They may visit what a walk comes by, or
collect it: the parts by name, the questions for a judge.
-/

namespace Stencil

/-- The condition is a question that is put to a judge. -/
def Condition.isJudge : Condition → Bool
  | judge .. => true
  | _ => false

namespace Node

mutual

/-- The node, then the walks of its children. -/
def preorder : Node → List Node
  | conditional c t e s => conditional c t e s :: (preorderAll t ++ preorderAll e)
  | part n cs s => part n cs s :: preorderAll cs
  | n => [n]

def preorderAll : List Node → List Node
  | [] => []
  | n :: ns => preorder n ++ preorderAll ns

end

mutual

/-- The number of nodes in a tree. -/
def size : Node → Nat
  | conditional _ t e _ => 1 + sizeAll t + sizeAll e
  | part _ cs _ => 1 + sizeAll cs
  | _ => 1

def sizeAll : List Node → Nat
  | [] => 0
  | n :: ns => size n + sizeAll ns

end

theorem sizeAll_append (as bs : List Node) : sizeAll (as ++ bs) = sizeAll as + sizeAll bs := by
  induction as with
  | nil => simp [sizeAll]
  | cons n ns ih => simp [sizeAll, ih, Nat.add_assoc]

theorem sizeAll_children (n : Node) : sizeAll n.children + 1 = n.size := by
  cases n <;> simp [children, size, sizeAll, sizeAll_append] <;> omega

/-- The nodes of the trees on a stack: the top is visited and its children take its place. -/
def walk : List Node → List Node
  | [] => []
  | n :: stack => n :: walk (n.children ++ stack)
termination_by stack => sizeAll stack
decreasing_by
  have := sizeAll_children n
  simp only [sizeAll_append, sizeAll]
  omega

/-- The conditions of a conditional, and none of any other node. -/
def conditions : Node → List Condition
  | conditional c _ _ _ => c.subterms
  | _ => []

/-- The parts among the nodes of some trees, by name: the place of a name's first definition
and the children of its last. -/
def partsFrom (found : List (String × List Node)) : List Node → List (String × List Node)
  | [] => found
  | part name children _ :: rest =>
    let found :=
      if found.any (·.1 == name) then
        found.map fun e => if e.1 == name then (name, children) else e
      else found ++ [(name, children)]
    partsFrom found rest
  | _ :: rest => partsFrom found rest

/-- The named parts in some trees, however deep. -/
def parts (nodes : List Node) : List (String × List Node) := partsFrom [] (walk nodes)

/-- The names in order, each at its first place only. -/
def distinct (names : List String) : List String :=
  names.foldl (fun seen n => if seen.contains n then seen else seen ++ [n]) []

/-- Every context path that a node asks for, directly or in its condition. -/
def contextPathsOf : Node → List String
  | context path _ => [path]
  | n => n.conditions.filterMap fun
    | .present path _ => some path
    | _ => none

/-- The distinct context paths in some trees, whatever branches will be taken. -/
def contextPaths (nodes : List Node) : List String :=
  distinct ((walk nodes).flatMap contextPathsOf)

end Node

namespace Template

/-- What tools walk over: a document, or a node of one. -/
inductive Tree where
  | document (d : Document)
  | node (n : Node)

namespace Tree

/-- The trees right below a tree, those in the then branch before those in the else branch. -/
def children : Tree → List Tree
  | document d => d.children.map node
  | node n => n.children.map node

/-- The number of nodes in a tree, a document counted as one. -/
def size : Tree → Nat
  | document d => 1 + Node.sizeAll d.children
  | node n => n.size

def sizeAll : List Tree → Nat
  | [] => 0
  | t :: ts => t.size + sizeAll ts

theorem sizeAll_append (ts us : List Tree) : sizeAll (ts ++ us) = sizeAll ts + sizeAll us := by
  induction ts with
  | nil => simp [sizeAll]
  | cons t ts ih => simp [sizeAll, ih, Nat.add_assoc]

theorem sizeAll_reverse (ts : List Tree) : sizeAll ts.reverse = sizeAll ts := by
  induction ts with
  | nil => rfl
  | cons t ts ih =>
    rw [List.reverse_cons, sizeAll_append, ih]
    exact Nat.add_comm _ _

theorem sizeAll_map_node (ns : List Node) : sizeAll (ns.map node) = Node.sizeAll ns := by
  induction ns with
  | nil => simp [sizeAll, Node.sizeAll]
  | cons n ns ih => simp only [List.map_cons, sizeAll, ih, size, Node.sizeAll]

theorem sizeAll_children (t : Tree) : sizeAll t.children + 1 = t.size := by
  cases t with
  | document d => rw [children, sizeAll_map_node, size, Nat.add_comm]
  | node n => rw [children, sizeAll_map_node, size, Node.sizeAll_children]

/-- The tree on top of a stack, and the stack without it: its children are pushed instead, the
last one first, so that the first comes off next. -/
def next? (stack : Array Tree) : Option (Tree × Array Tree) :=
  stack.back?.map fun t => (t, stack.pop ++ t.children.reverse)

theorem eq_push_of_next? {stack rest : Array Tree} {t : Tree} (h : next? stack = some (t, rest)) :
    ∃ below : Array Tree, stack = below.push t ∧ rest = below ++ t.children.reverse := by
  obtain ⟨top, htop, heq⟩ := Option.map_eq_some_iff.mp h
  obtain ⟨below, rfl⟩ := Array.back?_eq_some_iff.mp htop
  cases heq
  exact ⟨below, rfl, by rw [Array.pop_push]⟩

/-- A tree that comes off a stack leaves less on it. -/
theorem sizeAll_next?_lt {stack rest : Array Tree} {t : Tree}
    (h : next? stack = some (t, rest)) : sizeAll rest.toList < sizeAll stack.toList := by
  obtain ⟨below, rfl, rfl⟩ := eq_push_of_next? h
  have := sizeAll_children t
  simp only [Array.toList_push, Array.toList_appendList, sizeAll_append, sizeAll_reverse, sizeAll]
  omega

/-- The trees that come off a stack until it is empty. -/
def drain (stack : Array Tree) : List Tree :=
  match _h : next? stack with
  | none => []
  | some (t, rest) => t :: drain rest
termination_by sizeAll stack.toList
decreasing_by exact sizeAll_next?_lt _h

/-- A tree and all trees below it. -/
def walk (t : Tree) : List Tree := drain #[t]

/-- Some trees, each with all trees below it. -/
def walkAll (ts : List Tree) : List Tree := drain ts.reverse.toArray

/-- The kinds of trees. -/
inductive Kind where
  | document
  | text
  | slot
  | conditional
  | part
  | imported
  | included
  | context
deriving DecidableEq, Repr

def kind : Tree → Kind
  | document _ => .document
  | node (.text ..) => .text
  | node (.slot ..) => .slot
  | node (.conditional ..) => .conditional
  | node (.part ..) => .part
  | node (.imported ..) => .imported
  | node (.included ..) => .included
  | node (.context ..) => .context

/-- What is done at every tree of a walk: the same at all of them, or what is said of the tree's
kind, and something else at trees of which nothing is said. -/
inductive Visitor (m : Type → Type) where
  | plain (handler : Tree → m Unit)
  | byKind (handler? : Kind → Option (Tree → m Unit)) (generic : Tree → m Unit)

variable {m : Type → Type}

def Visitor.handle : Visitor m → Tree → m Unit
  | plain handler, t => handler t
  | byKind handler? generic, t => (handler? t.kind).getD generic t

variable [Monad m]

/-- Visits the trees that come off a stack until it is empty, each as it comes. -/
def visitFrom (v : Visitor m) (stack : Array Tree) : m Unit :=
  match _h : next? stack with
  | none => pure ()
  | some (t, rest) => do
    v.handle t
    visitFrom v rest
termination_by sizeAll stack.toList
decreasing_by exact sizeAll_next?_lt _h

/-- Visits a tree and all trees below it. -/
def visit (v : Visitor m) (t : Tree) : m Unit := visitFrom v #[t]

/-- Visits some trees one by one. -/
def visitAll (v : Visitor m) (ts : List Tree) : m Unit := ts.forM (visit v)

variable {α : Type}

/-- What is picked from the trees of a walk, in the order of the walk. -/
def collect (pick : Tree → Option α) (ts : List Tree) : List α := (walkAll ts).filterMap pick

/-- An entry put among others: in the place of the one that has its name, or behind all. -/
def put (entries : List (String × α)) (e : String × α) : List (String × α) :=
  if entries.any (·.1 == e.1) then entries.map fun d => if d.1 == e.1 then e else d
  else entries ++ [e]

/-- A part, by its name. -/
def part? : Tree → Option (String × Node)
  | node (.part name children span) => some (name, .part name children span)
  | _ => none

/-- The parts in some trees, by name: of several with one name the last. -/
def parts (ts : List Tree) : List (String × Node) := (collect part? ts).foldl put []

/-- The conditions of a tree, apart from those of the trees below it. -/
def conditions : Tree → List Condition
  | node n => n.conditions
  | document _ => []

/-- The questions that some trees put to a judge. -/
def questions (ts : List Tree) : List Condition :=
  (walkAll ts).flatMap fun t => t.conditions.filter Condition.isJudge

end Tree

end Template

end Stencil
