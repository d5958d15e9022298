import Mathlib.Data.List.Basic
import Mathlib.Data.List.Induction
import Mathlib.Tactic.Common
import Stencil.Proofs.Template.Forest

/-!
Walks over documents and nodes with a stack.

A tree that comes off the stack leaves its children there, so what comes off until the stack is
empty is the recursive walk of what was on it (`drain_eq`). A walk therefore has the tree at each
place once (`VisitsOnce`), and visitors, the parts by name and the questions for a judge follow
its order (`walkAll_visitsOnce`).
-/

namespace Stencil

/-! ### Questions in conditions -/

namespace Condition

mutual

/-- The questions in a condition, from left to right. -/
def asked : Condition → List Condition
  | judge name question span => [judge name question span]
  | not c _ => asked c
  | and cs _ => askedOf cs
  | or cs _ => askedOf cs
  | _ => []

def askedOf : List Condition → List Condition
  | [] => []
  | c :: cs => asked c ++ askedOf cs

end

mutual

lemma filter_subterms : ∀ c : Condition, c.subterms.filter isJudge = c.asked
  | literal .. | ref .. | compare .. | present .. | judge .. => rfl
  | not c s => by
    rw [subterms, asked, List.filter_cons_of_neg (by simp [isJudge]), filter_subterms c]
  | and cs s => by
    rw [subterms, asked, List.filter_cons_of_neg (by simp [isJudge]), filter_subtermsOf cs]
  | or cs s => by
    rw [subterms, asked, List.filter_cons_of_neg (by simp [isJudge]), filter_subtermsOf cs]

lemma filter_subtermsOf : ∀ cs : List Condition,
    (subtermsOf cs).filter isJudge = askedOf cs
  | [] => rfl
  | c :: cs => by
    rw [subtermsOf, askedOf, List.filter_append, filter_subterms c, filter_subtermsOf cs]

end

end Condition

namespace Node

mutual

/-- The questions in the conditions of a node and of the nodes below it: those of its own condition
before those in its then branch, and these before those in its else branch. -/
def asked : Node → List Condition
  | conditional c t e _ => c.asked ++ (askedOf t ++ askedOf e)
  | part _ cs _ => askedOf cs
  | _ => []

def askedOf : List Node → List Condition
  | [] => []
  | n :: ns => asked n ++ askedOf ns

end

lemma preorder_eq (n : Node) : n.preorder = n :: preorderAll n.children := by
  have h := walk_cons n []
  rwa [walk_nil, List.append_nil, walk_eq_preorderAll, walk_eq_preorderAll, preorderAll,
    preorderAll, List.append_nil] at h

lemma askedOf_eq (ns : List Node) :
    (walk ns).flatMap (fun n => n.conditions.filter Condition.isJudge) = askedOf ns := by
  induction ns using forest_induction with
  | nil => rw [walk_nil, askedOf, List.flatMap_nil]
  | conditional c t f s ns iht ihf ih =>
    rw [walk_cons, children, walk_append, List.flatMap_cons, List.flatMap_append,
      List.flatMap_append, iht, ihf, ih, askedOf, asked, conditions,
      Condition.filter_subterms, List.append_assoc, List.append_assoc, List.append_assoc]
  | part name cs s ns ihc ih =>
    rw [walk_cons, children, List.flatMap_cons, List.flatMap_append, ihc, ih, askedOf,
      asked]
    rfl
  | _ =>
    rename_i ih
    rw [walk_cons, children, walk_nil, List.flatMap_cons, List.nil_append, ih, askedOf,
      asked]
    · rfl
    all_goals simp

end Node

namespace Template.Tree

variable {t : Tree} {ts : List Tree}

/-! ### The order of a walk -/

/-- The tree, then the walks of its children. -/
def preorder : Tree → List Tree
  | document d => document d :: (Node.preorderAll d.children).map node
  | node n => n.preorder.map node

/-- The recursive walks of some trees, one after the other. -/
def preorderAll (ts : List Tree) : List Tree := ts.flatMap preorder

lemma preorderAll_cons (t : Tree) (ts : List Tree) :
    preorderAll (t :: ts) = t.preorder ++ preorderAll ts := List.flatMap_cons

lemma preorderAll_append (ts us : List Tree) :
    preorderAll (ts ++ us) = preorderAll ts ++ preorderAll us := List.flatMap_append

lemma preorderAll_map_node (ns : List Node) :
    preorderAll (ns.map node) = (Node.preorderAll ns).map node := by
  induction ns with
  | nil => rfl
  | cons n ns ih =>
    rw [List.map_cons, preorderAll_cons, ih, Node.preorderAll, List.map_append, preorder]

lemma preorder_eq (t : Tree) : t.preorder = t :: preorderAll t.children := by
  cases t with
  | document d => rw [children, preorderAll_map_node, preorder]
  | node n => rw [children, preorderAll_map_node, preorder, Node.preorder_eq, List.map_cons]

/-! ### Stacks -/

lemma next?_push (t : Tree) (stack : Array Tree) :
    next? (stack.push t) = some (t, stack ++ t.children.reverse) := by
  rw [next?, Array.back?_push, Array.pop_push, Option.map_some]

/-- Induction along what comes off a stack: a tree on top is gone when its children are there. -/
@[elab_as_elim]
lemma stack_induction {motive : Array Tree → Prop} (empty : motive #[])
    (push : ∀ (t : Tree) (stack : Array Tree), motive (stack ++ t.children.reverse) →
      motive (stack.push t)) (stack : Array Tree) : motive stack := by
  induction stack using drain.induct with
  | case1 stack h =>
    obtain rfl : stack = #[] := by simpa [next?] using h
    exact empty
  | case2 stack t rest h ih =>
    obtain ⟨below, rfl, rfl⟩ := eq_push_of_next? h
    exact push t below ih

lemma drain_empty : drain #[] = [] := by
  rw [drain]
  rfl

lemma drain_push (t : Tree) (stack : Array Tree) :
    drain (stack.push t) = t :: drain (stack ++ t.children.reverse) := by
  rw [drain]
  split
  · rename_i h
    cases (next?_push t stack).symm.trans h
  · rename_i u rest h
    cases (next?_push t stack).symm.trans h
    rfl

/-- What comes off a stack is the recursive walk of the trees on it, from the top. -/
lemma drain_eq (stack : Array Tree) : drain stack = preorderAll stack.toList.reverse := by
  induction stack using stack_induction with
  | empty => exact drain_empty
  | push t stack ih =>
    rw [drain_push, ih, Array.toList_push, List.reverse_append, List.reverse_singleton,
      List.singleton_append, preorderAll_cons, preorder_eq, Array.toList_appendList,
      List.reverse_append, List.reverse_reverse, preorderAll_append, List.cons_append]

lemma walk_eq (t : Tree) : walk t = t.preorder := by
  rw [walk, drain_eq]
  exact List.append_nil _

lemma walkAll_eq (ts : List Tree) : walkAll ts = preorderAll ts := by
  rw [walkAll, drain_eq, List.toList_toArray, List.reverse_reverse]

lemma walkAll_eq_flatMap (ts : List Tree) : walkAll ts = ts.flatMap walk := by
  rw [walkAll_eq, preorderAll]
  exact List.flatMap_congr fun t _ => (walk_eq t).symm

/-- A walk over a document visits it, then what a walk over its nodes visits. -/
lemma walkAll_document (d : Document) :
    walkAll [document d] = document d :: (Node.walk d.children).map node := by
  rw [walkAll_eq, preorderAll_cons, preorder, Node.walk_eq_preorderAll]
  exact List.append_nil _

/-! ### Every tree once -/

/-- Induction over trees beside each other: below the first one, and behind it. -/
@[elab_as_elim]
lemma below_induction {motive : List Tree → Prop} (nil : motive [])
    (cons : ∀ t ts, motive t.children → motive ts → motive (t :: ts)) : ∀ ts, motive ts
  | [] => nil
  | t :: ts => cons t ts (below_induction nil cons t.children) (below_induction nil cons ts)
termination_by ts => sizeAll ts
decreasing_by
  all_goals
    have := sizeAll_children t
    simp only [sizeAll]
    omega

/-- The tree at a place among some trees: which of them it is or is below, and then which child it
is or is below each time. -/
def at? : List Tree → List Nat → Option Tree
  | _, [] => none
  | ts, [i] => ts[i]?
  | ts, i :: j :: p => ts[i]?.bind fun t => at? t.children (j :: p)

lemma at?_nil (p : List Nat) : at? [] p = none := by
  rcases p with _ | ⟨i, _ | ⟨j, p⟩⟩ <;> rfl

lemma at?_below (t : Tree) (ts : List Tree) {p : List Nat} (hp : p ≠ []) :
    at? (t :: ts) (0 :: p) = at? t.children p := by
  cases p with
  | nil => exact absurd rfl hp
  | cons j p => rfl

lemma at?_beside (t : Tree) (ts : List Tree) (i : Nat) (p : List Nat) :
    at? (t :: ts) ((i + 1) :: p) = at? ts (i :: p) := by
  cases p <;> rfl

/-- These are the places of some trees in order: the place of a tree before the places below it,
and these child by child. -/
structure ArePlaces (ts : List Tree) (ps : List (List Nat)) : Prop where
  ordered : ps.Pairwise (· < ·)
  mem_iff : ∀ p, p ∈ ps ↔ (at? ts p).isSome

/-- Each tree at a place among some trees is visited once, in the order of the places. -/
def VisitsOnce (ts visited : List Tree) : Prop :=
  ∃ ps, ArePlaces ts ps ∧ visited.map some = ps.map (at? ts)

lemma ArePlaces.exists_cons {ps : List (List Nat)} (h : ArePlaces ts ps) {p : List Nat}
    (hp : p ∈ ps) : ∃ i q, p = i :: q := by
  cases p with
  | nil => cases (h.mem_iff []).mp hp
  | cons i q => exact ⟨i, q, rfl⟩

/-- The place when one more tree stands in front. -/
def shifted (p : List Nat) : List Nat := p.modifyHead (· + 1)

lemma zero_cons_lt {p q : List Nat} (h : p < q) : 0 :: p < 0 :: q :=
  List.cons_lt_cons_iff.mpr (.inr ⟨rfl, h⟩)

lemma zero_cons_lt_shifted (p : List Nat) (i : Nat) (q : List Nat) : 0 :: p < shifted (i :: q) :=
  List.cons_lt_cons_iff.mpr (.inl i.succ_pos)

lemma shifted_lt_shifted {i j : Nat} {p q : List Nat} (h : i :: p < j :: q) :
    shifted (i :: p) < shifted (j :: q) := by
  rcases List.cons_lt_cons_iff.mp h with hij | ⟨rfl, hpq⟩
  · exact List.cons_lt_cons_iff.mpr (.inl (Nat.succ_lt_succ hij))
  · exact List.cons_lt_cons_iff.mpr (.inr ⟨rfl, hpq⟩)

lemma ArePlaces.mem_map_shifted {qs : List (List Nat)} (h : ArePlaces ts qs) {p : List Nat} :
    p ∈ qs.map shifted ↔ ∃ i q, p = (i + 1) :: q ∧ i :: q ∈ qs := by
  rw [List.mem_map]
  constructor
  · rintro ⟨q, hq, rfl⟩
    obtain ⟨i, q, rfl⟩ := h.exists_cons hq
    exact ⟨i, q, rfl, hq⟩
  · rintro ⟨i, q, rfl, hq⟩
    exact ⟨i :: q, hq, rfl⟩

/-- The places with one more tree in front: its own, those below it, and those that were there. -/
lemma ArePlaces.cons {ps qs : List (List Nat)} (below : ArePlaces t.children ps)
    (beside : ArePlaces ts qs) :
    ArePlaces (t :: ts) ([0] :: (ps.map (0 :: ·) ++ qs.map shifted)) where
  ordered := by
    have hbelow : ∀ p ∈ ps.map (0 :: ·), [0] < p := by
      intro p hp
      obtain ⟨q, hq, rfl⟩ := List.mem_map.mp hp
      obtain ⟨i, q, rfl⟩ := below.exists_cons hq
      exact zero_cons_lt (List.nil_lt_cons i q)
    have hbeside (p : List Nat) : ∀ q ∈ qs.map shifted, 0 :: p < q := by
      intro q hq
      obtain ⟨r, hr, rfl⟩ := List.mem_map.mp hq
      obtain ⟨i, r, rfl⟩ := beside.exists_cons hr
      exact zero_cons_lt_shifted p i r
    refine List.pairwise_cons.mpr ⟨fun p hp => ?_, List.pairwise_append.mpr ⟨?_, ?_, ?_⟩⟩
    · exact (List.mem_append.mp hp).elim (hbelow p) (hbeside [] p)
    · exact List.pairwise_map.mpr (below.ordered.imp zero_cons_lt)
    · refine List.pairwise_map.mpr (beside.ordered.imp_of_mem fun {p q} hp hq hlt => ?_)
      obtain ⟨i, p, rfl⟩ := beside.exists_cons hp
      obtain ⟨j, q, rfl⟩ := beside.exists_cons hq
      exact shifted_lt_shifted hlt
    · intro p hp q hq
      obtain ⟨p, -, rfl⟩ := List.mem_map.mp hp
      exact hbeside p q hq
  mem_iff p := by
    rw [List.mem_cons, List.mem_append, List.mem_map, beside.mem_map_shifted]
    -- no place is empty, and the first tree's own place is not below it
    rcases p with _ | ⟨_ | i, _ | ⟨j, p⟩⟩
    · simp [at?]
    · simp [at?]
    · rw [at?_below t ts (List.cons_ne_nil j p), ← below.mem_iff]
      simp
    · rw [at?_beside, ← beside.mem_iff]
      simp
    · rw [at?_beside, ← beside.mem_iff]
      simp

lemma VisitsOnce.nil : VisitsOnce [] [] :=
  ⟨[], ⟨.nil, fun p => by simp [at?_nil]⟩, rfl⟩

/-- A tree is visited, then what is below it, then what is beside it. -/
lemma VisitsOnce.cons {us vs : List Tree} (below : VisitsOnce t.children us)
    (beside : VisitsOnce ts vs) : VisitsOnce (t :: ts) (t :: (us ++ vs)) := by
  obtain ⟨ps, hps, hus⟩ := below
  obtain ⟨qs, hqs, hvs⟩ := beside
  refine ⟨_, hps.cons hqs, ?_⟩
  have hbelow : us.map some = (ps.map (0 :: ·)).map (at? (t :: ts)) := by
    rw [hus, List.map_map]
    refine List.map_congr_left fun p hp => ?_
    obtain ⟨i, q, rfl⟩ := hps.exists_cons hp
    rfl
  have hbeside : vs.map some = (qs.map shifted).map (at? (t :: ts)) := by
    rw [hvs, List.map_map]
    refine List.map_congr_left fun p hp => ?_
    obtain ⟨i, q, rfl⟩ := hqs.exists_cons hp
    exact (at?_beside t ts i q).symm
  rw [List.map_cons, List.map_append, List.map_cons, List.map_append, hbelow, hbeside]
  rfl

lemma visitsOnce_preorderAll (ts : List Tree) : VisitsOnce ts (preorderAll ts) := by
  induction ts using below_induction with
  | nil => exact .nil
  | cons t ts below beside =>
    rw [preorderAll_cons, preorder_eq, List.cons_append]
    exact below.cons beside

/-! ### Visits -/

section Visits

variable {m : Type → Type} [Monad m]

lemma visitFrom_empty (v : Visitor m) : visitFrom v #[] = pure () := by
  rw [visitFrom]
  rfl

lemma visitFrom_push (v : Visitor m) (t : Tree) (stack : Array Tree) :
    visitFrom v (stack.push t) = (do v.handle t; visitFrom v (stack ++ t.children.reverse)) := by
  rw [visitFrom]
  split
  · rename_i h
    cases (next?_push t stack).symm.trans h
  · rename_i u rest h
    cases (next?_push t stack).symm.trans h
    rfl

/-- The trees are visited that come off the stack, in turn. -/
lemma visitFrom_eq (v : Visitor m) (stack : Array Tree) :
    visitFrom v stack = (drain stack).forM v.handle := by
  induction stack using stack_induction with
  | empty => rw [visitFrom_empty, drain_empty]; rfl
  | push t stack ih => rw [visitFrom_push, drain_push, ih]; rfl

lemma visitAll_cons (v : Visitor m) (t : Tree) (ts : List Tree) :
    visitAll v (t :: ts) = (do visit v t; visitAll v ts) := rfl

/-- Visiting trees one by one is doing at each tree of their walk what the visitor does. -/
lemma visitAll_eq [LawfulMonad m] (v : Visitor m) (ts : List Tree) :
    visitAll v ts = (walkAll ts).forM v.handle := by
  induction ts with
  | nil => rw [walkAll_eq]; rfl
  | cons t ts ih =>
    rw [visitAll_cons, ih, visit, visitFrom_eq, walkAll_eq_flatMap, walkAll_eq_flatMap,
      List.flatMap_cons]
    exact List.forM_append.symm

end Visits

/-! ### Parts by name -/

section Entries

variable {α : Type} {entries : List (String × α)} {e : String × α}

/-- The entries with another in the place of those that have its name. -/
def replaced (entries : List (String × α)) (e : String × α) : List (String × α) :=
  entries.map fun d => if d.1 == e.1 then e else d

lemma put_of_mem (h : e.1 ∈ entries.map Prod.fst) : put entries e = replaced entries e :=
  if_pos (by simpa [List.any_eq_true] using h)

lemma put_of_notMem (h : e.1 ∉ entries.map Prod.fst) : put entries e = entries ++ [e] :=
  if_neg (by simpa [List.any_eq_true] using h)

lemma map_fst_replaced (entries : List (String × α)) (e : String × α) :
    (replaced entries e).map Prod.fst = entries.map Prod.fst := by
  rw [replaced, List.map_map]
  refine List.map_congr_left fun d _ => ?_
  rw [Function.comp_apply]
  split
  · rename_i h
    exact (beq_iff_eq.mp h).symm
  · rfl

lemma lookup_replaced_self (h : e.1 ∈ entries.map Prod.fst) :
    (replaced entries e).lookup e.1 = some e.2 := by
  induction entries with
  | nil => cases h
  | cons d ds ih =>
    rw [replaced, List.map_cons, List.lookup_cons]
    by_cases hd : d.1 = e.1
    · rw [if_pos (beq_iff_eq.mpr hd), beq_self_eq_true]
    · have hds : e.1 ∈ ds.map Prod.fst := (List.mem_cons.mp h).resolve_left (Ne.symm hd)
      rw [if_neg (by simpa using hd), beq_false_of_ne (Ne.symm hd)]
      exact ih hds

lemma lookup_replaced_of_ne {name : String} (h : name ≠ e.1) :
    (replaced entries e).lookup name = entries.lookup name := by
  induction entries with
  | nil => rfl
  | cons d ds ih =>
    rw [replaced, List.map_cons, List.lookup_cons, List.lookup_cons, ← replaced, ih]
    by_cases hd : d.1 = e.1
    · rw [if_pos (beq_iff_eq.mpr hd), hd, beq_false_of_ne h]
    · rw [if_neg (by simpa using hd)]

/-- A name that is there keeps its place, and a new one comes last. -/
lemma map_fst_put (entries : List (String × α)) (e : String × α) :
    (put entries e).map Prod.fst = if e.1 ∈ entries.map Prod.fst then entries.map Prod.fst
      else entries.map Prod.fst ++ [e.1] := by
  split
  · rename_i h
    rw [put_of_mem h, map_fst_replaced]
  · rename_i h
    rw [put_of_notMem h, List.map_append, List.map_singleton]

/-- The entry that is put is found under its name, and under another name what was. -/
lemma lookup_put (entries : List (String × α)) (e : String × α) (name : String) :
    (put entries e).lookup name = if name = e.1 then some e.2 else entries.lookup name := by
  by_cases hmem : e.1 ∈ entries.map Prod.fst
  · rw [put_of_mem hmem]
    split
    · rename_i h
      rw [h, lookup_replaced_self hmem]
    · rename_i h
      exact lookup_replaced_of_ne h
  · rw [put_of_notMem hmem, List.lookup_append]
    split
    · rename_i h
      have hnone : entries.lookup e.1 = none :=
        List.lookup_eq_none_iff.mpr fun d hd => by
          simpa using fun heq : e.1 = d.1 => hmem (heq ▸ List.mem_map_of_mem hd)
      rw [h, hnone, Option.none_or, List.lookup_cons, beq_self_eq_true]
    · rename_i h
      rw [List.lookup_cons, beq_false_of_ne h, List.lookup_nil, Option.or_none]

/-- Of entries put one by one, the names are in the order in which they came up first. -/
lemma map_fst_foldl_put (es : List (String × α)) :
    (es.foldl put []).map Prod.fst = (es.map Prod.fst).eraseDups := by
  induction es using List.reverseRecOn with
  | nil => rfl
  | append_singleton es e ih =>
    rw [List.foldl_append, List.foldl_cons, List.foldl_nil, map_fst_put, ih, List.map_append,
      List.eraseDups_append]
    by_cases h : e.1 ∈ es.map Prod.fst
    · rw [if_pos (List.mem_eraseDups.mpr h)]
      have hnone : (List.map Prod.fst [e]).removeAll (es.map Prod.fst) = [] := by
        simpa [List.removeAll] using h
      rw [hnone, List.eraseDups_nil, List.append_nil]
    · rw [if_neg fun hmem => h (List.mem_eraseDups.mp hmem)]
      have hone : (List.map Prod.fst [e]).removeAll (es.map Prod.fst) = [e.1] := by
        simpa [List.removeAll] using h
      rw [hone, List.eraseDups_cons, List.filter_nil, List.eraseDups_nil]

/-- Of entries put one by one, the last one with a name is found. -/
lemma lookup_foldl_put (es : List (String × α)) (name : String) :
    (es.foldl put []).lookup name = (es.filter (·.1 == name)).getLast?.map Prod.snd := by
  induction es using List.reverseRecOn with
  | nil => rfl
  | append_singleton es e ih =>
    rw [List.foldl_append, List.foldl_cons, List.foldl_nil, lookup_put, ih, List.filter_append]
    by_cases h : name = e.1
    · have hone : [e].filter (·.1 == name) = [e] := by simpa using h.symm
      rw [if_pos h, hone, List.getLast?_concat, Option.map_some]
    · have hnone : [e].filter (·.1 == name) = [] := by simpa using Ne.symm h
      rw [if_neg h, hnone, List.append_nil]

lemma put_map {β : Type} (f : α → β) (entries : List (String × α)) (e : String × α) :
    put (entries.map (Prod.map id f)) (Prod.map id f e) =
      (put entries e).map (Prod.map id f) := by
  have hfst : (entries.map (Prod.map id f)).map Prod.fst = entries.map Prod.fst := by
    rw [List.map_map]
    rfl
  by_cases h : e.1 ∈ entries.map Prod.fst
  · rw [put_of_mem h, put_of_mem (by rwa [hfst]), replaced, replaced, List.map_map, List.map_map]
    refine List.map_congr_left fun d _ => ?_
    rw [Function.comp_apply, Function.comp_apply]
    exact (apply_ite (Prod.map id f) _ _ _).symm
  · rw [put_of_notMem h, put_of_notMem (by rwa [hfst]), List.map_append, List.map_singleton]

end Entries

/-- The parts that some trees define, by name, as often as they define them. -/
def definitions (ts : List Tree) : List (String × Node) := (preorderAll ts).filterMap part?

lemma parts_eq (ts : List Tree) : parts ts = (definitions ts).foldl put [] := by
  rw [parts, collect, walkAll_eq, definitions]

lemma definitions_document (d : Document) :
    Node.definitions d.children =
      (definitions [document d]).map (Prod.map id Node.children) := by
  have hpick : Node.part? = fun n => (part? (node n)).map (Prod.map id Node.children) := by
    funext n
    cases n <;> rfl
  rw [definitions, ← walkAll_eq, walkAll_document, Node.definitions, hpick,
    List.filterMap_cons_none rfl, List.filterMap_map, List.map_filterMap]
  rfl

/-- The parts that an evaluation knows of a document are those that a walk over it finds. -/
lemma parts_document (d : Document) :
    Node.parts d.children = (parts [document d]).map (Prod.map id Node.children) := by
  rw [Node.parts_eq_foldl, definitions_document, parts_eq, List.foldl_map]
  generalize definitions [document d] = es
  induction es using List.reverseRecOn with
  | nil => rfl
  | append_singleton es e ih =>
    rw [List.foldl_append, List.foldl_append, ih]
    exact put_map Node.children _ e

/-! ### Questions -/

/-- The questions in a tree, from left to right. -/
def asked : Tree → List Condition
  | document d => Node.askedOf d.children
  | node n => n.asked

lemma flatMap_walk (t : Tree) :
    (walk t).flatMap (fun u => u.conditions.filter Condition.isJudge) = t.asked := by
  cases t with
  | document d =>
    rw [walk_eq, preorder, ← Node.walk_eq_preorderAll, List.flatMap_cons, List.flatMap_map]
    exact Node.askedOf_eq d.children
  | node n =>
    have h := Node.askedOf_eq [n]
    rw [Node.walk_eq_preorderAll, Node.preorderAll, Node.preorderAll, List.append_nil,
      Node.askedOf, Node.askedOf, List.append_nil] at h
    rw [walk_eq, preorder, List.flatMap_map]
    exact h

lemma questions_eq (ts : List Tree) : questions ts = ts.flatMap asked := by
  rw [questions, walkAll_eq_flatMap, List.flatMap_assoc]
  exact List.flatMap_congr fun t _ => flatMap_walk t

/-- The walk with a stack is the recursive one, and comes by every tree once: by a document or a
node before what is below it, and by a then branch before the else branch. What is visited is what
is walked over. Of the parts with one name the last is found, under names in the order in which
they come up first; and the questions to a judge are those in all branches, from left to right. -/
theorem walkAll_visitsOnce (ts : List Tree) :
    (walkAll ts = preorderAll ts ∧ VisitsOnce ts (walkAll ts)) ∧
    (∀ t, walk t = t.preorder ∧ VisitsOnce [t] (walk t)) ∧
    (∀ {m : Type → Type} [Monad m] [LawfulMonad m] (v : Visitor m),
      visitAll v ts = (walkAll ts).forM v.handle ∧ ∀ t, visit v t = (walk t).forM v.handle) ∧
    (parts ts).map Prod.fst = ((definitions ts).map Prod.fst).eraseDups ∧
    (∀ name, (parts ts).lookup name =
      ((definitions ts).filter (·.1 == name)).getLast?.map Prod.snd) ∧
    questions ts = ts.flatMap asked := by
  have honce (us : List Tree) : VisitsOnce us (walkAll us) := by
    rw [walkAll_eq]
    exact visitsOnce_preorderAll us
  refine ⟨⟨walkAll_eq ts, honce ts⟩, fun t => ⟨walk_eq t, honce [t]⟩, fun v => ?_, ?_, ?_, ?_⟩
  · exact ⟨visitAll_eq v ts, fun t => visitFrom_eq v #[t]⟩
  · rw [parts_eq, map_fst_foldl_put]
  · intro name
    rw [parts_eq, lookup_foldl_put]
  · exact questions_eq ts

/-- A document that defines one part twice, the first time in a branch, and a part beside it. -/
def letter : List Tree :=
  [.document ⟨[.part "sign" [.text "Best, " .empty] .empty,
      .conditional (.and [.judge "bio" "Is it formal?" .empty, .ref "name" .empty] .empty)
        [.part "foot" [] .empty]
        [.conditional (.not (.judge "bio" "Is it rude?" .empty) .empty) [] [] .empty] .empty,
      .part "foot" [.context "plp://sig" .empty] .empty], .empty⟩,
    .node (.part "sign" [.slot "name" none none .empty] .empty)]

/-- A visitor that notes the kinds of the trees it comes by. -/
def kindsNoted : Visitor (StateM (List Kind)) := .plain fun t => modify (· ++ [t.kind])

theorem walkAll_visitsOnce_letter :
    ((visitAll kindsNoted letter).run []).2 =
      [.document, .part, .text, .conditional, .part, .conditional, .part, .context, .part,
        .slot] ∧
    (parts letter).map Prod.fst = ["sign", "foot"] ∧
    (parts letter).lookup "foot" =
      some (.part "foot" [.context "plp://sig" .empty] .empty) ∧
    questions letter =
      [.judge "bio" "Is it formal?" .empty, .judge "bio" "Is it rude?" .empty] := by
  obtain ⟨⟨hwalk, -⟩, -, hvisit, hnames, hlast, hasked⟩ := walkAll_visitsOnce letter
  refine ⟨?_, ?_, ?_, ?_⟩
  · rw [(hvisit kindsNoted).1, hwalk]
    rfl
  · rw [hnames]
    decide +kernel
  · rw [hlast]
    rfl
  · rw [hasked]
    rfl

end Template.Tree

end Stencil
