import Mathlib.Data.List.Basic
import Mathlib.Data.List.Induction
import Mathlib.Tactic.Common
import Stencil.Template.Walk

/-!
Lists of nodes as forests: an induction over them, and what a walk over them comes across.

The walk over a forest visits the first node, then what is below it, then the rest
(`walk_cons`). Everything that is collected from a walk (context paths, parts, names in slots)
is found below a node exactly when it is found at some node that the walk visits.
-/

namespace Stencil

/-! ### Conditions -/

namespace Condition

/-- The name that a condition looks up, apart from its operands. -/
def name? : Condition → Option String
  | ref name _ | compare name _ _ _ | judge name _ _ => some name
  | _ => none

/-- The context path that a condition asks for, apart from its operands. -/
def path? : Condition → Option String
  | present path _ => some path
  | _ => none

/-- The names that a condition looks up, with those of its operands. -/
def names (c : Condition) : List String := c.subterms.filterMap name?

/-- The context paths that a condition asks for, with those of its operands. -/
def paths (c : Condition) : List String := c.subterms.filterMap path?

lemma subtermsOf_eq_flatMap (cs : List Condition) : subtermsOf cs = cs.flatMap subterms := by
  induction cs with
  | nil => rw [subtermsOf, List.flatMap_nil]
  | cons c cs ih => rw [subtermsOf, ih, List.flatMap_cons]

lemma mem_subterms_self (c : Condition) : c ∈ c.subterms := by
  cases c <;> exact List.mem_cons_self

@[simp] lemma subterms_not (c : Condition) (s : Span) :
    (not c s).subterms = not c s :: c.subterms := rfl

@[simp] lemma subterms_and (cs : List Condition) (s : Span) :
    (and cs s).subterms = and cs s :: cs.flatMap subterms :=
  congrArg (and cs s :: ·) (subtermsOf_eq_flatMap cs)

@[simp] lemma subterms_or (cs : List Condition) (s : Span) :
    (or cs s).subterms = or cs s :: cs.flatMap subterms :=
  congrArg (or cs s :: ·) (subtermsOf_eq_flatMap cs)

@[simp] lemma names_ref (name : String) (s : Span) : (ref name s).names = [name] := rfl
@[simp] lemma names_compare (name op : String) (a : Argument) (s : Span) :
    (compare name op a s).names = [name] := rfl
@[simp] lemma names_judge (name question : String) (s : Span) :
    (judge name question s).names = [name] := rfl
@[simp] lemma paths_present (path : String) (s : Span) : (present path s).paths = [path] := rfl

@[simp] lemma names_not (c : Condition) (s : Span) : (not c s).names = c.names := by
  rw [names, subterms_not]
  rfl

@[simp] lemma paths_not (c : Condition) (s : Span) : (not c s).paths = c.paths := by
  rw [paths, subterms_not]
  rfl

@[simp] lemma names_and (cs : List Condition) (s : Span) :
    (and cs s).names = cs.flatMap names := by
  rw [names, subterms_and]
  exact List.filterMap_flatMap

@[simp] lemma paths_and (cs : List Condition) (s : Span) :
    (and cs s).paths = cs.flatMap paths := by
  rw [paths, subterms_and]
  exact List.filterMap_flatMap

@[simp] lemma names_or (cs : List Condition) (s : Span) :
    (or cs s).names = cs.flatMap names := by
  rw [names, subterms_or]
  exact List.filterMap_flatMap

@[simp] lemma paths_or (cs : List Condition) (s : Span) :
    (or cs s).paths = cs.flatMap paths := by
  rw [paths, subterms_or]
  exact List.filterMap_flatMap

end Condition

namespace Node

/-- Induction over a forest: below the first node, and behind it. -/
@[elab_as_elim]
lemma forest_induction {motive : List Node → Prop} (nil : motive [])
    (text : ∀ c s ns, motive ns → motive (.text c s :: ns))
    (slot : ∀ name h d s ns, motive ns → motive (.slot name h d s :: ns))
    (conditional : ∀ c t f s ns, motive t → motive f → motive ns →
      motive (.conditional c t f s :: ns))
    (part : ∀ name cs s ns, motive cs → motive ns → motive (.part name cs s :: ns))
    (imported : ∀ path s ns, motive ns → motive (.imported path s :: ns))
    (included : ∀ path s ns, motive ns → motive (.included path s :: ns))
    (context : ∀ path s ns, motive ns → motive (.context path s :: ns)) : ∀ ns, motive ns
  | [] => nil
  | n :: ns => by
    have rest := forest_induction nil text slot conditional part imported included context ns
    cases n with
    | text c s => exact text c s ns rest
    | slot name h d s => exact slot name h d s ns rest
    | conditional c t f s =>
      exact conditional c t f s ns
        (forest_induction nil text slot conditional part imported included context t)
        (forest_induction nil text slot conditional part imported included context f) rest
    | part name cs s =>
      exact part name cs s ns
        (forest_induction nil text slot conditional part imported included context cs) rest
    | imported path s => exact imported path s ns rest
    | included path s => exact included path s ns rest
    | context path s => exact context path s ns rest
termination_by ns => sizeAll ns
decreasing_by
  · have := sizeAll_children n
    simp only [sizeAll]
    omega
  all_goals
    simp only [sizeAll, size]
    omega

variable {n : Node} {as bs ns : List Node}

/-! ### Walks -/

@[simp] lemma walk_nil : walk [] = [] := by rw [walk]

/-- The top of the stack is visited, and its children take its place. -/
lemma walk_cons_eq (n : Node) (stack : List Node) :
    walk (n :: stack) = n :: walk (n.children ++ stack) := by rw [walk]

/-- Induction over the stacks of a walk. -/
@[elab_as_elim]
lemma walk_induction {motive : List Node → Prop} (nil : motive [])
    (cons : ∀ n stack, motive (n.children ++ stack) → motive (n :: stack)) (ns : List Node) :
    motive ns :=
  walk.induct motive nil cons ns

lemma walk_append (as bs : List Node) : walk (as ++ bs) = walk as ++ walk bs := by
  induction as using walk_induction with
  | nil => simp
  | cons n stack ih =>
    rw [List.cons_append, walk_cons_eq, walk_cons_eq, ← List.append_assoc, ih, List.cons_append]

lemma walk_cons (n : Node) (ns : List Node) :
    walk (n :: ns) = n :: (walk n.children ++ walk ns) := by
  rw [walk_cons_eq, walk_append]

lemma length_walk (ns : List Node) : (walk ns).length = sizeAll ns := by
  induction ns using walk_induction with
  | nil => simp [sizeAll]
  | cons n stack ih =>
    have := sizeAll_children n
    rw [walk_cons_eq, List.length_cons, ih, sizeAll_append, sizeAll]
    omega

/-- What is below a node that is visited is visited. -/
lemma mem_walk_of_mem_children {m : Node} (hn : n ∈ walk ns) (hm : m ∈ walk n.children) :
    m ∈ walk ns := by
  induction ns using walk_induction with
  | nil => simp at hn
  | cons k stack ih =>
    rw [walk_cons_eq] at hn ⊢
    rcases List.mem_cons.mp hn with rfl | hn
    · rw [walk_append]
      exact List.mem_cons_of_mem _ (List.mem_append_left _ hm)
    · exact List.mem_cons_of_mem _ (ih hn)

/-- The walk with a stack is the recursive one. -/
lemma walk_eq_preorderAll (ns : List Node) : walk ns = preorderAll ns := by
  induction ns using forest_induction with
  | nil => rw [walk_nil, preorderAll]
  | conditional c t f s ns iht ihf ih =>
    rw [walk_cons, children, walk_append, iht, ihf, ih, preorderAll, preorder, List.cons_append]
  | part name cs s ns ihc ih =>
    rw [walk_cons, children, ihc, ih, preorderAll, preorder, List.cons_append]
  | _ =>
    rename_i ih
    rw [walk_cons, children, walk_nil, ih, preorderAll, preorder]
    · rfl
    all_goals simp

/-! ### Context paths -/

lemma mem_distinct {names : List String} {x : String} : x ∈ distinct names ↔ x ∈ names := by
  have key (seen : List String) : x ∈ names.foldl
      (fun seen n => if seen.contains n then seen else seen ++ [n]) seen ↔
      x ∈ seen ∨ x ∈ names := by
    induction names generalizing seen with
    | nil => simp
    | cons n names ih =>
      rw [List.foldl_cons, ih, List.mem_cons]
      split
      · rename_i h
        have h : n ∈ seen := by simpa using h
        constructor
        · tauto
        · rintro (hx | rfl | hx)
          · exact .inl hx
          · exact .inl h
          · exact .inr hx
      · rw [List.mem_append, List.mem_singleton]
        tauto
  have := key []
  rwa [List.mem_nil_iff, false_or] at this

/-- No name is listed twice. -/
lemma nodup_distinct (names : List String) : (distinct names).Nodup := by
  suffices key : ∀ seen : List String, seen.Nodup → (names.foldl
      (fun seen n => if seen.contains n then seen else seen ++ [n]) seen).Nodup from
    key [] List.nodup_nil
  induction names with
  | nil => exact fun _ h => h
  | cons n names ih =>
    intro seen h
    rw [List.foldl_cons]
    refine ih _ ?_
    split
    · exact h
    · rename_i hn
      have hn : n ∉ seen := by simpa using hn
      exact List.nodup_append.mpr ⟨h, by simp, fun x hx y hy hxy => hn (by simp_all)⟩

lemma distinct_concat (names : List String) (n : String) :
    distinct (names ++ [n]) =
      if (distinct names).contains n then distinct names else distinct names ++ [n] := by
  rw [distinct, List.foldl_append]
  rfl

/-- Names are in the order in which they come up first. -/
lemma pairwise_distinct (names : List String) :
    (distinct names).Pairwise fun a b => names.idxOf a < names.idxOf b := by
  induction names using List.reverseRecOn with
  | nil => exact .nil
  | append_singleton names n ih =>
    have hsame {a : String} (ha : a ∈ distinct names) :
        (names ++ [n]).idxOf a = names.idxOf a :=
      List.idxOf_append_of_mem (mem_distinct.mp ha)
    have ih : (distinct names).Pairwise fun a b =>
        (names ++ [n]).idxOf a < (names ++ [n]).idxOf b :=
      ih.imp_of_mem fun ha hb h => by rwa [hsame ha, hsame hb]
    rw [distinct_concat]
    split
    · exact ih
    · rename_i hn
      have hn : n ∉ names := by simpa [mem_distinct] using hn
      refine List.pairwise_append.mpr ⟨ih, List.pairwise_singleton _ _, fun a ha b hb => ?_⟩
      obtain rfl := List.mem_singleton.mp hb
      rw [hsame ha, List.idxOf_append_of_notMem hn]
      exact Nat.lt_add_right _ (List.idxOf_lt_length_iff.mpr (mem_distinct.mp ha))

/-- Names that are distinct already stay as they are. -/
lemma distinct_of_nodup {names : List String} (h : names.Nodup) : distinct names = names := by
  suffices key : ∀ seen : List String, (seen ++ names).Nodup → names.foldl
      (fun seen n => if seen.contains n then seen else seen ++ [n]) seen = seen ++ names from
    key [] h
  induction names with
  | nil => simp
  | cons n names ih =>
    intro seen hs
    have hn : n ∉ seen := fun hn => (List.nodup_append.mp hs).2.2 n hn n List.mem_cons_self rfl
    rw [List.foldl_cons, if_neg (by simpa using hn),
      ih (List.nodup_cons.mp h).2 _ (by simpa using hs), List.append_assoc, List.singleton_append]

lemma mem_contextPaths {p : String} :
    p ∈ contextPaths ns ↔ ∃ n ∈ walk ns, p ∈ contextPathsOf n := by
  rw [contextPaths, mem_distinct, List.mem_flatMap]

/-! ### Names in slots -/

/-- The name of a slot. -/
def slotName? : Node → Option String
  | slot name _ _ _ => some name
  | _ => none

/-- The names in the slots of some trees, however deep. -/
def slotNames (ns : List Node) : List String := (walk ns).filterMap slotName?

lemma mem_slotNames {x : String} :
    x ∈ slotNames ns ↔ ∃ n ∈ walk ns, slotName? n = some x := by
  rw [slotNames, List.mem_filterMap]

lemma slotNames_append : slotNames (as ++ bs) = slotNames as ++ slotNames bs := by
  rw [slotNames, slotNames, slotNames, walk_append, List.filterMap_append]

lemma mem_slotNames_cons {x : String} : x ∈ slotNames (n :: ns) ↔
    slotName? n = some x ∨ x ∈ slotNames n.children ∨ x ∈ slotNames ns := by
  simp only [mem_slotNames, walk_cons, List.mem_cons, List.mem_append, or_and_right, exists_or,
    exists_eq_left]

/-! ### Parts -/

def isPart : Node → Bool
  | part .. => true
  | _ => false

/-- Parts are found at nodes that are visited, and each at a node of its own. -/
lemma partsFrom_spec (found : List (String × List Node)) (ns : List Node) :
    (∀ name cs, (name, cs) ∈ partsFrom found ns →
      (name, cs) ∈ found ∨ ∃ s, part name cs s ∈ ns) ∧
    (partsFrom found ns).length ≤ found.length + ns.countP isPart := by
  induction ns generalizing found with
  | nil => exact ⟨fun name cs h => .inl h, by simp [partsFrom]⟩
  | cons n ns ih =>
    cases n with
    | part name children span =>
      rw [partsFrom]
      obtain ⟨hmem, hlen⟩ := ih (if found.any (·.1 == name) then
        found.map fun e => if e.1 == name then (name, children) else e
        else found ++ [(name, children)])
      constructor
      · intro x cs h
        rcases hmem x cs h with h | ⟨s, h⟩
        · split at h
          · obtain ⟨e, he, heq⟩ := List.mem_map.mp h
            split at heq
            · obtain ⟨rfl, rfl⟩ := Prod.mk.inj heq
              exact .inr ⟨span, by simp⟩
            · exact .inl (heq ▸ he)
          · rcases List.mem_append.mp h with h | h
            · exact .inl h
            · obtain ⟨rfl, rfl⟩ := Prod.mk.inj (List.mem_singleton.mp h)
              exact .inr ⟨span, by simp⟩
        · exact .inr ⟨s, List.mem_cons_of_mem _ h⟩
      · have hcount : (part name children span :: ns).countP isPart = ns.countP isPart + 1 :=
          List.countP_cons_of_pos rfl
        have hadd : (if found.any (·.1 == name) then
            found.map fun e => if e.1 == name then (name, children) else e
            else found ++ [(name, children)]).length ≤ found.length + 1 := by
          split <;> simp
        omega
    | _ =>
      rw [partsFrom.eq_def]
      obtain ⟨hmem, hlen⟩ := ih found
      refine ⟨fun x cs h => ?_, ?_⟩
      · rcases hmem x cs h with h | ⟨s, h⟩
        · exact .inl h
        · exact .inr ⟨s, List.mem_cons_of_mem _ h⟩
      · simpa [isPart] using hlen

lemma mem_parts {name : String} {cs : List Node} (h : (name, cs) ∈ parts ns) :
    ∃ s, part name cs s ∈ walk ns := by
  rcases (partsFrom_spec [] (walk ns)).1 name cs h with h | h
  · simp at h
  · exact h

/-- The part that a node defines. -/
def part? : Node → Option (String × List Node)
  | part name children _ => some (name, children)
  | _ => none

/-- The parts that some trees define, in order, as often as they are defined. -/
def definitions (ns : List Node) : List (String × List Node) := (walk ns).filterMap part?

/-- A definition put among those found: in the place of the name's first. -/
def define (found : List (String × List Node)) (d : String × List Node) :
    List (String × List Node) :=
  if found.any (·.1 == d.1) then found.map fun e => if e.1 == d.1 then d else e
  else found ++ [d]

/-- The parts of trees depend on what these define only. -/
lemma parts_eq_foldl (ns : List Node) : parts ns = (definitions ns).foldl define [] := by
  rw [parts, definitions]
  generalize ([] : List (String × List Node)) = found
  induction walk ns generalizing found with
  | nil => rfl
  | cons n ns ih => cases n <;> exact ih _

lemma definitions_append : definitions (as ++ bs) = definitions as ++ definitions bs := by
  rw [definitions, walk_append, List.filterMap_append]
  rfl

lemma length_parts_le (ns : List Node) : (parts ns).length ≤ (walk ns).countP isPart := by
  have := (partsFrom_spec [] (walk ns)).2
  simpa [parts] using this

end Node

end Stencil
