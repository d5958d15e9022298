import Stencil.Render
import Stencil.Proofs.Context.Binding

/-!
Rendered texts: nodes one after another, where rendering fails, and what a run from source to text
comes to.
-/

namespace Stencil

lemma Except.bind_eq_ok {ε α β : Type} {x : Except ε α} {f : α → Except ε β} {b : β} :
    x >>= f = .ok b ↔ ∃ a, x = .ok a ∧ f a = .ok b := by
  cases x with
  | error e =>
    constructor
    · intro h
      cases h
    · rintro ⟨_, h, _⟩
      cases h
  | ok a =>
    constructor
    · exact fun h => ⟨a, rfl, h⟩
    · rintro ⟨_, h, hf⟩
      cases h
      exact hf

lemma Except.bind_eq_error {ε α β : Type} {x : Except ε α} {f : α → Except ε β} {e : ε} :
    x >>= f = .error e ↔ x = .error e ∨ ∃ a, x = .ok a ∧ f a = .error e := by
  cases x with
  | error e' =>
    refine ⟨fun h => .inl ?_, fun h => ?_⟩
    · cases h
      rfl
    · rcases h with h | ⟨_, h, _⟩
      · cases h
        rfl
      · cases h
  | ok a =>
    refine ⟨fun h => .inr ⟨a, rfl, h⟩, fun h => ?_⟩
    rcases h with h | ⟨_, h, hf⟩
    · cases h
    · cases h
      exact hf

namespace Node

mutual

/-- The nodes of some trees, with parts replaced by what is in them. -/
def leavesOf : Node → List Node
  | part _ cs _ => leaves cs
  | n => [n]

def leaves : List Node → List Node
  | [] => []
  | n :: ns => leavesOf n ++ leaves ns

end

lemma leaves_part (name : String) (cs : List Node) (span : Span) (ns : List Node) :
    leaves (part name cs span :: ns) = leaves cs ++ leaves ns := rfl

lemma leaves_cons_of_isPart_eq_false {n : Node} (h : isPart n = false) (ns : List Node) :
    leaves (n :: ns) = n :: leaves ns := by
  cases n with
  | part => cases h
  | _ => rfl

lemma ne_part_of_mem_leaves {n : Node} {ns : List Node} (h : n ∈ leaves ns) (name : String)
    (cs : List Node) (span : Span) : n ≠ part name cs span := by
  induction ns using forest_induction with
  | nil => exact absurd h List.not_mem_nil
  | part _ _ _ ns ihc ih =>
    rw [leaves_part, List.mem_append] at h
    exact h.elim ihc ih
  | text _ _ ns ih | slot _ _ _ _ ns ih | conditional _ _ _ _ ns _ _ ih | imported _ _ ns ih
  | included _ _ ns ih | context _ _ ns ih =>
    rw [leaves_cons_of_isPart_eq_false rfl, List.mem_cons] at h
    rcases h with rfl | h
    · simp
    · exact ih h

lemma mem_walk_of_mem_leaves {n : Node} {ns : List Node} (h : n ∈ leaves ns) : n ∈ walk ns := by
  induction ns using forest_induction with
  | nil => exact absurd h List.not_mem_nil
  | part name cs span ns ihc ih =>
    rw [leaves_part, List.mem_append] at h
    rw [walk_cons, List.mem_cons, List.mem_append]
    exact .inr (h.imp ihc ih)
  | text _ _ ns ih | slot _ _ _ _ ns ih | conditional _ _ _ _ ns _ _ ih | imported _ _ ns ih
  | included _ _ ns ih | context _ _ ns ih =>
    rw [leaves_cons_of_isPart_eq_false rfl, List.mem_cons] at h
    rw [walk_cons, List.mem_cons, List.mem_append]
    exact h.imp id fun h => .inr (ih h)

end Node

namespace Render

variable {p q : Policy} {b : Bindings} {n : Node} {as bs ns : List Node} {text : String}

lemma nodes_cons (n : Node) (ns : List Node) : nodes p b (n :: ns) = do
    return (← node p b n) ++ (← nodes p b ns) := rfl

lemma nodes_cons_eq_ok : nodes p b (n :: ns) = .ok text ↔
    ∃ x y, node p b n = .ok x ∧ nodes p b ns = .ok y ∧ x ++ y = text := by
  rw [nodes_cons, Except.bind_eq_ok]
  constructor
  · rintro ⟨x, hx, h⟩
    obtain ⟨y, hy, h⟩ := Except.bind_eq_ok.mp h
    exact ⟨x, y, hx, hy, Except.ok.inj h⟩
  · rintro ⟨x, y, hx, hy, rfl⟩
    exact ⟨x, hx, Except.bind_eq_ok.mpr ⟨y, hy, rfl⟩⟩

lemma nodes_singleton (n : Node) : nodes p b [n] = node p b n := by
  rw [nodes_cons]
  rcases node p b n with f | x
  · rfl
  · exact congrArg Except.ok (String.append_empty)

/-- Nodes one behind the other are rendered to texts one behind the other. -/
lemma nodes_append (as bs : List Node) : nodes p b (as ++ bs) = do
    return (← nodes p b as) ++ (← nodes p b bs) := by
  induction as with
  | nil =>
    rw [List.nil_append, nodes]
    rcases nodes p b bs with f | y
    · rfl
    · simp
      rfl
  | cons n ns ih =>
    rw [List.cons_append, nodes_cons, nodes_cons, ih]
    rcases node p b n with f | x
    · rfl
    rcases nodes p b ns with f | y
    · rfl
    rcases nodes p b bs with f | z
    · rfl
    · exact congrArg Except.ok (String.append_assoc ..).symm

/-! ### Parts and faults -/

/-- Parts leave no trace in a text. -/
lemma nodes_leaves (ns : List Node) : nodes p b (Node.leaves ns) = nodes p b ns := by
  induction ns using Node.forest_induction with
  | nil => rfl
  | part name cs span ns ihc ih =>
    rw [Node.leaves_part, nodes_append, ihc, ih, nodes_cons, node]
  | text _ _ ns ih | slot _ _ _ _ ns ih | conditional _ _ _ _ ns _ _ ih | imported _ _ ns ih
  | included _ _ ns ih | context _ _ ns ih =>
    rw [Node.leaves_cons_of_isPart_eq_false rfl, nodes_cons, nodes_cons, ih]

/-- Rendering fails at the first node that cannot be rendered, and as it does. -/
lemma nodes_error_iff {f : Failure} : nodes p b ns = .error f ↔
    ∃ before n behind text, ns = before ++ n :: behind ∧ nodes p b before = .ok text ∧
      node p b n = .error f := by
  induction ns with
  | nil => simp [nodes]
  | cons n ns ih =>
    rw [nodes_cons, Except.bind_eq_error]
    constructor
    · rintro (h | ⟨x, hx, h⟩)
      · exact ⟨[], n, ns, "", rfl, rfl, h⟩
      · rcases Except.bind_eq_error.mp h with h | ⟨y, -, h⟩
        · obtain ⟨before, m, behind, text, rfl, htext, hm⟩ := ih.mp h
          exact ⟨n :: before, m, behind, x ++ text, rfl,
            nodes_cons_eq_ok.mpr ⟨x, text, hx, htext, rfl⟩, hm⟩
        · cases h
    · rintro ⟨before, m, behind, text, hns, htext, hm⟩
      rcases before with _ | ⟨k, before⟩
      · obtain ⟨rfl, rfl⟩ := List.cons.inj hns
        exact .inl hm
      · obtain ⟨rfl, rfl⟩ := List.cons.inj hns
        obtain ⟨x, y, hx, hy, -⟩ := nodes_cons_eq_ok.mp htext
        refine .inr ⟨x, hx, Except.bind_eq_error.mpr (.inl ?_)⟩
        exact ih.mpr ⟨before, m, behind, y, rfl, hy, hm⟩

/-! ### Strictness -/

lemma slot_of_strict (hp : p.strict = true) {name : String} {h : Option Hint} {d : Option String}
    (hs : slot p b name h d = .ok text) : slot q b name h d = .ok text := by
  unfold slot at hs ⊢
  obtain ⟨v, hv, hs⟩ := Except.bind_eq_ok.mp hs
  refine Except.bind_eq_ok.mpr ⟨v, hv, ?_⟩
  rcases v with _ | v
  · rcases d with _ | d
    · simp [Policy.raisesOnMissing, hp, fail] at hs
    · exact hs
  · exact hs

lemma context_of_strict (hp : p.strict = true) {path : String}
    (hs : context p b path = .ok text) : context q b path = .ok text := by
  have habsent (reason : String) : context.absent p path reason ≠ .ok text := by
    simp [context.absent, hp, fail]
  unfold context at hs ⊢
  rcases hb : Context.bound? b path with _ | r <;> simp only [hb] at hs ⊢
  · exact absurd hs (habsent _)
  · split at hs
    · exact hs
    · exact absurd hs (habsent _)

/-- A text that is rendered strictly is rendered under any policy. -/
lemma nodes_of_strict (hp : p.strict = true) (h : nodes p b ns = .ok text) :
    nodes q b ns = .ok text := by
  induction ns using Node.forest_induction generalizing text with
  | nil => exact h
  | text c span ns ih =>
    obtain ⟨x, y, hx, hy, rfl⟩ := nodes_cons_eq_ok.mp h
    exact nodes_cons_eq_ok.mpr ⟨x, y, hx, ih hy, rfl⟩
  | slot name hint d span ns ih =>
    obtain ⟨x, y, hx, hy, rfl⟩ := nodes_cons_eq_ok.mp h
    exact nodes_cons_eq_ok.mpr ⟨x, y, slot_of_strict hp hx, ih hy, rfl⟩
  | part name cs span ns ihc ih =>
    obtain ⟨x, y, hx, hy, rfl⟩ := nodes_cons_eq_ok.mp h
    exact nodes_cons_eq_ok.mpr ⟨x, y, ihc hx, ih hy, rfl⟩
  | context path span ns ih =>
    obtain ⟨x, y, hx, hy, rfl⟩ := nodes_cons_eq_ok.mp h
    exact nodes_cons_eq_ok.mpr ⟨x, y, context_of_strict hp hx, ih hy, rfl⟩
  | conditional c t f span ns _ _ _ =>
    obtain ⟨x, y, hx, -⟩ := nodes_cons_eq_ok.mp h
    cases hx
  | imported path span ns _ =>
    obtain ⟨x, y, hx, -⟩ := nodes_cons_eq_ok.mp h
    simp [node, hp, fail] at hx
  | included path span ns _ =>
    obtain ⟨x, y, hx, -⟩ := nodes_cons_eq_ok.mp h
    simp [node, hp, fail] at hx

end Render

/-! ### Runs from source to text -/

variable {σ : Type} {e : Evaluation.Setup σ} {p : Render.Policy} {f : Render.Finish}
  {origin : Option String} {source : String} {b : Bindings} {w : σ} {ns : List Node}

lemma render_plain (p : Render.Policy) (b : Bindings) (ns : List Node) :
    render p {} b ns = Render.nodes p b ns := by
  unfold render
  rcases Render.nodes p b ns with f | text <;> rfl

/-- What is done to a text in the end cannot fail. -/
lemma render_error_iff {fault : Failure} :
    render p f b ns = .error fault ↔ Render.nodes p b ns = .error fault := by
  unfold render
  rcases Render.nodes p b ns with fault | text
  · rfl
  · constructor <;> rintro ⟨⟩

lemma renderTemplate_of_faulty (h : (parse source).success = false) :
    renderTemplate e p f origin source b w =
      (.error (.error (.malformed none source (parse source).errors)), w) := by
  unfold renderTemplate
  simp only [h]
  rfl

lemma renderTemplate_of_success (h : (parse source).success = true) :
    renderTemplate e p f origin source b w =
      match evaluate e origin (parse source).document b w with
      | (.error failure, w') => (.error failure, w')
      | (.ok r, w') => (render p f r.bindings r.document.children, w') := by
  unfold renderTemplate
  simp only [h, Bool.not_true, Bool.false_eq_true, if_false]
  rw [StateM.bind_apply]
  rcases evaluate e origin (parse source).document b w with ⟨_ | r, w'⟩ <;> rfl

end Stencil
