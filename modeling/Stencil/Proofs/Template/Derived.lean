import Stencil.Proofs.Template.Forest
import Stencil.Proofs.Template.Language

/-!
What a source says about the tree that is read from it: its slots are named by keys, and it has
no more parts than the source has characters.

Both are read off derivations and carried over to what the parser reads without a fault.
-/

namespace Stencil

namespace Node

variable {n : Node} {as bs ns : List Node}

/-! ### Trees without places -/

lemma unplacedAll_append (as bs : List Node) :
    unplacedAll (as ++ bs) = unplacedAll as ++ unplacedAll bs := by
  induction as with
  | nil => rfl
  | cons n as ih => rw [List.cons_append, unplacedAll, unplacedAll, ih, List.cons_append]

lemma children_unplaced (n : Node) : n.unplaced.children = unplacedAll n.children := by
  cases n with
  | conditional c t f s => rw [unplaced, children, children, unplacedAll_append]
  | _ => rfl

lemma walk_unplacedAll (ns : List Node) : walk (unplacedAll ns) = (walk ns).map unplaced := by
  induction ns using walk_induction with
  | nil => simp [unplacedAll]
  | cons n stack ih =>
    rw [unplacedAll, walk_cons_eq, walk_cons_eq, children_unplaced, ← unplacedAll_append, ih,
      List.map_cons]

lemma slotNames_unplacedAll (ns : List Node) : slotNames (unplacedAll ns) = slotNames ns := by
  have h : slotName? ∘ unplaced = slotName? := by
    funext n
    cases n <;> rfl
  rw [slotNames, walk_unplacedAll, List.filterMap_map, h, slotNames]

lemma countP_isPart_unplacedAll (ns : List Node) :
    (walk (unplacedAll ns)).countP isPart = (walk ns).countP isPart := by
  have h : isPart ∘ unplaced = isPart := by
    funext n
    cases n <;> rfl
  rw [walk_unplacedAll, List.countP_map, h]

end Node

namespace Template

open Grammar Source

/-! ### Names in slots -/

mutual

/-- Where names stand first in slots, slots have these names. -/
lemma Grammar.OneNode.named : ∀ {ts : List Token} {n : Node}, OneNode ts n →
    ts.IsChain NamesSlot → ∀ x ∈ Node.slotNames [n], IsName x
  | _, _, .text _, _ => by simp [Node.slotNames, Node.walk_cons, Node.children, Node.slotName?]
  | _, _, .slot ho hn _ _ _, h => by
    intro x hx
    obtain rfl := by
      simpa [Node.slotNames, Node.walk_cons, Node.children, Node.slotName?] using hx
    exact (List.isChain_cons_cons.mp h).1 ho hn
  | _, _, .context _, _ => by simp [Node.slotNames, Node.walk_cons, Node.children, Node.slotName?]
  | _, _, .imported .., _ => by
    simp [Node.slotNames, Node.walk_cons, Node.children, Node.slotName?]
  | _, _, .included .., _ => by
    simp [Node.slotNames, Node.walk_cons, Node.children, Node.slotName?]
  | _, _, .part _ hb _, h => by
    intro x hx
    rcases Node.mem_slotNames_cons.mp hx with hx | hx | hx
    · cases hx
    · exact hb.named h.right_of_append.left_of_append x hx
    · simp [Node.slotNames] at hx
  | _, _, .conditional _ hb he _, h => by
    intro x hx
    rcases Node.mem_slotNames_cons.mp hx with hx | hx | hx
    · cases hx
    · rw [Node.children, Node.slotNames_append, List.mem_append] at hx
      rcases hx with hx | hx
      · exact hb.named h.right_of_append.left_of_append x hx
      · exact he.named h.right_of_append.right_of_append.left_of_append x hx
    · simp [Node.slotNames] at hx

lemma Grammar.Nodes.named : ∀ {ts : List Token} {ns : List Node}, Nodes ts ns →
    ts.IsChain NamesSlot → ∀ x ∈ Node.slotNames ns, IsName x
  | _, _, .nil, _ => by simp [Node.slotNames]
  | _, _, .cons hn hs, h => by
    intro x hx
    rw [← List.singleton_append, Node.slotNames_append, List.mem_append] at hx
    rcases hx with hx | hx
    · exact hn.named h.left_of_append x hx
    · exact hs.named h.right_of_append x hx

lemma Grammar.Else.named : ∀ {ts : List Token} {ns : List Node}, Else ts ns →
    ts.IsChain NamesSlot → ∀ x ∈ Node.slotNames ns, IsName x
  | _, _, .absent, _ => by simp [Node.slotNames]
  | _, _, .otherwise _ hb, h => hb.named h.tail
  | _, _, .elseIf _ hb he, h => by
    intro x hx
    rcases Node.mem_slotNames_cons.mp hx with hx | hx | hx
    · cases hx
    · rw [Node.children, Node.slotNames_append, List.mem_append] at hx
      rcases hx with hx | hx
      · exact hb.named h.right_of_append.left_of_append x hx
      · exact he.named h.right_of_append.right_of_append x hx
    · simp [Node.slotNames] at hx

end

/-! ### Parts -/

def isDirective (t : Token) : Bool := t.kind == .directive

lemma Grammar.PartHead.directive {ts : List Token} {name : String} (h : PartHead ts name) :
    0 < ts.countP isDirective := by
  cases h with
  | plain hd => simp [isDirective, hd.1]
  | keyed hd => simp [isDirective, hd.1]

mutual

/-- Every part has a directive of its own. -/
lemma Grammar.OneNode.parts_le : ∀ {ts : List Token} {n : Node}, OneNode ts n →
    (Node.walk [n]).countP Node.isPart ≤ ts.countP isDirective
  | _, _, .text _ => by simp [Node.walk_cons, Node.children, Node.isPart]
  | _, _, .slot .. => by simp [Node.walk_cons, Node.children, Node.isPart]
  | _, _, .context _ => by simp [Node.walk_cons, Node.children, Node.isPart]
  | _, _, .imported .. => by simp [Node.walk_cons, Node.children, Node.isPart]
  | _, _, .included .. => by simp [Node.walk_cons, Node.children, Node.isPart]
  | _, _, .part hh hb _ => by
    have hbody := hb.parts_le
    have hhead := hh.directive
    simp only [Node.walk_cons, Node.children, Node.walk_nil, List.append_nil, List.countP_cons,
      List.countP_append, Node.isPart, if_true]
    omega
  | _, _, .conditional _ hb he _ => by
    have hbody := hb.parts_le
    have helse := he.parts_le
    simp only [Node.walk_cons, Node.children, Node.walk_append, Node.walk_nil, List.append_nil,
      List.countP_cons, List.countP_append, Node.isPart] at *
    simp
    omega

lemma Grammar.Nodes.parts_le : ∀ {ts : List Token} {ns : List Node}, Nodes ts ns →
    (Node.walk ns).countP Node.isPart ≤ ts.countP isDirective
  | _, _, .nil => by simp
  | _, _, .cons hn hs => by
    have hfirst := hn.parts_le
    have hrest := hs.parts_le
    rw [← List.singleton_append, Node.walk_append, List.countP_append, List.countP_append]
    omega

lemma Grammar.Else.parts_le : ∀ {ts : List Token} {ns : List Node}, Else ts ns →
    (Node.walk ns).countP Node.isPart ≤ ts.countP isDirective
  | _, _, .absent => by simp
  | _, _, .otherwise _ hb => by
    have hbody := hb.parts_le
    rw [List.countP_cons]
    omega
  | _, _, .elseIf _ hb he => by
    have hbody := hb.parts_le
    have helse := he.parts_le
    simp only [Node.walk_cons, Node.children, Node.walk_append, Node.walk_nil, List.append_nil,
      List.countP_cons, List.countP_append, Node.isPart] at *
    simp
    omega

end

/-! ### Sources -/

/-- The slots of a template that is read without a fault are named by keys. -/
lemma slotNames_parse {source : String} (h : (parse source).success = true) :
    ∀ x ∈ Node.slotNames (parse source).document.children, IsName x := by
  have hd := derives_of_parse h
  have hc := tokenize_namesSlot source
  generalize tokenize source = tokens at hd hc
  obtain ⟨hns, -⟩ := hd
  rw [← Node.slotNames_unplacedAll]
  exact hns.named hc.left_of_append

/-- A template that is read without a fault has no more parts than its source has characters. -/
lemma length_parts_parse {source : String} (h : (parse source).success = true) :
    (Node.parts (parse source).document.children).length ≤ source.length := by
  have hd := derives_of_parse h
  have hc := countP_directive_tokenize source
  generalize tokenize source = tokens at hd hc
  obtain ⟨hns, -⟩ := hd
  have hparts := hns.parts_le
  rw [List.countP_append] at hc
  rw [Node.countP_isPart_unplacedAll] at hparts
  have := Node.length_parts_le (parse source).document.children
  change List.countP isDirective _ + _ ≤ _ at hc
  omega

end Template

end Stencil
