import Stencil.Proofs.Yaml.Tokens

/-!
The tree of nodes that the tokens of written values stand for.

The parser takes what belongs to a node and leaves what follows (`Makes`), wherever the node stands
and with fuel in proportion to its tokens (`MakesNode`). A collection makes its node if its items
do, so a value does by induction on it (`makesNode_tokens`).
-/

namespace Stencil.Yaml

open Number

/-- The tag of bytes. -/
def binaryTag : String := "tag:yaml.org,2002:binary"

mutual

/-- The node of a value. -/
def nodeOf : Value → Node
  | .null => .scalar (.unmarked true) "null"
  | .bool b => .scalar (.unmarked true) (if b then "true" else "false")
  | .int n => .scalar (.unmarked true) (intText n)
  | .float x => .scalar (.unmarked true) (doubleText x)
  | .text t => .scalar (.unmarked false) (rereadText t)
  | .bytes bs => .scalar (.named binaryTag) (String.ofList (base64 bs))
  | .date d => .scalar (.unmarked true) d.text
  | .moment m => .scalar (.unmarked true) m.text
  | .list vs => .sequence (.unmarked true) (itemNodes vs)
  | .tuple vs => .sequence (.unmarked true) (itemNodes vs)
  | .dict es => .mapping (.unmarked true) (entryNodes es)
  | .context _ => .empty

def itemNodes : List Value → List Node
  | [] => []
  | v :: vs => nodeOf v :: itemNodes vs

def entryNodes : List (Value × Value) → List (Node × Node)
  | [] => []
  | (k, v) :: es => (nodeOf k, nodeOf v) :: entryNodes es

end

namespace Compose

variable {α β : Type} {t u : Token} {us vs rest : List Token} {n : ℕ}
  {handles : List (String × String)} {anchors : List (String × Option Node)}

/-! ### Single actions -/

lemma run_bind (x : Compose α) (f : α → Compose β) (c : Composer) :
    (x >>= f).run c = (x.run c).bind fun r => (f r.1).run r.2 := rfl

lemma run_pure (a : α) (c : Composer) : (pure a : Compose α).run c = .ok (a, c) := rfl

lemma run_peek : peek.run ⟨t :: rest, handles, anchors⟩ = .ok (t, ⟨t :: rest, handles, anchors⟩) :=
  rfl

lemma run_drop : drop.run ⟨t :: rest, handles, anchors⟩ = .ok ((), ⟨rest, handles, anchors⟩) := rfl

lemma run_sees (ts : List Token) : (sees ts).run ⟨t :: rest, handles, anchors⟩ =
    .ok (ts.contains t, ⟨t :: rest, handles, anchors⟩) := rfl

lemma run_accept : (accept t).run ⟨t :: rest, handles, anchors⟩ =
    .ok (true, ⟨rest, handles, anchors⟩) := by
  unfold accept
  rw [run_bind, run_sees]
  simp only [Except.bind, List.contains_cons, beq_self_eq_true, Bool.true_or, if_true]
  rfl

lemma run_accept_of_ne (h : u ≠ t) : (accept t).run ⟨u :: rest, handles, anchors⟩ =
    .ok (false, ⟨u :: rest, handles, anchors⟩) := by
  unfold accept
  rw [run_bind, run_sees]
  simp only [Except.bind, List.contains_cons, List.contains_nil, beq_eq_false_iff_ne.mpr h]
  rfl

/-! ### Nodes -/

/-- The tokens make something, and what follows them is left. -/
def Makes (x : Compose α) (us : List Token) (a : α) : Prop :=
  ∀ rest anchors, x.run ⟨us ++ rest, standardHandles, anchors⟩ =
    .ok (a, ⟨rest, standardHandles, anchors⟩)

/-- What a node without marks begins with. -/
def isUnmarked : Token → Bool
  | .alias_ _ | .anchor _ | .tag _ => false
  | _ => true

/-- A node without marks is what stands there. -/
lemma run_node (ht : isUnmarked t = true) (isBlock level : Bool) (n : ℕ) :
    (node isBlock level (n + 1)).run ⟨t :: rest, handles, anchors⟩ =
      (body isBlock level none none n).run ⟨t :: rest, handles, anchors⟩ := by
  have hmarks : marks.run ⟨t :: rest, handles, anchors⟩ =
      .ok ((none, none), ⟨t :: rest, handles, anchors⟩) := by
    unfold marks
    rw [run_bind, run_peek]
    cases t <;> first | rfl | cases ht
  have hgo : (do
      let x ← marks
      openAnchor x.1
      let found ← body isBlock level x.1 x.2 n
      closeAnchor x.1 found
      return found : Compose Node).run ⟨t :: rest, handles, anchors⟩ =
        (body isBlock level none none n).run ⟨t :: rest, handles, anchors⟩ := by
    rw [run_bind, hmarks]
    show ((body isBlock level none none n).run _).bind (fun r => .ok (r.1, r.2)) = _
    cases (body isBlock level none none n).run _ <;> rfl
  rw [node, run_bind, run_peek]
  cases t <;> first | exact hgo | cases ht

lemma makes_scalar (isBlock level : Bool) (text : String) (plain : Bool) (n : ℕ) :
    Makes (node isBlock level (n + 2)) [.scalar text plain] (.scalar (.unmarked plain) text) := by
  intro rest anchors
  rw [List.singleton_append, run_node rfl, body]
  rfl

lemma makes_binary (isBlock level : Bool) (text : String) (n : ℕ) :
    Makes (node isBlock level (n + 2)) [.tag Scan.binaryMark, .scalar text false]
      (.scalar (.named binaryTag) text) := by
  intro rest anchors
  rw [node]
  rfl

/-! ### Brackets -/

/-- What a value in brackets begins with. -/
def opensNode : Token → Bool
  | .scalar .. | .tag _ | .flowSequenceStart | .flowMappingStart => true
  | _ => false

lemma ne_of_opensNode (h : opensNode t = true) (hu : opensNode u = false) : t ≠ u := by
  rintro rfl
  exact Bool.false_ne_true (hu.symm.trans h)

/-- The tokens make a node wherever it stands. The fuel is in proportion to their number: a node
takes two steps, and one among others in brackets two more at most. -/
structure MakesNode (us : List Token) (a : Node) : Prop where
  opens : ∃ t vs, us = t :: vs ∧ opensNode t = true
  makes : ∀ {isBlock level n}, 4 * us.length ≤ n + 2 → Makes (node isBlock level n) us a

/-- What stands in front of an item. -/
def commaUnless (first : Bool) : List Token := if first then [] else [.flowEntry]

/-- A sequence in brackets goes on with an item. -/
lemma makes_flowItems_cons (first : Bool) {a : Node} {as : List Node} (hitem : MakesNode us a)
    (hn : 4 * us.length ≤ n + 2) (hrest : Makes (flowItems false n) vs as) :
    Makes (flowItems first (n + 1)) (commaUnless first ++ us ++ vs) (a :: as) := by
  intro rest anchors
  have hgo : (do
      let item ← node false false n
      return item :: (← flowItems false n) : Compose (List Node)).run
        ⟨us ++ (vs ++ rest), standardHandles, anchors⟩ =
          .ok (a :: as, ⟨rest, standardHandles, anchors⟩) := by
    rw [run_bind, hitem.makes hn]
    simp only [Except.bind]
    rw [run_bind, hrest]
    rfl
  obtain ⟨t, us, rfl, ht⟩ := hitem.opens
  have hkey : t ≠ .key := ne_of_opensNode ht rfl
  have hend : t ≠ .flowSequenceEnd := ne_of_opensNode ht rfl
  rw [flowItems, List.append_assoc, List.append_assoc, List.cons_append]
  cases first with
  | true =>
    rw [run_bind, commaUnless, if_pos rfl, List.nil_append, run_accept_of_ne hend]
    simp only [Except.bind, Bool.false_eq_true, if_false, Bool.not_true]
    rw [run_bind, run_accept_of_ne hkey]
    simp only [Except.bind, Bool.false_eq_true, if_false]
    rw [run_bind, run_accept_of_ne hend]
    exact hgo
  | false =>
    rw [run_bind, commaUnless, if_neg Bool.false_ne_true, List.singleton_append,
      run_accept_of_ne (by simp)]
    simp only [Except.bind, Bool.false_eq_true, if_false, Bool.not_false, if_true]
    rw [run_bind, run_accept]
    simp only [Except.bind, Bool.false_eq_true, if_false, Bool.not_true]
    rw [run_bind, run_accept_of_ne hkey]
    simp only [Except.bind, Bool.false_eq_true, if_false]
    rw [run_bind, run_accept_of_ne hend]
    exact hgo

/-- A sequence in brackets ends. -/
lemma makes_flowItems_nil (first : Bool) (n : ℕ) :
    Makes (flowItems first (n + 1)) [.flowSequenceEnd] [] := by
  intro rest anchors
  rw [flowItems, run_bind, List.singleton_append, run_accept]
  rfl

/-- A node unless a token follows that no node begins with. -/
lemma makes_nodeUnless {ends : List Token} (hends : ∀ u ∈ ends, opensNode u = false)
    (isBlock level : Bool) {a : Node} (hnode : MakesNode us a) (hn : 4 * us.length ≤ n + 2) :
    Makes (nodeUnless ends isBlock level (n + 1)) us a := by
  intro rest anchors
  obtain ⟨t, vs, rfl, ht⟩ := hnode.opens
  have hnone : ends.contains t = false := by
    rw [List.contains_eq_any_beq, List.any_eq_false]
    intro u hu
    simpa using ne_of_opensNode ht (hends u hu)
  rw [nodeUnless, run_bind, List.cons_append, run_sees, hnone]
  exact hnode.makes hn rest anchors

/-- The value behind a key's colon. -/
lemma makes_valueUnless {ends : List Token} (hends : ∀ u ∈ ends, opensNode u = false)
    (isBlock level : Bool) {a : Node} (hnode : MakesNode us a) (hn : 4 * us.length ≤ n + 2) :
    Makes (valueUnless ends isBlock level (n + 2)) (.value :: us) a := by
  intro rest anchors
  rw [valueUnless, run_bind, List.cons_append, run_accept]
  exact makes_nodeUnless hends isBlock level hnode hn rest anchors

/-- A mapping in brackets goes on with an entry. -/
lemma makes_flowEntries_cons (first : Bool) {kus vus : List Token} {k v : Node}
    {as : List (Node × Node)} (hkey : MakesNode kus k) (hvalue : MakesNode vus v)
    (hkeyFuel : 4 * kus.length ≤ n + 3) (hvalueFuel : 4 * vus.length ≤ n + 2)
    (hrest : Makes (flowEntries false (n + 2)) vs as) :
    Makes (flowEntries first (n + 3))
      (commaUnless first ++ .key :: (kus ++ .value :: vus) ++ vs) ((k, v) :: as) := by
  intro rest anchors
  have hends : ∀ u ∈ [Token.flowEntry, .flowMappingEnd], opensNode u = false := by decide
  have hgo : (do
      let key ← nodeUnless [.value, .flowEntry, .flowMappingEnd] false false (n + 2)
      let value ← valueUnless [.flowEntry, .flowMappingEnd] false false (n + 2)
      return (key, value) :: (← flowEntries false (n + 2)) : Compose (List (Node × Node))).run
        ⟨kus ++ .value :: (vus ++ (vs ++ rest)), standardHandles, anchors⟩ =
          .ok ((k, v) :: as, ⟨rest, standardHandles, anchors⟩) := by
    rw [run_bind,
      makes_nodeUnless (List.forall_mem_cons.mpr ⟨rfl, hends⟩) false false hkey hkeyFuel]
    simp only [Except.bind]
    rw [run_bind, ← List.cons_append, makes_valueUnless hends false false hvalue hvalueFuel]
    simp only [Except.bind]
    rw [run_bind, hrest]
    rfl
  rw [flowEntries, List.append_assoc, List.append_assoc, List.cons_append, List.append_assoc,
    List.cons_append]
  cases first with
  | true =>
    rw [run_bind, commaUnless, if_pos rfl, List.nil_append, run_accept_of_ne (by simp)]
    simp only [Except.bind, Bool.false_eq_true, if_false, Bool.not_true]
    rw [run_bind, run_accept]
    exact hgo
  | false =>
    rw [run_bind, commaUnless, if_neg Bool.false_ne_true, List.singleton_append,
      run_accept_of_ne (by simp)]
    simp only [Except.bind, Bool.false_eq_true, if_false, Bool.not_false, if_true]
    rw [run_bind, run_accept]
    simp only [Except.bind, Bool.false_eq_true, if_false, Bool.not_true]
    rw [run_bind, run_accept]
    exact hgo

/-- A mapping in brackets ends. -/
lemma makes_flowEntries_nil (first : Bool) (n : ℕ) :
    Makes (flowEntries first (n + 1)) [.flowMappingEnd] [] := by
  intro rest anchors
  rw [flowEntries, run_bind, List.singleton_append, run_accept]
  rfl

/-! ### Collections -/

/-- What stands between brackets, with a comma in front of all items but the first one. -/
def separated (first : Bool) : List (List Token) → List Token
  | [] => []
  | us :: uss => commaUnless first ++ us ++ separated false uss

lemma separated_false (uss : List (List Token)) :
    separated false uss = uss.flatMap (.flowEntry :: ·) := by
  induction uss with
  | nil => rfl
  | cons us uss ih => rw [separated, ih, List.flatMap_cons]; rfl

lemma separated_true (uss : List (List Token)) :
    separated true uss = [Token.flowEntry].intercalate uss := by
  cases uss with
  | nil => rfl
  | cons us uss => rw [separated, separated_false, Scan.intercalate_cons]; rfl

lemma makes_flowItems {uss : List (List Token)} {as : List Node}
    (h : List.Forall₂ MakesNode uss as) (first : Bool)
    (hn : 4 * (separated first uss).length < n) :
    Makes (flowItems first n) (separated first uss ++ [.flowSequenceEnd]) as := by
  induction h generalizing first n with
  | nil =>
    obtain ⟨n, rfl⟩ := Nat.exists_eq_add_one_of_ne_zero (Nat.ne_zero_of_lt hn)
    exact makes_flowItems_nil first n
  | @cons us a uss as hitem _ ih =>
    obtain ⟨n, rfl⟩ := Nat.exists_eq_add_one_of_ne_zero (Nat.ne_zero_of_lt hn)
    obtain ⟨t, vs, rfl, -⟩ := id hitem.opens
    rw [separated, List.length_append, List.length_append, List.length_cons] at hn
    rw [separated, List.append_assoc]
    exact makes_flowItems_cons first hitem (by rw [List.length_cons]; omega)
      (ih false (by omega))

/-- The tokens of an entry in brackets make its key and its value. -/
def MakesEntry (us : List Token) (e : Node × Node) : Prop :=
  ∃ kus vus, us = .key :: (kus ++ .value :: vus) ∧ MakesNode kus e.1 ∧ MakesNode vus e.2

lemma makes_flowEntries {uss : List (List Token)} {as : List (Node × Node)}
    (h : List.Forall₂ MakesEntry uss as) (first : Bool)
    (hn : 4 * (separated first uss).length < n) :
    Makes (flowEntries first n) (separated first uss ++ [.flowMappingEnd]) as := by
  induction h generalizing first n with
  | nil =>
    obtain ⟨n, rfl⟩ := Nat.exists_eq_add_one_of_ne_zero (Nat.ne_zero_of_lt hn)
    exact makes_flowEntries_nil first n
  | @cons us e uss as hentry _ ih =>
    obtain ⟨k, v⟩ := e
    obtain ⟨kus, vus, rfl, hkey, hvalue⟩ := hentry
    rw [separated, List.length_append, List.length_append, List.length_cons, List.length_append,
      List.length_cons] at hn
    obtain ⟨n, rfl⟩ : ∃ m, n = m + 3 := ⟨n - 3, by omega⟩
    rw [separated, List.append_assoc]
    exact makes_flowEntries_cons first hkey hvalue (by omega) (by omega) (ih false (by omega))

lemma makesNode_sequence {uss : List (List Token)} {as : List Node}
    (h : List.Forall₂ MakesNode uss as) :
    MakesNode (.flowSequenceStart :: ([.flowEntry].intercalate uss ++ [.flowSequenceEnd]))
      (.sequence (.unmarked true) as) := by
  refine ⟨⟨_, _, rfl, rfl⟩, fun {isBlock level n} hn rest anchors => ?_⟩
  rw [← separated_true] at hn ⊢
  rw [List.length_cons, List.length_append, List.length_singleton] at hn
  obtain ⟨n, rfl⟩ : ∃ m, n = m + 2 := ⟨n - 2, by omega⟩
  rw [List.cons_append, run_node rfl, body, run_bind, run_peek]
  simp only [Except.bind]
  rw [run_bind, run_drop]
  simp only [Except.bind]
  rw [run_bind, makes_flowItems h true (by omega)]
  rfl

lemma makesNode_mapping {uss : List (List Token)} {as : List (Node × Node)}
    (h : List.Forall₂ MakesEntry uss as) :
    MakesNode (.flowMappingStart :: ([.flowEntry].intercalate uss ++ [.flowMappingEnd]))
      (.mapping (.unmarked true) as) := by
  refine ⟨⟨_, _, rfl, rfl⟩, fun {isBlock level n} hn rest anchors => ?_⟩
  rw [← separated_true] at hn ⊢
  rw [List.length_cons, List.length_append, List.length_singleton] at hn
  obtain ⟨n, rfl⟩ : ∃ m, n = m + 2 := ⟨n - 2, by omega⟩
  rw [List.cons_append, run_node rfl, body, run_bind, run_peek]
  simp only [Except.bind]
  rw [run_bind, run_drop]
  simp only [Except.bind]
  rw [run_bind, makes_flowEntries h true (by omega)]
  rfl

lemma makesNode_scalar (text : String) (plain : Bool) :
    MakesNode [.scalar text plain] (.scalar (.unmarked plain) text) := by
  refine ⟨⟨_, _, rfl, rfl⟩, fun {isBlock level n} hn => ?_⟩
  obtain ⟨n, rfl⟩ : ∃ m, n = m + 2 := ⟨n - 2, by rw [List.length_singleton] at hn; omega⟩
  exact makes_scalar isBlock level text plain n

lemma makesNode_binary (text : String) :
    MakesNode [.tag Scan.binaryMark, .scalar text false] (.scalar (.named binaryTag) text) := by
  refine ⟨⟨_, _, rfl, rfl⟩, fun {isBlock level n} hn => ?_⟩
  obtain ⟨n, rfl⟩ : ∃ m, n = m + 2 := ⟨n - 2, by
    rw [List.length_cons, List.length_singleton] at hn
    omega⟩
  exact makes_binary isBlock level text n

mutual

/-- **The tokens of a value make its node.** -/
lemma makesNode_tokens : ∀ v : Value, Readable v → MakesNode (tokens v) (nodeOf v)
  | .null, _ | .bool _, _ | .int _, _ | .float _, _ | .text _, _ | .date _, _ | .moment _, _ =>
    makesNode_scalar _ _
  | .bytes _, _ => makesNode_binary _
  | .list vs, h => makesNode_sequence (makesNode_items vs h)
  | .tuple vs, h => makesNode_sequence (makesNode_items vs h)
  | .dict es, h => makesNode_mapping (makesEntry_entries es h.1)
  | .context _, h => h.elim

lemma makesNode_items : ∀ vs : List Value, ReadableItems vs →
    List.Forall₂ MakesNode (itemTokens vs) (itemNodes vs)
  | [], _ => .nil
  | v :: vs, h => .cons (makesNode_tokens v h.1) (makesNode_items vs h.2)

lemma makesEntry_entries : ∀ es : List (Value × Value), ReadableEntries es →
    List.Forall₂ MakesEntry (entryTokens es) (entryNodes es)
  | [], _ => .nil
  | (k, v) :: es, h => .cons ⟨_, _, rfl, makesNode_tokens k h.1.2, makesNode_tokens v h.2.1⟩
      (makesEntry_entries es h.2.2)

end

/-! ### Lines -/

/-- Items on lines of their own, up to a line that begins otherwise. -/
lemma run_levelItems {uss : List (List Token)} {as : List Node}
    (h : List.Forall₂ MakesNode uss as) (ht : t ≠ .blockEntry)
    (hn : 4 * (uss.flatMap (.blockEntry :: ·)).length < n) :
    (levelItems n).run
        ⟨uss.flatMap (.blockEntry :: ·) ++ t :: rest, standardHandles, anchors⟩ =
      .ok (as, ⟨t :: rest, standardHandles, anchors⟩) := by
  have hends : ∀ u ∈ [Token.blockEntry, .key, .value, .blockEnd], opensNode u = false := by decide
  induction h generalizing n with
  | nil =>
    obtain ⟨n, rfl⟩ := Nat.exists_eq_add_one_of_ne_zero (Nat.ne_zero_of_lt hn)
    rw [levelItems, run_bind, List.flatMap_nil, List.nil_append, run_accept_of_ne ht]
    rfl
  | @cons us a uss as hitem _ ih =>
    rw [List.flatMap_cons, List.length_append, List.length_cons] at hn
    obtain ⟨n, rfl⟩ : ∃ m, n = m + 2 := ⟨n - 2, by omega⟩
    rw [levelItems, run_bind, List.flatMap_cons, List.cons_append, List.cons_append,
      List.append_assoc, run_accept]
    simp only [Except.bind, if_true]
    rw [run_bind, makes_nodeUnless hends true false hitem (by omega)]
    simp only [Except.bind]
    rw [run_bind, ih (by omega)]
    rfl

/-- The value behind a key on a line of its own. -/
lemma run_valueTokens {v : Value} (hv : Readable v) (ht : t ≠ .blockEntry)
    (hn : 4 * (Scan.valueTokens v).length + 3 < n) :
    (nodeUnless [.key, .value, .blockEnd] true true n).run
        ⟨Scan.valueTokens v ++ t :: rest, standardHandles, anchors⟩ =
      .ok (nodeOf v, ⟨t :: rest, standardHandles, anchors⟩) := by
  have hends : ∀ u ∈ [Token.key, .value, .blockEnd], opensNode u = false := by decide
  obtain ⟨n, rfl⟩ : ∃ m, n = m + 3 := ⟨n - 3, by omega⟩
  unfold Scan.valueTokens at hn ⊢
  split at hn
  · rename_i u us
    have hitems : (levelItems n).run
        ⟨(itemTokens (u :: us)).flatMap (.blockEntry :: ·) ++ t :: rest, standardHandles,
          anchors⟩ = .ok (itemNodes (u :: us), ⟨t :: rest, standardHandles, anchors⟩) :=
      run_levelItems (makesNode_items (u :: us) hv) ht (by omega)
    have hgo : (body true true none none (n + 1)).run
        ⟨(itemTokens (u :: us)).flatMap (.blockEntry :: ·) ++ t :: rest, standardHandles,
          anchors⟩ =
          .ok (nodeOf (.list (u :: us)), ⟨t :: rest, standardHandles, anchors⟩) := by
      rw [itemTokens, List.flatMap_cons, List.cons_append, List.cons_append] at hitems ⊢
      rw [body, run_bind, run_peek]
      simp only [Except.bind, if_true]
      rw [run_bind, hitems]
      rfl
    rw [itemTokens, List.flatMap_cons, List.cons_append, List.cons_append] at hgo ⊢
    rw [nodeUnless, run_bind, run_sees]
    exact (run_node rfl true true (n + 1)).trans hgo
  · exact makes_nodeUnless hends true true (makesNode_tokens v hv) (by omega) _ _

lemma run_blockEntries {es : List (Value × Value)} (hes : ∀ e ∈ es, Scan.IsLine e)
    (hn : 4 * (es.flatMap Scan.lineTokens).length < n) :
    (blockEntries n).run
        ⟨es.flatMap Scan.lineTokens ++ .blockEnd :: rest, standardHandles, anchors⟩ =
      .ok (entryNodes es, ⟨rest, standardHandles, anchors⟩) := by
  have hends : ∀ u ∈ [Token.key, .value, .blockEnd], opensNode u = false := by decide
  induction es generalizing n with
  | nil =>
    obtain ⟨n, rfl⟩ := Nat.exists_eq_add_one_of_ne_zero (Nat.ne_zero_of_lt hn)
    rw [blockEntries, run_bind, List.flatMap_nil, List.nil_append, run_accept_of_ne (by simp)]
    simp only [Except.bind, Bool.false_eq_true, if_false]
    rw [run_bind, run_accept]
    rfl
  | cons e es ih =>
    obtain ⟨k, v⟩ := e
    obtain ⟨⟨⟨s, rfl, -⟩, hv, -⟩, hrest⟩ := List.forall_mem_cons.mp hes
    have hnext : ∃ u us, es.flatMap Scan.lineTokens ++ .blockEnd :: rest = u :: us ∧
        u ≠ .blockEntry := by
      cases es with
      | nil => exact ⟨_, _, rfl, by simp⟩
      | cons e es => exact ⟨_, _, rfl, by simp⟩
    obtain ⟨u, us, hus, hu⟩ := hnext
    have hlength : (Scan.lineTokens (.text s, v)).length =
        (tokens (.text s)).length + (Scan.valueTokens v).length + 2 := by
      simp [Scan.lineTokens]
      omega
    rw [List.flatMap_cons, List.length_append, hlength] at hn
    obtain ⟨n, rfl⟩ : ∃ m, n = m + 3 := ⟨n - 3, by omega⟩
    have hkey := makes_nodeUnless hends true true (makesNode_tokens (.text s) trivial) (n := n + 1)
      (by omega)
    have hv : Readable v := hv
    have hvalue : (nodeUnless [.key, .value, .blockEnd] true true (n + 1)).run
        ⟨Scan.valueTokens v ++ u :: us, standardHandles, anchors⟩ =
          .ok (nodeOf v, ⟨u :: us, standardHandles, anchors⟩) :=
      run_valueTokens hv hu (by omega)
    have hcolon : (valueUnless [.key, .value, .blockEnd] true true (n + 2)).run
        ⟨.value :: (Scan.valueTokens v ++ u :: us), standardHandles, anchors⟩ =
          .ok (nodeOf v, ⟨u :: us, standardHandles, anchors⟩) := by
      rw [valueUnless, run_bind, run_accept]
      exact hvalue
    have hline : (Scan.lineTokens (.text s, v) ++ es.flatMap Scan.lineTokens) ++ .blockEnd :: rest =
        .key :: (tokens (.text s) ++ .value :: (Scan.valueTokens v ++ u :: us)) := by
      rw [List.append_assoc, hus]
      simp [Scan.lineTokens]
    rw [blockEntries, run_bind, List.flatMap_cons, hline, run_accept]
    simp only [Except.bind, if_true]
    rw [run_bind, hkey]
    simp only [Except.bind]
    rw [run_bind, hcolon]
    simp only [Except.bind]
    rw [run_bind, ← hus, ih hrest (by omega)]
    rfl

lemma run_dropDocumentEnds (ht : t ≠ .documentEnd) (n : ℕ) :
    (dropDocumentEnds n).run ⟨t :: rest, handles, anchors⟩ =
      .ok ((), ⟨t :: rest, handles, anchors⟩) := by
  cases n with
  | zero => rfl
  | succ n =>
    rw [dropDocumentEnds, run_bind, run_accept_of_ne ht]
    rfl

/-- The document of a mapping on lines of its own. -/
lemma run_document {es : List (Value × Value)} (hes : ∀ e ∈ es, Scan.IsLine e)
    (hn : 4 * (blockTokens es).length ≤ n) :
    ∃ c, (document n).run ⟨blockTokens es, [], []⟩ = .ok (some (nodeOf (.dict es)), c) := by
  rw [blockTokens, List.length_cons, List.length_append] at hn
  obtain ⟨n, rfl⟩ : ∃ m, n = m + 2 := ⟨n - 2, by omega⟩
  have hentries : (blockEntries n).run
      ⟨es.flatMap Scan.lineTokens ++ [.blockEnd, .streamEnd], standardHandles, []⟩ =
        .ok (entryNodes es, ⟨[.streamEnd], standardHandles, []⟩) :=
    run_blockEntries hes (by omega)
  have hnode : (node true false (n + 2)).run ⟨blockTokens es, standardHandles, []⟩ =
      .ok (nodeOf (.dict es), ⟨[.streamEnd], standardHandles, []⟩) := by
    rw [blockTokens, run_node rfl, body, run_bind, run_peek]
    simp only [Except.bind, if_true]
    rw [run_bind, run_drop]
    simp only [Except.bind]
    rw [run_bind, hentries]
    rfl
  have hgo : (do
      modify fun s => { s with handles := standardHandles }
      let found ← some <$> node true false (n + 2)
      finish (n + 2)
      return found : Compose (Option Node)).run ⟨blockTokens es, [], []⟩ =
        .ok (some (nodeOf (.dict es)), ⟨[.streamEnd], standardHandles, []⟩) := by
    have hmap : (some <$> node true false (n + 2)).run ⟨blockTokens es, standardHandles, []⟩ =
        .ok (some (nodeOf (.dict es)), ⟨[.streamEnd], standardHandles, []⟩) := by
      rw [StateT.run_map, hnode]
      rfl
    have hfinish : (finish (n + 2)).run ⟨[.streamEnd], standardHandles, []⟩ =
        .ok ((), ⟨[.streamEnd], standardHandles, []⟩) := by
      rw [finish, run_bind, run_dropDocumentEnds (by simp)]
      rfl
    rw [run_bind]
    show ((some <$> node true false (n + 2) >>= _ : Compose (Option Node))).run
      ⟨blockTokens es, standardHandles, []⟩ = _
    rw [run_bind, hmap]
    simp only [Except.bind]
    rw [run_bind, hfinish]
    rfl
  exact ⟨_, hgo⟩

end Compose

/-- **A written mapping is parsed as its node.** -/
lemma parse_writeBlock {es : List (Value × Value)} (hne : es ≠ [])
    (hes : ∀ e ∈ es, Scan.IsLine e) {w : String} (hw : writeBlock es = .ok w) :
    parse w = .ok (some (nodeOf (.dict es))) := by
  obtain ⟨c, hrun⟩ := Compose.run_document hes
    (n := 4 * (blockTokens es).length + 4) (by omega)
  unfold parse
  rw [tokenize_writeBlock hne hes hw]
  exact congrArg (Except.map Prod.fst) hrun

end Stencil.Yaml
