import Stencil.Proofs.Evaluation.Calls
import Stencil.Proofs.Evaluation.Growth
import Stencil.Proofs.Render
import Stencil.Proofs.Template.Derived

/-!
Evaluation and rendering in one pass.

The direct interpreter walks an unevaluated template once and writes its text on the way: a slot
is formatted where it stands, a conditional writes the branch it takes, and a reference what it
refers to. Evaluating first and rendering the result in the end comes to the same, since what a
slot or a context reference shows is settled when the walk comes by: bindings only grow, and only
under the name of context.
-/

namespace Stencil

open Evaluation

variable {σ : Type}

/-! ### The direct interpreter -/

namespace Direct

/-- A text, or the first fault that keeps it from being written. -/
abbrev Draft := Except Failure String

/-- One text behind the other. -/
def Draft.append (a b : Draft) : Draft := do return (← a) ++ (← b)

mutual

/-- The text of a node, where `follow` tells what a reference writes. -/
def write (e : Setup σ) (p : Render.Policy) (follow : Node → Eval σ Draft) : Node → Eval σ Draft
  | .text content _ => return .ok content
  | .slot name hint default _ => return Render.slot p (← get).bindings name hint default
  | .context path _ => return Render.context p (← get).bindings path
  | .conditional c t f _ => do
    if ← holds e c then writeAll e p follow t else writeAll e p follow f
  | .part _ children _ => writeAll e p follow children
  | .imported path span => follow (.imported path span)
  | .included path span => follow (.included path span)

def writeAll (e : Setup σ) (p : Render.Policy) (follow : Node → Eval σ Draft) :
    List Node → Eval σ Draft
  | [] => return .ok ""
  | n :: ns => do return (← write e p follow n).append (← writeAll e p follow ns)

end

/-- The text of a document in place of a reference to it, nothing without a loader. -/
def writeDocument (e : Setup σ) (p : Render.Policy) (descend : Stack → Node → Eval σ Draft)
    (stack : Stack) (path : String) : Eval σ Draft := do
  match e.loader with
  | none =>
    report "import" (EvaluationFault.noImportLoader path).message path
    return .ok ""
  | some loader =>
    let (key, nodes) ← openDocument e loader stack path
    enter e nodes
    writeAll e p (descend { stack with documents := key :: stack.documents }) nodes

/-- The text of a part or a document in place of a reference to it, nothing if there is none. -/
def writePart (e : Setup σ) (p : Render.Policy) (descend : Stack → Node → Eval σ Draft)
    (stack : Stack) (path : String) : Eval σ Draft := do
  match (← get).parts.lookup path with
  | some children =>
    if stack.parts.contains path then
      fail (.evaluation (.circularInclude (stack.parts.reverse ++ [path])))
    else writeAll e p (descend { stack with parts := path :: stack.parts }) children
  | none =>
    if (path.toList.contains '/' || Text.endsWith templateExtension path) && e.loader.isSome then
      writeDocument e p descend stack path
    else
      report "include" (EvaluationFault.partNotFound path).message path
      return .ok ""

/-- What a reference writes, with at most `depth` further references inside each other. -/
def follow (e : Setup σ) (p : Render.Policy) : (depth : Nat) → Stack → Node → Eval σ Draft
  | 0, _, _ => throw .endless
  | d + 1, stack, .imported path _ => writeDocument e p (follow e p d) stack path
  | d + 1, stack, .included path _ => writePart e p (follow e p d) stack path
  | _ + 1, _, n => return Render.node p (← get).bindings n

/-- The text of a template under bindings, in one pass. The state of the collaborators comes back
in any case. -/
def interpret (e : Setup σ) (p : Render.Policy) (origin : Option String) (d : Document)
    (b : Bindings) : StateM σ (Except Failure Draft) := fun w =>
  let run : Eval σ Draft := do
    enter e d.children
    writeAll e p (follow e p (depthBound e d.children) ⟨origin, [], []⟩) d.children
  let (r, s) := run.run.run ⟨b, [], [], w⟩
  (r, s.world)

end Direct

/-! ### Settled texts -/

/-- What a slot shows does not depend on the results of context. -/
def KeepsSlots (n : Node) : Prop :=
  ∀ x, Node.slotName? n = some x → Source.IsName x ∧ Variable.isOfContext x = false

lemma kind_keepsSlots : Kind KeepsSlots AnyName where
  part _ _ _ _ _ _ hx := by cases hx
  looks _ _ _ _ _ _ _ := trivial

lemma keepsSlots_of_parse {source : String} (h : (parse source).success = true)
    (hno : ∀ x ∈ Node.slotNames (parse source).document.children, Variable.isOfContext x = false) :
    ∀ n ∈ Node.walk (parse source).document.children, KeepsSlots n := by
  intro n hn x hx
  have hmem := Node.mem_slotNames.mpr ⟨n, hn, hx⟩
  exact ⟨Template.slotNames_parse h x hmem, hno x hmem⟩

variable {s t : State σ} {e : Setup σ} {p : Render.Policy}

/-- The text of a tree that is ready is settled: later bindings do not change it. -/
lemma nodes_grown {ns : List Node} (h : Ready KeepsSlots s ns) (hg : Grown s t) :
    Render.nodes p t.bindings ns = Render.nodes p s.bindings ns := by
  induction ns using Node.forest_induction with
  | nil => rfl
  | text c span ns ih => rw [Render.nodes, Render.nodes, ih h.rest, Render.node, Render.node]
  | slot name hint d span ns ih =>
    obtain ⟨hname, hno⟩ := h.head.1 name rfl
    rw [Render.nodes, Render.nodes, ih h.rest, Render.node, Render.node]
    unfold Render.slot
    rw [Variable.lookup_congr hname hno hg.others]
  | conditional c t f span ns _ _ ih =>
    rw [Render.nodes, Render.nodes, ih h.rest, Render.node, Render.node]
  | part name cs span ns ihc ih =>
    rw [Render.nodes, Render.nodes, ih h.rest, Render.node, Render.node, ihc h.below]
  | imported path span ns ih => rw [Render.nodes, Render.nodes, ih h.rest, Render.node, Render.node]
  | included path span ns ih => rw [Render.nodes, Render.nodes, ih h.rest, Render.node, Render.node]
  | context path span ns ih =>
    obtain ⟨r, hr⟩ := Option.isSome_iff_exists.mp (h.head.2 path (by simp [Node.contextPathsOf]))
    rw [Render.nodes, Render.nodes, ih h.rest, Render.node, Render.node, Render.context,
      Render.context, hg.bound path r hr, hr]

/-! ### Both ways in step -/

/-- The second step writes what the nodes that the first comes to render as, with the same state
behind it, and fails as the first fails. -/
def Drafts (p : Render.Policy) (x : Eval σ (List Node)) (y : Eval σ Direct.Draft) (s : State σ) :
    Prop :=
  y.on s = match x.on s with
    | (.ok ms, t) => (.ok (Render.nodes p t.bindings ms), t)
    | (.error f, t) => (.error f, t)

namespace Drafts

variable {α : Type}

/-- The same step in front of both. -/
lemma bind {x : Eval σ α} {f : α → Eval σ (List Node)} {g : α → Eval σ Direct.Draft}
    (h : ∀ a t, x.on s = (.ok a, t) → Drafts p (f a) (g a) t) :
    Drafts p (x >>= f) (x >>= g) s := by
  unfold Drafts
  rw [Eval.on_bind, Eval.on_bind]
  rcases hx : x.on s with ⟨fault | a, t⟩
  · rfl
  · exact h a t hx

lemma pure {ms : List Node} {draft : Direct.Draft} (h : draft = Render.nodes p s.bindings ms) :
    Drafts p (Pure.pure ms) (Pure.pure draft) s := by
  rw [h]
  rfl

/-- A node that stays is written under the bindings there are. -/
lemma look {n : Node} {draft : State σ → Direct.Draft}
    (h : draft s = Render.node p s.bindings n) :
    Drafts p (Pure.pure [n]) (do return draft (← get)) s := by
  have hnodes := Render.nodes_singleton (p := p) (b := s.bindings) n
  rw [← h] at hnodes
  exact congrArg (fun d => (Except.ok d, s)) hnodes.symm

/-- A part is written as what is in it. -/
lemma part {x : Eval σ (List Node)} {y : Eval σ Direct.Draft} {name : String} {span : Span}
    (h : Drafts p x y s) : Drafts p (do return [.part name (← x) span]) y s := by
  unfold Drafts at h ⊢
  rw [h, Eval.on_bind]
  rcases x.on s with ⟨fault | ms, t⟩
  · rfl
  · have hnodes := Render.nodes_singleton (p := p) (b := t.bindings) (.part name ms span)
    rw [Render.node] at hnodes
    exact congrArg (fun d => (Except.ok d, t)) hnodes.symm

lemma fail {error : Error} : Drafts p (Evaluation.fail error) (Evaluation.fail error) s := rfl

end Drafts

section

variable {names : List String} {refer : Node → Eval σ (List Node)}
  {writer : Node → Eval σ Direct.Draft} {Q : Failure → Prop} (he : e.strict = false)
  (hQ : ∀ f, Excused e AnyName f → Q f)
  (hleaves : ∀ n s, Settled KeepsSlots names s → Ready KeepsSlots s [n] →
    (refer n).Meets s (Leaves KeepsSlots names s) Q)
  (hf : ∀ n s, Settled KeepsSlots names s → Ready KeepsSlots s [n] →
    Drafts p (refer n) (writer n) s)

include he hQ hleaves hf

/-- A tree is written as it is reduced, if its references are written as they are followed. -/
lemma reduceAll_drafts (ns : List Node) (s : State σ) (hs : Settled KeepsSlots names s)
    (hr : Ready KeepsSlots s ns) :
    Drafts p (reduceAll e refer ns) (Direct.writeAll e p writer ns) s := by
  -- the first node, then the rest, whose bindings leave the text of the first as it is
  have cons {n : Node} {ns : List Node} {s : State σ} (hs : Settled KeepsSlots names s)
      (hr : Ready KeepsSlots s (n :: ns))
      (ih : ∀ t, Settled KeepsSlots names t → Ready KeepsSlots t ns →
        Drafts p (reduceAll e refer ns) (Direct.writeAll e p writer ns) t)
      (hn : Drafts p (reduce e refer n) (Direct.write e p writer n) s) :
      Drafts p (reduceAll e refer (n :: ns)) (Direct.writeAll e p writer (n :: ns)) s := by
    unfold Drafts at hn ⊢
    rw [reduceAll, Direct.writeAll, Eval.on_bind, Eval.on_bind, hn]
    rcases hms : (reduce e refer n).on s with ⟨fault | ms, t⟩
    · rfl
    have hl := (reduce_meets kind_keepsSlots hQ hleaves n s hs hr.first).of_ok hms
    have hrest := hr.rest.grown hl.grown
    have hwrite := ih t hl.settled hrest
    unfold Drafts at hwrite
    dsimp only
    rw [Eval.on_bind, Eval.on_bind, hwrite]
    rcases hks : (reduceAll e refer ns).on t with ⟨fault | ks, u⟩
    · rfl
    have hu :=
      (reduceAll_meets kind_keepsSlots hQ hleaves ns t hl.settled hrest).of_ok hks
    change (Except.ok (Direct.Draft.append (Render.nodes p t.bindings ms)
      (Render.nodes p u.bindings ks)), u) = (Except.ok (Render.nodes p u.bindings (ms ++ ks)), u)
    rw [Render.nodes_append, nodes_grown hl.ready hu.grown]
    rfl
  induction ns using Node.forest_induction generalizing s with
  | nil =>
    rw [reduceAll, Direct.writeAll]
    exact .pure rfl
  | text c span ns ih =>
    refine cons hs hr (fun t ht hn => ih t ht hn) ?_
    rw [reduce.eq_def, Direct.write.eq_def]
    exact .pure (by rw [Render.nodes_singleton, Render.node])
  | slot name h d span ns ih =>
    refine cons hs hr (fun t ht hn => ih t ht hn) ?_
    rw [reduce.eq_def, Direct.write.eq_def]
    exact .look rfl
  | conditional c t f span ns iht ihf ih =>
    refine cons hs hr (fun t ht hn => ih t ht hn) ?_
    rw [reduce.eq_def, Direct.write.eq_def]
    refine .bind fun b u hb => ?_
    have hu := ((holds_meets c (fun _ _ => trivial) s).of_ok hb).toKeeps
    obtain ⟨ht, hf⟩ := Ready.append_iff.mp (hr.below.grown hu.toGrown)
    cases b
    · exact ihf u (hs.keeps hu) hf
    · exact iht u (hs.keeps hu) ht
  | part name cs span ns ihc ih =>
    refine cons hs hr (fun t ht hn => ih t ht hn) ?_
    rw [reduce.eq_def, Direct.write.eq_def]
    exact .part (ihc s hs hr.below)
  | imported path span ns ih =>
    refine cons hs hr (fun t ht hn => ih t ht hn) ?_
    rw [reduce.eq_def, Direct.write.eq_def]
    exact hf _ s hs hr.first
  | included path span ns ih =>
    refine cons hs hr (fun t ht hn => ih t ht hn) ?_
    rw [reduce.eq_def, Direct.write.eq_def]
    exact hf _ s hs hr.first
  | context path span ns ih =>
    refine cons hs hr (fun t ht hn => ih t ht hn) ?_
    rw [reduce.eq_def, Direct.write.eq_def]
    simp only [he, Bool.false_eq_true, if_false]
    exact .look rfl

end

section

variable {names : List String} {depth : Nat} {stack : Stack} {node : Node} {path : String}
  (he : e.strict = false) (hadm : ∀ ns, e.Imports ns → Admitted KeepsSlots names ns)
  (hd : ∀ stack ns s, Settled KeepsSlots names s → Ready KeepsSlots s ns →
    Drafts p (reduceAll e (Evaluation.follow e depth stack) ns)
      (Direct.writeAll e p (Direct.follow e p depth stack) ns) s)

include he hadm hd

/-- A reference that stays writes nothing. -/
lemma importDocument_drafts (hs : Settled KeepsSlots names s)
    (hnode : ∀ b, Render.node p b node = .ok "") :
    Drafts p (importDocument e (Evaluation.follow e depth) stack node path)
      (Direct.writeDocument e p (Direct.follow e p depth) stack path) s := by
  unfold importDocument Direct.writeDocument
  rcases hl : e.loader with _ | l
  · simp only [he, Bool.false_eq_true, if_false]
    refine .bind fun _ t _ => .pure ?_
    rw [Render.nodes_singleton, hnode]
  · refine .bind fun d t ht => ?_
    obtain ⟨rfl, himp, -, -⟩ := (openDocument_meets (L := AnyName) hl stack path s).of_ok ht
    refine .bind fun _ u hu => ?_
    obtain ⟨-, hset, hready⟩ := (enter_meets (hadm _ himp) hs (Q := fun _ => True)).of_ok hu
    exact hd _ _ u hset hready

lemma includePart_drafts (hs : Settled KeepsSlots names s)
    (hnode : ∀ b, Render.node p b node = .ok "") :
    Drafts p (includePart e (Evaluation.follow e depth) stack node path)
      (Direct.writePart e p (Direct.follow e p depth) stack path) s := by
  unfold includePart Direct.writePart
  refine .bind fun s' t ht => ?_
  obtain ⟨h, rfl⟩ := Prod.mk.inj ht
  obtain rfl := Except.ok.inj h
  rcases hp : s.parts.lookup path with _ | children
  · dsimp only
    split
    · exact importDocument_drafts he hadm hd hs hnode
    · simp only [he, Bool.false_eq_true, if_false]
      refine .bind fun _ t _ => .pure ?_
      rw [Render.nodes_singleton, hnode]
  · obtain ⟨-, hready⟩ := hs.of_lookup hp
    dsimp only
    split
    · exact .fail
    · exact hd _ _ s hs hready

end

/-- A reference writes what the nodes that it comes down to render as. -/
lemma follow_drafts {names : List String} (he : e.strict = false) (hp : p.strict = false)
    (hadm : ∀ ns, e.Imports ns → Admitted KeepsSlots names ns) (depth : Nat) (stack : Stack)
    (n : Node) (s : State σ) (hs : Settled KeepsSlots names s) (hr : Ready KeepsSlots s [n]) :
    Drafts p (Evaluation.follow e depth stack n) (Direct.follow e p depth stack n) s := by
  induction depth generalizing stack n s with
  | zero => rfl
  | succ depth ih =>
    have hd (stack : Stack) (ns : List Node) (s : State σ) (hs : Settled KeepsSlots names s)
        (hr : Ready KeepsSlots s ns) : Drafts p (reduceAll e (Evaluation.follow e depth stack) ns)
          (Direct.writeAll e p (Direct.follow e p depth stack) ns) s :=
      reduceAll_drafts he (fun _ h => .inl h)
        (fun n s => follow_meets kind_keepsSlots (fun _ _ _ => hadm) depth stack n s)
        (fun n s => ih stack n s) ns s hs hr
    cases n with
    | imported path span =>
      exact importDocument_drafts he hadm hd hs fun b => by simp [Render.node, hp]
    | included path span =>
      exact includePart_drafts he hadm hd hs fun b => by simp [Render.node, hp]
    | _ => exact .look rfl

/-- A document is written as it is reduced. -/
lemma document_drafts (he : e.strict = false) (hp : p.strict = false) (stack : Stack)
    {ns : List Node} (hmain : ∀ n ∈ Node.walk ns, KeepsSlots n)
    (himports : ∀ ms, e.Imports ms → ∀ n ∈ Node.walk ms, KeepsSlots n) (b : Bindings) (w : σ) :
    Drafts p
      (do
        enter e ns
        reduceAll e (Evaluation.follow e (depthBound e ns) stack) ns)
      (do
        enter e ns
        Direct.writeAll e p (Direct.follow e p (depthBound e ns) stack) ns)
      ⟨b, [], [], w⟩ := by
  have hadm (ms : List Node) (h : e.Imports ms) : Admitted KeepsSlots (e.partNames ns) ms :=
    admitted_import h (himports ms h)
  refine .bind fun _ t ht => ?_
  obtain ⟨-, hs, hr⟩ := (enter_meets (admitted_main hmain) (settled_initial b w)
    (Q := fun _ => True)).of_ok ht
  exact reduceAll_drafts he (fun _ h => .inl h)
    (fun n s => follow_meets kind_keepsSlots (fun _ _ _ => hadm) _ _ n s)
    (fun n s => follow_drafts he hp hadm _ _ n s) ns t hs hr

lemma interpret_eq (e : Setup σ) (p : Render.Policy) (origin : Option String) (d : Document)
    (b : Bindings) (w : σ) :
    Direct.interpret e p origin d b w = match Eval.on (do
        enter e d.children
        Direct.writeAll e p (Direct.follow e p (depthBound e d.children) ⟨origin, [], []⟩)
          d.children) ⟨b, [], [], w⟩ with
      | (draft, t) => (draft, t.world) := rfl

lemma evaluate_eq_reduceAll (e : Setup σ) (origin : Option String) (d : Document) (b : Bindings)
    (w : σ) :
    evaluate e origin d b w = match Eval.on (do
        enter e d.children
        reduceAll e (Evaluation.follow e (depthBound e d.children) ⟨origin, [], []⟩) d.children)
          ⟨b, [], [], w⟩ with
      | (.ok ns, t) =>
        (.ok ⟨{ d with children := ns }, t.bindings, t.parts, t.issues⟩, t.world)
      | (.error f, t) => (.error f, t.world) := by
  rw [evaluate_eq, evaluateIn, ← bind_assoc, Eval.on_bind]
  rcases Eval.on _ (⟨b, [], [], w⟩ : State σ) with ⟨f | ns, t⟩ <;> rfl

/-- **One pass**: evaluating a template and rendering what comes of it is interpreting it
directly. Both end in the same text or the same fault of rendering, or fail alike, and leave the
collaborators in the same state after the same calls, in the same order. Only the names in slots
must keep clear of context's; an evaluation that fails is no exception. -/
theorem render_evaluate_eq_interpret (e : Setup σ) (p : Render.Policy) (he : e.strict = false)
    (hp : p.strict = false) (origin : Option String) (source : String)
    (hs : (parse source).success = true)
    (hmain : ∀ x ∈ Node.slotNames (parse source).document.children,
      Variable.isOfContext x = false)
    (himports : ∀ ns, e.Imports ns → ∀ x ∈ Node.slotNames ns, Variable.isOfContext x = false)
    (b : Bindings) (w : σ) :
    Direct.interpret e.recorded p origin (parse source).document b (w, []) =
      match evaluate e.recorded origin (parse source).document b (w, []) with
      | (.ok r, after) => (.ok (render p {} r.bindings r.document.children), after)
      | (.error f, after) => (.error f, after) := by
  have hdrafts := document_drafts (e := e.recorded) he hp ⟨origin, [], []⟩
    (keepsSlots_of_parse hs hmain) (fun ns h => ?_) b (w, [])
  · unfold Drafts at hdrafts
    rw [interpret_eq, hdrafts, evaluate_eq_reduceAll]
    rcases Eval.on _ (⟨b, [], [], (w, [])⟩ : State (σ × List Call)) with ⟨f | ns, t⟩
    · rfl
    · simp only [render_plain]
  · obtain ⟨d, hd, hsucc, rfl⟩ := h
    exact keepsSlots_of_parse hsucc (himports _ ⟨d, hd, hsucc, rfl⟩)

/-- A judge is asked, and an imported document looks up a context and fills a slot. -/
theorem render_evaluate_eq_interpret_import :
    let e : Setup Unit :=
      { judge := some ⟨fun _ _ => pure (.answer (.bool true))⟩
        resolver := some ⟨fun paths => pure (.ok (paths.map fun p => (p, .ok p ⟨"", p, none⟩)))⟩
        loader := some (Import.fixed [("a", "#context(bio){{x}}")]) }
    Direct.interpret e.recorded {} none
        (parse "[#IF x #ai_judge(ok)]Hi [#IMPORT a][END IF]").document [("x", .text "Ada")]
        ((), []) =
      (.ok (.ok "Hi bioAda"), ((), [.judged (.text "Ada") "ok", .resolved ["bio"]])) := by
  intro e
  refine (render_evaluate_eq_interpret e {} rfl rfl none _ (by decide +kernel)
    (by decide +kernel) ?_ [("x", .text "Ada")] ()).trans (by with_unfolding_all rfl)
  rintro _ ⟨d, hd, -, rfl⟩
  obtain rfl := List.mem_singleton.mp hd
  decide +kernel

end Stencil
