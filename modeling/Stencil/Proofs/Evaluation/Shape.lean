import Stencil.Proofs.Evaluation.Growth
import Stencil.Proofs.Render

/-!
The shape of an evaluated tree, and why a renderer finds nothing unresolved in it after a strict
run.

Evaluation puts the tree together from the document, from parts spliced in any number of times
and from imported documents. What stays in it is decided node by node (`Stays`) and depends on the
bindings only through results of context, which are never bound anew, so that it still holds in
the end (`Reduced`). A reference stays exactly where a problem is reported of it.
-/

namespace Stencil

/-- What a reference to something else is called in a problem with it, and its path. -/
def Node.reference? : Node → Option (String × String)
  | .imported path _ => some ("import", path)
  | .included path _ => some ("include", path)
  | _ => none

namespace Evaluation

variable {σ : Type} {e : Setup σ} {s t u : State σ}

/-- The kind and the path of a problem with a reference. -/
def Issue.reference? (issue : Issue) : Option (String × String) :=
  if issue.kind = "import" ∨ issue.kind = "include" then some (issue.kind, issue.path) else none

/-- The references that problems were reported of, in order. -/
def State.reported (s : State σ) : List (String × String) := s.issues.filterMap Issue.reference?

/-- A node may be left in an evaluated tree: no conditional is; a reference is only where it is
no failure to leave it, and an import only where nothing can be loaded; and under strictness there
is content behind every context reference. -/
def Stays (e : Setup σ) (b : Bindings) : Node → Prop
  | .conditional .. => False
  | .imported .. => e.strict = false ∧ e.loader = none
  | .included .. => e.strict = false
  | .context path _ => e.strict = true → ∃ r, Context.bound? b path = some r ∧ r.success = true
  | _ => True

lemma Stays.grown {n : Node} (h : Stays e s.bindings n) (hg : Grown s t) :
    Stays e t.bindings n := by
  cases n with
  | context path span =>
    intro he
    obtain ⟨r, hr, hsuccess⟩ := h he
    exact ⟨r, hg.bound path r hr, hsuccess⟩
  | _ => exact h

/-- What the reduction of some trees leaves, between two states. -/
structure Reduced (e : Setup σ) (s : State σ) (ms : List Node) (t : State σ) : Prop where
  grown : Grown s t
  stays : ∀ n ∈ Node.walk ms, Stays e t.bindings n
  reported : t.reported = s.reported ++ (Node.walk ms).filterMap Node.reference?

namespace Reduced

variable {ms ks : List Node}

lemma nil (s : State σ) : Reduced e s [] s := ⟨.refl s, by simp, by simp⟩

lemma append (h : Reduced e s ms t) (k : Reduced e t ks u) : Reduced e s (ms ++ ks) u where
  grown := h.grown.trans k.grown
  stays := by
    rw [Node.walk_append, List.forall_mem_append]
    exact ⟨fun n hn => (h.stays n hn).grown k.grown, k.stays⟩
  reported := by
    rw [k.reported, h.reported, Node.walk_append, List.filterMap_append, List.append_assoc]

/-- Steps in front that report no reference. -/
lemma behind (h : Reduced e t ms u) (hg : Grown s t) (hr : t.reported = s.reported) :
    Reduced e s ms u :=
  ⟨hg.trans h.grown, h.stays, hr ▸ h.reported⟩

/-- A node with what is left of its children in it. -/
lemma node {n : Node} (h : Reduced e s n.children t) (hn : Stays e t.bindings n)
    (hr : n.reference? = none) : Reduced e s [n] t where
  grown := h.grown
  stays := by
    rw [Node.walk_cons, Node.walk_nil, List.append_nil, List.forall_mem_cons]
    exact ⟨hn, h.stays⟩
  reported := by
    rw [Node.walk_cons, Node.walk_nil, List.append_nil, List.filterMap_cons_none hr, h.reported]

/-- A reference that stays, and the problem that is reported of it. -/
lemma left {n : Node} {kind message path : String} (hn : Stays e s.bindings n)
    (hc : n.children = []) (hr : n.reference? = some (kind, path))
    (hk : kind = "import" ∨ kind = "include") :
    Reduced e s [n] { s with issues := s.issues ++ [⟨kind, message, path⟩] } where
  grown := .of_bindings_eq rfl
  stays := by simpa [Node.walk_cons, hc] using hn
  reported := by simp [State.reported, Node.walk_cons, hc, hr, Issue.reference?, hk]

end Reduced

/-! ### Steps -/

/-- A path whose result was asked for is bound to it. -/
lemma contextResult_bound (path : String) (s : State σ) {Q : Failure → Prop} :
    (contextResult e path).Meets s (fun r t => Context.bound? t.bindings path = some r) Q := by
  unfold contextResult
  refine .get_bind ?_
  split
  · rename_i hb
    exact .pure hb
  · -- it is answered for, as it is asked for
    have hnodup := Context.nodup_keys_resolvePaths e.resolver [path] s.world
    obtain ⟨r, hr⟩ := (Context.mem_resolvePaths e.resolver [path] s.world path).mpr (by simp)
    have hlookup := (lookup_eq_some_iff_mem hnodup).mpr hr
    refine .onWorld_bind (.bind
      (.modify (P := fun _ t => Context.bound? t.bindings path = some r) ?_) fun _ t ht => .pure ?_)
    · change Context.bound? (Context.bind s.bindings _) path = some r
      rw [Context.bound?_bind hnodup, hlookup, Option.some_or]
    · rwa [hlookup, Option.getD_some]

/-- Behind a context reference that is required there is content. -/
lemma requireContext_bound (path : String) (s : State σ) :
    (requireContext e path).Meets s
      (fun _ t => ∃ r, Context.bound? t.bindings path = some r ∧ r.success = true)
      fun _ => True := by
  unfold requireContext
  refine (contextResult_bound path s).bind fun r t ht => ?_
  split
  · exact .fail trivial
  · rename_i hs
    exact .pure ⟨r, ht, by simpa using hs⟩

lemma Quiet.reported_eq (h : Quiet s t) : t.reported = s.reported :=
  congrArg (List.filterMap Issue.reference?) h.issues

lemma reference?_of_lookupIssue? {answer : String × Context.Result} {issue : Issue}
    (h : lookupIssue? answer = some issue) : issue.reference? = none := by
  unfold lookupIssue? at h
  split at h
  · cases h
  · obtain rfl := Option.some.inj h
    simp [Issue.reference?]

/-- Entering a document reports problems with context only. -/
lemma enter_reported (ns : List Node) (s : State σ) {Q : Failure → Prop} :
    (enter e ns).Meets s (fun _ t => Grown s t ∧ t.reported = s.reported) Q := by
  have hnone : ((e.answers ns s).filterMap lookupIssue?).filterMap Issue.reference? = [] := by
    refine List.filterMap_eq_nil_iff.mpr fun issue h => ?_
    obtain ⟨answer, -, ha⟩ := List.mem_filterMap.mp h
    exact reference?_of_lookupIssue? ha
  unfold Eval.Meets
  rw [enter_on]
  refine ⟨(lookedUp_grown ns s).trans (.of_bindings_eq rfl), ?_⟩
  change (e.lookedUp ns s).issues.filterMap Issue.reference? = _
  rw [lookedUp_issues, List.filterMap_append, hnone, List.append_nil, State.reported]

/-! ### Trees -/

/-- Trees are reduced as the references in them are. -/
lemma reduceAll_reduced {follow : Node → Eval σ (List Node)}
    (hf : ∀ n s, n.reference?.isSome = true → (follow n).Meets s (Reduced e s) fun _ => True)
    (ns : List Node) (s : State σ) :
    (reduceAll e follow ns).Meets s (Reduced e s) fun _ => True := by
  -- the first node, then the rest
  have cons {n : Node} {ns : List Node} {s : State σ}
      (hn : (reduce e follow n).Meets s (Reduced e s) fun _ => True)
      (ih : ∀ t, (reduceAll e follow ns).Meets t (Reduced e t) fun _ => True) :
      (reduceAll e follow (n :: ns)).Meets s (Reduced e s) fun _ => True := by
    rw [reduceAll]
    exact hn.bind fun ms t ht => (ih t).bind fun ks u hu => .pure (ht.append hu)
  induction ns using Node.forest_induction generalizing s with
  | nil =>
    rw [reduceAll]
    exact .pure (.nil s)
  | text c span ns ih =>
    refine cons ?_ ih
    rw [reduce.eq_def]
    exact .pure (.node (.nil s) trivial rfl)
  | slot name h d span ns ih =>
    refine cons ?_ ih
    rw [reduce.eq_def]
    exact .pure (.node (.nil s) trivial rfl)
  | conditional c t f span ns iht ihf ih =>
    refine cons ?_ ih
    rw [reduce.eq_def]
    have hc : (holds e c).Meets s (fun _ u => Quiet s u) fun _ => True :=
      (holds_meets (L := AnyName) c (fun _ _ => trivial) s).mono (fun _ _ h => h) fun _ _ => trivial
    refine hc.bind fun b u hu => ?_
    split
    · exact (iht u).mono (fun _ _ h => h.behind hu.toGrown hu.reported_eq) fun _ h => h
    · exact (ihf u).mono (fun _ _ h => h.behind hu.toGrown hu.reported_eq) fun _ h => h
  | part name cs span ns ihc ih =>
    refine cons ?_ ih
    rw [reduce.eq_def]
    exact (ihc s).bind fun ms t ht => .pure (.node ht trivial rfl)
  | imported path span ns ih =>
    refine cons ?_ ih
    rw [reduce.eq_def]
    exact hf _ s rfl
  | included path span ns ih =>
    refine cons ?_ ih
    rw [reduce.eq_def]
    exact hf _ s rfl
  | context path span ns ih =>
    refine cons ?_ ih
    rw [reduce.eq_def]
    dsimp only
    split
    · refine ((requireContext_meets (L := AnyName) path s).and
        (requireContext_bound path s)).bind fun _ u hu => .pure ?_
      obtain ⟨hquiet, hbound⟩ := hu
      have hleft : Reduced e u [.context path span] u := .node (.nil u) (fun _ => hbound) rfl
      exact hleft.behind hquiet.toGrown hquiet.reported_eq
    · rename_i he
      exact .pure (.node (.nil s) (fun h => absurd h he) rfl)

/-! ### References -/

section

variable {depth : Nat} {stack : Stack} {node : Node} {path : String}
  (hd : ∀ stack ns s, (reduceAll e (follow e depth stack) ns).Meets s (Reduced e s) fun _ => True)

include hd

/-- A document in place of a reference, or the reference where nothing can be loaded. -/
lemma importDocument_reduced (hc : node.children = []) (hn : e.strict = false → e.loader = none →
      Stays e s.bindings node ∧ node.reference? = some ("import", path)) :
    (importDocument e (follow e depth) stack node path).Meets s (Reduced e s) fun _ => True := by
  unfold importDocument
  split
  · rename_i hloader
    dsimp only
    split
    · exact .fail trivial
    · rename_i he
      obtain ⟨hstays, href⟩ := hn (by simpa using he) hloader
      exact .bind (P := fun _ t => Reduced e s [node] t)
        (.report (.left hstays hc href (.inl rfl))) fun _ t ht => .pure ht
  · rename_i l hl
    refine ((openDocument_meets (L := AnyName) hl stack path s).mono (fun _ _ h => h)
      fun _ _ => trivial).bind ?_
    rintro ⟨key, nodes⟩ _ ⟨rfl, -⟩
    refine (enter_reported nodes _).bind fun _ t ht => ?_
    exact (hd _ nodes t).mono (fun _ _ h => h.behind ht.1 ht.2) fun _ h => h

/-- A part in place of a reference to it, or a document, or the reference where there is neither. -/
lemma includePart_reduced {span : Span} :
    (includePart e (follow e depth) stack (.included path span) path).Meets s (Reduced e s)
      fun _ => True := by
  unfold includePart
  refine .get_bind ?_
  split
  · split
    · exact .fail trivial
    · exact hd _ _ s
  · split
    · rename_i hfile
      have hloader := (Bool.and_eq_true_iff.mp hfile).2
      refine importDocument_reduced hd rfl fun _ hnone => ?_
      rw [hnone] at hloader
      cases hloader
    · dsimp only
      split
      · exact .fail trivial
      · rename_i he
        have hstays : Stays e s.bindings (.included path span) := by simpa [Stays] using he
        exact .bind (P := fun _ t => Reduced e s [.included path span] t)
          (.report (.left hstays rfl rfl (.inr rfl))) fun _ t ht => .pure ht

end

/-- What following references leaves, at any depth. -/
lemma reduceAll_follow_reduced (depth : Nat) (stack : Stack) (ns : List Node) (s : State σ) :
    (reduceAll e (follow e depth stack) ns).Meets s (Reduced e s) fun _ => True := by
  induction depth generalizing stack ns s with
  | zero => exact reduceAll_reduced (fun _ _ _ => .throw trivial) ns s
  | succ depth ih =>
    refine reduceAll_reduced (fun n s hn => ?_) ns s
    cases n with
    | imported path span => exact importDocument_reduced ih rfl fun he hl => ⟨⟨he, hl⟩, rfl⟩
    | included path span => exact includePart_reduced ih
    | _ => cases hn

lemma evaluateIn_reduced (origin : Option String) (d : Document) (s : State σ) :
    (evaluateIn e origin d).Meets s (fun d' t => Reduced e s d'.children t) fun _ => True := by
  unfold evaluateIn
  refine (enter_reported d.children s).bind fun _ t ht => ?_
  refine (reduceAll_follow_reduced _ _ d.children t).bind fun ms u hu => .pure ?_
  exact hu.behind ht.1 ht.2

/-- What a whole evaluation leaves. -/
lemma evaluate_reduced {origin : Option String} {d : Document} {b : Bindings} {w : σ} {r : Result}
    (h : (evaluate e origin d b w).1 = .ok r) :
    ∃ t : State σ, Reduced e ⟨b, [], [], w⟩ r.document.children t ∧ t.bindings = r.bindings ∧
      t.issues = r.issues := by
  rw [evaluate_eq] at h
  rcases hr : (evaluateIn e origin d).on ⟨b, [], [], w⟩ with ⟨f | d', t⟩ <;> rw [hr] at h
  · cases h
  · obtain rfl := Except.ok.inj h
    exact ⟨t, (evaluateIn_reduced origin d _).of_ok hr, rfl, rfl⟩

end Evaluation

open Evaluation

variable {σ : Type}

/-- **The shape of an evaluated tree**: at no depth is there a conditional; under strictness there
is no reference, and with a loader there is no import. The problems that are reported with
references are, one by one and in order, those references that are left in the tree. -/
theorem evaluate_shape (e : Setup σ) (origin : Option String) (d : Document) (b : Bindings) (w : σ)
    {r : Evaluation.Result} (h : (evaluate e origin d b w).1 = .ok r) :
    (∀ c t f span, Node.conditional c t f span ∉ Node.preorderAll r.document.children) ∧
      (e.strict = true → ∀ path span,
        Node.imported path span ∉ Node.preorderAll r.document.children ∧
          Node.included path span ∉ Node.preorderAll r.document.children) ∧
      (e.loader.isSome = true → ∀ path span,
        Node.imported path span ∉ Node.preorderAll r.document.children) ∧
      r.issues.filterMap Issue.reference? =
        (Node.preorderAll r.document.children).filterMap Node.reference? := by
  obtain ⟨t, hreduced, -, hissues⟩ := evaluate_reduced h
  rw [← Node.walk_eq_preorderAll]
  refine ⟨fun c t f span hmem => hreduced.stays _ hmem, fun he path span => ?_,
    fun hloader path span hmem => ?_, ?_⟩
  · constructor
    · intro hmem
      have hlenient := (hreduced.stays _ hmem).1
      rw [he] at hlenient
      cases hlenient
    · intro hmem
      have hlenient : e.strict = false := hreduced.stays _ hmem
      rw [he] at hlenient
      cases hlenient
  · rw [(hreduced.stays _ hmem).2] at hloader
    cases hloader
  · have hreported := hreduced.reported
    rw [State.reported, hissues] at hreported
    exact hreported

/-- A section that refers to what is missing, and is included once more. -/
theorem evaluate_shape_missing :
    let d := (parse
      "[#IF x][#SECTION s][#INCLUDE a][#IMPORT b][END SECTION][END IF][#INCLUDE s]").document
    let e : Setup Unit := {}
    ∃ r, (evaluate e none d [("x", .int 1)] ()).1 = .ok r ∧
      r.issues.filterMap Issue.reference? =
        [("include", "a"), ("import", "b"), ("include", "a"), ("import", "b")] ∧
      (Node.preorderAll r.document.children).filterMap Node.reference? =
        r.issues.filterMap Issue.reference? := by
  intro d e
  obtain ⟨r, hr, hissues⟩ : ∃ r, (evaluate e none d [("x", .int 1)] ()).1 = .ok r ∧
      r.issues.filterMap Issue.reference? =
        [("include", "a"), ("import", "b"), ("include", "a"), ("import", "b")] :=
    ⟨_, by with_unfolding_all rfl, by with_unfolding_all rfl⟩
  exact ⟨r, hr, hissues, (evaluate_shape e none d [("x", .int 1)] () hr).2.2.2.symm⟩

/-! ### Rendering -/

namespace Render

variable {p : Policy} {b : Bindings} {fault : Error}

/-- An error in a slot is that of a name that is not bound, where there is no default. -/
lemma slot_error {name : String} {hint : Option Hint} {default : Option String}
    (h : slot p b name hint default = .error (.error fault)) :
    default = none ∧ Variable.lookup name b = .ok none ∧
      fault = .render (.missingVariable name) := by
  unfold slot at h
  rcases hl : Variable.lookup name b with k | _ | v
  · rw [hl] at h
    cases h
  · rw [hl] at h
    rcases default with _ | text
    · change (if p.raisesOnMissing then fail (.missingVariable name) else pure "") =
        .error (.error fault) at h
      split at h
      · cases h
        exact ⟨rfl, rfl, rfl⟩
      · cases h
    · cases h
  · rw [hl] at h
    change ofValue (v.format hint) = .error (.error fault) at h
    rcases hv : v.format hint with k | text
    · rw [hv] at h
      cases h
    · rw [hv] at h
      cases h

/-- A context reference with content is rendered. -/
lemma context_of_success {path : String} {r : Context.Result}
    (hb : Context.bound? b path = some r) (hr : r.success = true) :
    ∃ text, context p b path = .ok text := by
  have hcontent : r.content.isSome = true := (Bool.and_eq_true_iff.mp hr).2
  obtain ⟨c, hc⟩ := Option.isSome_iff_exists.mp hcontent
  refine ⟨c.asText, ?_⟩
  unfold context
  simp only [hb, hr, hc]

/-- Where nothing stays but what a strict evaluation leaves, an error is that of a slot. -/
lemma nodes_error_of_stays {σ : Type} {e : Setup σ} (he : e.strict = true) {ns : List Node}
    (hns : ∀ n ∈ Node.walk ns, Stays e b n) (h : nodes p b ns = .error (.error fault)) :
    ∃ name hint span, Node.slot name hint none span ∈ Node.walk ns ∧
      Variable.lookup name b = .ok none ∧ fault = .render (.missingVariable name) := by
  rw [← nodes_leaves, nodes_error_iff] at h
  obtain ⟨before, n, behind, -, hleaves, -, hn⟩ := h
  have hmem : n ∈ Node.leaves ns := by simp [hleaves]
  have hwalk := Node.mem_walk_of_mem_leaves hmem
  have hstays := hns n hwalk
  cases n with
  | text content span => cases hn
  | slot name hint default span =>
    obtain ⟨rfl, hlookup, hfault⟩ := slot_error hn
    exact ⟨name, hint, span, hwalk, hlookup, hfault⟩
  | part name cs span => exact absurd rfl (Node.ne_part_of_mem_leaves hmem name cs span)
  | conditional c t f span => exact absurd hstays id
  | imported path span =>
    rw [Stays, he] at hstays
    cases hstays.1
  | included path span =>
    rw [Stays, he] at hstays
    cases hstays
  | context path span =>
    obtain ⟨r, hb, hr⟩ := hstays he
    obtain ⟨text, htext⟩ := context_of_success (p := p) hb hr
    change context p b path = _ at hn
    rw [htext] at hn
    cases hn

end Render

/-- **A strict evaluation leaves nothing unresolved to a renderer**: every context
reference in the tree has content bound to it in the end, and the only error that rendering the
tree can come to, under any policy, is a variable that is not bound and has no default. -/
theorem render_error_of_evaluate (e : Setup σ) (p : Render.Policy) (f : Render.Finish)
    (origin : Option String) (d : Document) (b : Bindings) (w : σ) {r : Evaluation.Result}
    (he : e.strict = true) (h : (evaluate e origin d b w).1 = .ok r) :
    (∀ path span, Node.context path span ∈ Node.preorderAll r.document.children →
      ∃ result, Context.bound? r.bindings path = some result ∧ result.success = true) ∧
    ∀ fault, render p f r.bindings r.document.children = .error (.error fault) →
      ∃ name hint span, Node.slot name hint none span ∈ Node.preorderAll r.document.children ∧
        Variable.lookup name r.bindings = .ok none ∧ fault = .render (.missingVariable name) := by
  obtain ⟨t, hreduced, hbindings, -⟩ := evaluate_reduced h
  have hstays := hreduced.stays
  rw [hbindings] at hstays
  rw [← Node.walk_eq_preorderAll]
  refine ⟨fun path span hmem => hstays _ hmem he, fun fault hfault => ?_⟩
  exact Render.nodes_error_of_stays he hstays (render_error_iff.mp hfault)

/-- The context of an imported section that is included once more, and a variable that is
missing. -/
theorem render_error_of_evaluate_imported :
    let e : Setup Unit :=
      { strict := true
        resolver := some ⟨fun paths => pure (.ok (paths.map fun p => (p, .ok p ⟨"", p, none⟩)))⟩
        loader := some (Import.fixed [("m", "[#SECTION s]#context(bio)[END SECTION]{{x}}")]) }
    let d := (parse "[#IMPORT m][#INCLUDE s]").document
    ∃ r, (evaluate e none d [] ()).1 = .ok r ∧
      render ⟨true, .empty⟩ {} r.bindings r.document.children =
        .error (.error (.render (.missingVariable "x"))) ∧
      ∃ result, Context.bound? r.bindings "bio" = some result ∧ result.success = true := by
  intro e d
  obtain ⟨r, hr, hfault, s, span, rest, hnodes⟩ : ∃ r, (evaluate e none d [] ()).1 = .ok r ∧
      render ⟨true, .empty⟩ {} r.bindings r.document.children =
        .error (.error (.render (.missingVariable "x"))) ∧
      ∃ s span rest, Node.preorderAll r.document.children = s :: .context "bio" span :: rest :=
    ⟨_, by with_unfolding_all rfl, by with_unfolding_all rfl, _, _, _, by with_unfolding_all rfl⟩
  refine ⟨r, hr, hfault, ?_⟩
  refine (render_error_of_evaluate e ⟨true, .empty⟩ {} none d [] () rfl hr).1 "bio" span ?_
  simp [hnodes]

end Stencil
