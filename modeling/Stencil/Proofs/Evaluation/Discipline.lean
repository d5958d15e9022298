import Stencil.Proofs.Evaluation.Growth
import Stencil.Proofs.Render
import Stencil.Proofs.Template.Derived
import Stencil.Proofs.Value.Written

/-!
Which failures are no errors of this library.

A reference is followed to a depth that is never used up, whatever documents there are
(`room_initial`), so that an evaluation without an error ends, or else comes to an index that is
too long to be read. Rendering fails in such a way at a slot: its name has an index of that kind,
or its value cannot be written.
-/

namespace Stencil

namespace Evaluation

variable {σ : Type} {e : Setup σ}

/-! ### Evaluations -/

/-- The condition of some node looks the name up. -/
def InConditions (ns : List Node) (x : String) : Prop :=
  ∃ c t f span, Node.conditional c t f span ∈ Node.walk ns ∧ x ∈ c.names

/-- A condition in the trees, or in a document that can be imported, looks the name up. -/
def Setup.LooksUp (e : Setup σ) (ns : List Node) (x : String) : Prop :=
  InConditions ns x ∨ ∃ ms, e.Imports ms ∧ InConditions ms x

/-- What an evaluation that has a result leaves, and how one without fails. -/
lemma evaluateIn_meets {N : Node → Prop} {L : String → Prop} (hkind : Kind N L) {d : Document}
    (hmain : ∀ n ∈ Node.walk d.children, N n)
    (himports : ∀ ms, e.Imports ms → ∀ n ∈ Node.walk ms, N n) (origin : Option String)
    (b : Bindings) (w : σ) : (evaluateIn e origin d).Meets ⟨b, [], [], w⟩
      (fun d' t => Grown ⟨b, [], [], w⟩ t ∧ Ready N t d'.children) (Excused e L) := by
  unfold evaluateIn
  refine (enter_meets (admitted_main (e := e) hmain) (settled_initial b w)).bind fun _ t ht => ?_
  obtain ⟨hg, hs, hr⟩ := ht
  have hreduce := reduceAll_follow_meets hkind
    (fun _ _ _ ms h => admitted_import h (himports ms h))
    (depthBound e d.children) ⟨origin, [], []⟩ d.children t hs hr
  refine (hreduce.mono (fun _ _ h => h) ?_).bind fun ms u hu => .pure ⟨hg.trans hu.grown, hu.ready⟩
  rintro f (h | ⟨-, h⟩)
  · exact h
  · exact absurd (room_initial (parts_lt_depthBound e d.children) origin) h

/-- An evaluation fails in another way than by an error only for an index too long to be read, in
a name that some condition looks up. -/
lemma evaluate_error {origin : Option String} {d : Document} {b : Bindings} {w w' : σ}
    {f : Failure} (h : evaluate e origin d b w = (.error f, w')) :
    Excused e (e.LooksUp d.children) f := by
  let N (n : Node) : Prop :=
    ∀ c t f span, n = .conditional c t f span → ∀ x ∈ c.names, e.LooksUp d.children x
  have hkind : Kind N (e.LooksUp d.children) := {
    part := by
      rintro _ _ _ _ _ _ _ _ _ ⟨⟩
    looks := fun c t f span h => h c t f span rfl }
  have hmeets := evaluateIn_meets (e := e) hkind (d := d) ?main ?imports origin b w
  · rw [evaluate_eq] at h
    rcases hx : (evaluateIn e origin d).on ⟨b, [], [], w⟩ with ⟨fault | a, t⟩ <;> rw [hx] at h
    · cases h
      exact hmeets.of_error hx
    · cases h
  case main =>
    rintro _ hn c t f span rfl x hx
    exact .inl ⟨c, t, f, span, hn, hx⟩
  case imports =>
    rintro ms hms _ hn c t f span rfl x hx
    exact .inr ⟨ms, hms, c, t, f, span, hn, hx⟩

/-- What an evaluation with a result leaves. -/
lemma evaluate_ok {N : Node → Prop} {L : String → Prop} (hkind : Kind N L) {d : Document}
    (hmain : ∀ n ∈ Node.walk d.children, N n)
    (himports : ∀ ms, e.Imports ms → ∀ n ∈ Node.walk ms, N n) {origin : Option String}
    {b : Bindings} {w w' : σ} {r : Result} (h : evaluate e origin d b w = (.ok r, w')) :
    (∀ P : Bindings → Prop, (∀ b results, P b → P (Context.bind b results)) → P b →
      P r.bindings) ∧ ∀ n ∈ Node.walk r.document.children, N n := by
  rw [evaluate_eq] at h
  rcases hx : (evaluateIn e origin d).on ⟨b, [], [], w⟩ with ⟨fault | a, t⟩ <;> rw [hx] at h
  · cases h
  · cases h
    obtain ⟨hg, hr⟩ := (evaluateIn_meets hkind hmain himports origin b w).of_ok hx
    exact ⟨hg.kept, fun n hn => (hr n hn).1⟩

end Evaluation

/-! ### Rendering -/

namespace Render

variable {p : Policy} {b : Bindings} {ns : List Node}

/-- The slot cannot be shown: its name comes to an index that is too long to be read, or its
value does not fit its hint. -/
def Unshown (b : Bindings) : Node → Prop
  | .slot name hint _ _ =>
    (b.find? name = none ∧
      ∃ k, Variable.Blocked (Value.ofBindings b) (Variable.segments name) k) ∨
    ∃ v, Variable.lookup name b = .ok (some v) ∧ v.fits hint = false
  | _ => False

lemma slot_error_iff {name : String} {hint : Option Hint} {default : Option String} {span : Span} :
    (∃ f, slot p b name hint default = .error f ∧ f.isOwn = false) ↔
      Unshown b (.slot name hint default span) := by
  unfold slot Unshown
  have hread {o : Option Value} (h : Variable.lookup name b = .ok o) : ¬ (b.find? name = none ∧
      ∃ k, Variable.Blocked (Value.ofBindings b) (Variable.segments name) k) := by
    rintro ⟨hnone, k, hk⟩
    rw [Variable.lookup_error_iff.mpr ⟨k, rfl, hnone, hk⟩] at h
    cases h
  rcases hl : Variable.lookup name b with fault | _ | v
  · obtain ⟨k, rfl, hnone, hblocked⟩ := Variable.lookup_error_iff.mp hl
    exact ⟨fun _ => .inl ⟨hnone, k, hblocked⟩, fun _ => ⟨_, rfl, rfl⟩⟩
  · constructor
    · rintro ⟨f, hf, hown⟩
      rcases default with _ | d
      · change (if p.raisesOnMissing then fail (.missingVariable name) else pure "") =
          .error f at hf
        split at hf
        · cases hf
          cases hown
        · cases hf
      · cases hf
    · rintro (h | ⟨v, h, -⟩)
      · exact absurd h (hread hl)
      · cases hl.symm.trans h
  · have hfits := Value.isOk_format hint v
    change (∃ f, ofValue (v.format hint) = .error f ∧ f.isOwn = false) ↔ _
    constructor
    · rintro ⟨f, hf, -⟩
      refine .inr ⟨v, hl, ?_⟩
      rw [← hfits]
      rcases hv : v.format hint with fault | text
      · rfl
      · rw [hv] at hf
        cases hf
    · rintro (h | ⟨w, h, hw⟩)
      · exact absurd h (hread hl)
      · obtain rfl := Option.some.inj (Except.ok.inj (hl.symm.trans h))
        rw [hw] at hfits
        obtain ⟨fault, hv⟩ := Except.isOk_eq_false.mp hfits
        exact ⟨.value fault, by rw [hv]; rfl, rfl⟩

/-- A node that is no part fails without an error exactly if it is a slot that cannot be shown. -/
lemma node_error_iff {n : Node} (hn : n ∈ Node.leaves ns) :
    (∃ f, node p b n = .error f ∧ f.isOwn = false) ↔ Unshown b n := by
  cases n with
  | slot name hint default span => exact slot_error_iff
  | part name cs span => exact absurd rfl (Node.ne_part_of_mem_leaves hn name cs span)
  | text content span => simp [node, Unshown]
  | conditional c t f span => simp [node, Unshown, fail, Failure.isOwn]
  | imported path span =>
    by_cases hp : p.strict <;> simp [node, Unshown, fail, hp, Failure.isOwn]
  | included path span =>
    by_cases hp : p.strict <;> simp [node, Unshown, fail, hp, Failure.isOwn]
  | context path span =>
    have habsent (reason : String) : ¬ ∃ f, context.absent p path reason = .error f ∧
        f.isOwn = false := by
      by_cases hp : p.strict <;> simp [context.absent, fail, hp, Failure.isOwn]
    simp only [node, Unshown, iff_false, context]
    split
    · split
      · simp
      · exact habsent _
    · exact habsent _

/-- Trees fail to be rendered without an error exactly if a slot in them cannot be shown and
everything in front of it can. -/
lemma nodes_error_not_own_iff (p : Policy) (b : Bindings) (ns : List Node) :
    (∃ f, nodes p b ns = .error f ∧ f.isOwn = false) ↔
      ∃ before n behind text, Node.leaves ns = before ++ n :: behind ∧
        nodes p b before = .ok text ∧ Unshown b n := by
  constructor
  · rintro ⟨f, hf, hown⟩
    rw [← nodes_leaves] at hf
    obtain ⟨before, n, behind, text, hns, htext, hn⟩ := nodes_error_iff.mp hf
    exact ⟨before, n, behind, text, hns, htext,
      (node_error_iff (by rw [hns]; simp)).mp ⟨f, hn, hown⟩⟩
  · rintro ⟨before, n, behind, text, hns, htext, hn⟩
    obtain ⟨f, hf, hown⟩ := (node_error_iff (p := p) (by rw [hns]; simp)).mpr hn
    refine ⟨f, ?_, hown⟩
    rw [← nodes_leaves]
    exact nodes_error_iff.mpr ⟨before, n, behind, text, hns, htext, hf⟩

end Render

/-! ### Runs from source to text -/

open Evaluation

variable {σ : Type}

/-- The evaluation comes to a condition that looks up a name with an index too long to be read. -/
def Evaluation.EndsOverlong (e : Setup σ) (origin : Option String) (d : Document) (b : Bindings)
    (w : σ) : Prop :=
  ∃ name k w', e.LooksUp d.children name ∧ Variable.Overlong (Variable.segments name) k ∧
    evaluate e origin d b w = (.error (.value (.digitsTooLong k)), w')

/-- The evaluation has a result, and rendering it comes to a slot that cannot be shown: what
stands in front of the slot can be rendered. -/
def Evaluation.ComesToUnshown (e : Setup σ) (p : Render.Policy) (origin : Option String)
    (d : Document) (b : Bindings) (w : σ) : Prop :=
  ∃ r w' before n behind text, evaluate e origin d b w = (.ok r, w') ∧
    Node.leaves r.document.children = before ++ n :: behind ∧
    Render.nodes p r.bindings before = .ok text ∧ Render.Unshown r.bindings n

section

variable {e : Setup σ} {p : Render.Policy} {finish : Render.Finish} {origin : Option String}
  {source : String} {b : Bindings} {w w' : σ} {f : Failure}

/-- A failure that is no error of this library comes from an index or from a slot. -/
lemma causes_of_not_own (hjudge : ¬ e.Stalls)
    (h : renderTemplate e p finish origin source b w = (.error f, w')) (hown : f.isOwn = false) :
    (parse source).success = true ∧ (EndsOverlong e origin (parse source).document b w ∨
      ComesToUnshown e p origin (parse source).document b w) := by
  rcases hs : (parse source).success
  · rw [renderTemplate_of_faulty hs] at h
    cases h
    cases hown
  refine ⟨rfl, ?_⟩
  rw [renderTemplate_of_success hs] at h
  rcases he : evaluate e origin (parse source).document b w with ⟨fault | r, w''⟩ <;> rw [he] at h
  · cases h
    cases evaluate_error he with
    | own error => cases hown
    | overlong name k hn hk => exact .inl ⟨name, k, _, hn, hk, he⟩
    | stalled h => exact absurd h hjudge
  · obtain ⟨hf, -⟩ := Prod.mk.inj h
    obtain ⟨before, n, behind, text, hn⟩ :=
      (Render.nodes_error_not_own_iff _ _ _).mp ⟨f, render_error_iff.mp hf, hown⟩
    exact .inr ⟨r, w'', before, n, behind, text, he, hn⟩

lemma not_own_of_endsOverlong (hs : (parse source).success = true)
    (h : EndsOverlong e origin (parse source).document b w) :
    ∃ f w', renderTemplate e p finish origin source b w = (.error f, w') ∧ f.isOwn = false := by
  obtain ⟨name, k, w', -, -, he⟩ := h
  refine ⟨.value (.digitsTooLong k), w', ?_, rfl⟩
  rw [renderTemplate_of_success hs, he]

lemma not_own_of_comesToUnshown (hs : (parse source).success = true)
    (h : ComesToUnshown e p origin (parse source).document b w) :
    ∃ f w', renderTemplate e p finish origin source b w = (.error f, w') ∧ f.isOwn = false := by
  obtain ⟨r, w', before, n, behind, text, he, hn⟩ := h
  obtain ⟨f, hf, hown⟩ :=
    (Render.nodes_error_not_own_iff p _ _).mpr ⟨before, n, behind, text, hn⟩
  refine ⟨f, w', ?_, hown⟩
  rw [renderTemplate_of_success hs, he]
  dsimp only
  rw [render_error_iff.mpr hf]

end

/-- **Error discipline**: with a judge that does not keep it waiting for ever, a run from source to
text fails in another way than by an error of this library exactly if a condition that it decides
looks up a name with an index too long to be read, or else a slot that it comes to cannot be
shown: its name has such an index, or its value has an integer that is too long or a key that JSON
has not. No failure of a judge, a resolver or an operator comes through, and no circle of
references keeps the run from ending. -/
theorem failure_not_own_iff (e : Setup σ) (hjudge : ¬ e.Stalls) (p : Render.Policy)
    (finish : Render.Finish) (origin : Option String) (source : String) (b : Bindings) (w : σ) :
    (∃ f w', renderTemplate e p finish origin source b w = (.error f, w') ∧ f.isOwn = false) ↔
      (parse source).success = true ∧ (EndsOverlong e origin (parse source).document b w ∨
        ComesToUnshown e p origin (parse source).document b w) := by
  constructor
  · rintro ⟨f, w', h, hown⟩
    exact causes_of_not_own hjudge h hown
  · rintro ⟨hs, h | h⟩
    · exact not_own_of_endsOverlong hs h
    · exact not_own_of_comesToUnshown hs h

/-- A mapping with a tuple for a key has no text. -/
theorem failure_not_own_tuple_key :
    ∃ f w', renderTemplate ({} : Setup Unit) {} {} none "{{x}}"
      [("x", .dict [(.tuple [.int 1, .int 2], .int 3)])] () = (.error f, w') ∧
        f.isOwn = false := by
  let v : Value := .dict [(.tuple [.int 1, .int 2], .int 3)]
  have hjudge : ¬ ({} : Setup Unit).Stalls := by
    rintro ⟨-, judge, h, -⟩
    cases h
  obtain ⟨span, hslot⟩ : ∃ span, Node.leaves (parse "{{x}}").document.children =
      [.slot "x" none none span] := ⟨_, by with_unfolding_all rfl⟩
  refine (failure_not_own_iff {} hjudge {} {} none _ _ ()).mpr ⟨by decide +kernel, .inr
    ⟨⟨(parse "{{x}}").document, [("x", v)], [], []⟩, (), [], _, [], "",
      by with_unfolding_all rfl, hslot, rfl, Or.inr ⟨v, rfl, ?_⟩⟩⟩
  decide +kernel

/-- A name in a slot or a condition of the trees. -/
def Node.Mentions (ns : List Node) (x : String) : Prop := InConditions ns x ∨ x ∈ Node.slotNames ns

/-- **Templates of JSON-like data**: as long as every bound value can be written as JSON and no
index in the template or in what it can import is too long to be read, a run has a text or fails
by an error of this library. -/
theorem isOwn_of_writable (e : Setup σ) (hjudge : ¬ e.Stalls) (p : Render.Policy)
    (finish : Render.Finish) (origin : Option String) (source : String) (b : Bindings) (w w' : σ)
    (hb : b.Writable)
    (hmain : ∀ x, Node.Mentions (parse source).document.children x →
      ∀ k, ¬ Variable.Overlong (Variable.segments x) k)
    (himports : ∀ ns, e.Imports ns → ∀ x, Node.Mentions ns x →
      ∀ k, ¬ Variable.Overlong (Variable.segments x) k)
    {f : Failure} (h : renderTemplate e p finish origin source b w = (.error f, w')) :
    f.isOwn = true := by
  by_contra hown
  have hown : f.isOwn = false := by simpa using hown
  obtain ⟨-, ⟨x, k, _, hx, hk, -⟩ | ⟨r, _, before, n, behind, text, hr, hns, -, hn⟩⟩ :=
    causes_of_not_own hjudge h hown
  · rcases hx with hx | ⟨ns, hi, hx⟩
    · exact hmain x (.inl hx) k hk
    · exact himports ns hi x (.inl hx) k hk
  · let N (n : Node) : Prop :=
      ∀ x, Node.slotName? n = some x → ∀ k, ¬ Variable.Overlong (Variable.segments x) k
    have hkind : Kind N AnyName := {
      part := by
        rintro _ _ _ _ _ _ ⟨⟩
      looks := fun _ _ _ _ _ _ _ => trivial }
    obtain ⟨hkept, hslots⟩ := evaluate_ok hkind
      (fun n hn x hx => hmain x (.inr (Node.mem_slotNames.mpr ⟨n, hn, hx⟩)))
      (fun ns hi n hn x hx => himports ns hi x (.inr (Node.mem_slotNames.mpr ⟨n, hn, hx⟩))) hr
    have hbound : r.bindings.Writable := hkept _ (fun _ results h => h.bind results) hb
    have hmem : n ∈ Node.walk r.document.children :=
      Node.mem_walk_of_mem_leaves (by rw [hns]; simp)
    cases n with
    | slot name hint default span =>
      rcases hn with ⟨-, k, hk⟩ | ⟨v, hv, hfits⟩
      · exact hslots _ hmem name rfl k hk.overlong
      · rw [Value.fits_of_isWritable (hbound.of_lookup hv)] at hfits
        cases hfits
    | _ => exact hn

end Stencil
