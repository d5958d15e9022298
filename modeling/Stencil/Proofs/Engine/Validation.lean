import Mathlib.Data.List.Sort
import Stencil.Engine.Validate
import Stencil.Proofs.Evaluation.Causes

/-!
What a check of a template says about its evaluations.

The check looks at every node and condition of the document, an evaluation at those that it comes
to. As long as no other document is put in place, all of these are nodes of the document that the
check has seen (`visits_orderly`), so whatever the check would have warned about is not a cause for
an evaluation to fail.

There is one exception. The check takes a name with a dot in it for the path of a file, an
evaluation only one with a slash or with the extension of templates. An include of another name
with a dot is taken for an include of a part, and nobody warns that there is no such part
(`IsMistaken`).
-/

namespace Stencil

open Evaluation

/-- The names of the parts that the document defines. -/
def Document.partNames (d : Document) : List String := (Node.parts d.children).map (·.1)

namespace Engine

variable {σ : Type} {e : Engine σ} {d : Document} {origin : Option String} {b : Bindings} {w : σ}
  {defined : List String} {n : Node} {x : Point σ}

/-! ### Silent checks -/

/-- The check has nothing to say about the node, and the node does not stand for another
document. -/
structure IsSilent (e : Engine σ) (defined : List String) (n : Node) : Prop where
  warnings : e.nodeWarnings defined n = []
  inside : n.refersOut = false

/-- The check takes the name for the path of a file, an evaluation takes it for that of a part. -/
structure IsMistaken (name : String) : Prop where
  dot : '.' ∈ name.toList
  slash : '/' ∉ name.toList
  extension : Text.endsWith templateExtension name = false

lemma warnings_eq_nil :
    e.warnings d = [] ↔ ∀ n ∈ Node.walk d.children, e.nodeWarnings d.partNames n = [] := by
  rw [← List.flatMap_eq_nil_iff, ← List.length_eq_zero_iff, warnings, List.length_mergeSort,
    List.length_eq_zero_iff]
  rfl

lemma contextWarnings_eq_nil {path : String} {start : Position} :
    contextWarnings path start = [] ↔ Context.pathFault? path = none := by
  unfold contextWarnings
  rcases Context.pathFault? path with _ | fault <;> simp

namespace IsSilent

/-- The check has looked at the conditions of the node. -/
lemma conditionWarnings {c : Condition} (h : e.IsSilent defined n) (hc : c ∈ n.conditions) :
    e.conditionWarnings c = [] := by
  cases n with
  | conditional c₀ yes no span => exact List.flatMap_eq_nil_iff.mp h.warnings c hc
  | _ => cases hc

/-- An include is one of a part that is defined, or of a name that is mistaken for a path. -/
lemma included {name : String} {span : Span} (h : e.IsSilent defined (.included name span))
    (hname : name ∉ defined) : IsMistaken name := by
  obtain ⟨hslash, hextension⟩ := Bool.or_eq_false_iff.mp h.inside
  have hslash : '/' ∉ name.toList := by simpa using hslash
  have hwarnings := h.warnings
  unfold nodeWarnings isPartName at hwarnings
  exact ⟨by_contra fun hdot => by simp [hname, hslash, hdot] at hwarnings, hslash, hextension⟩

end IsSilent

/-! ### Points of an evaluation -/

lemma kind_isSilent : Kind (e.IsSilent defined) AnyName where
  part _ _ _ _ h := ⟨h.warnings, rfl⟩
  looks _ _ _ _ _ _ _ := trivial

/-- A document that the check is silent about is evaluated at nodes that it is silent about. -/
lemma visits_orderly (hsilent : ∀ n ∈ Node.walk d.children, e.IsSilent d.partNames n)
    (hx : e.setup.Visits origin d.children b w x) :
    Orderly e.setup (e.IsSilent d.partNames) d.partNames x := by
  have hadm : e.setup.Admits (e.IsSilent d.partNames) d.partNames := by
    intro n hn hout
    rw [hn.inside] at hout
    cases hout
  have hdepth := parts_lt_depthBound e.setup d.children
  rw [Setup.partNames, List.length_append] at hdepth
  refine (hx.orderly_grown kind_isSilent ⟨hsilent, fun _ => List.mem_map_of_mem⟩ hadm ?_).1
  change ((Node.parts d.children).map (·.1)).length + _ < _
  omega

/-- A cause that the check does not see: no operator and no judge is missing, what is asked of
context has a path that may be asked for, and a part that is missing has a name that is mistaken
for a path. -/
structure Unforeseen (defined : List String) (cause : Cause) : Prop where
  operator : ∀ op, cause ≠ .unknownOperator op
  judge : cause ≠ .noJudge
  context : ∀ path r, cause = .context path r → Context.pathFault? path = none
  part : ∀ name, cause = .partNotFound name → name ∉ defined ∧ IsMistaken name

/-- Wherever an evaluation is stuck, the check has not seen the cause. -/
lemma unforeseen_of_stuck {cause : Cause} {f : Failure}
    (hsilent : ∀ n ∈ Node.walk d.children, e.IsSilent d.partNames n)
    (hx : e.setup.Visits origin d.children b w x) (h : Stuck e.setup x cause f) :
    Unforeseen d.partNames cause := by
  have horder := visits_orderly hsilent hx
  have condition {c : Condition} {s : State σ}
      (h : Orderly e.setup (e.IsSilent d.partNames) d.partNames (.condition c, s)) :
      e.conditionWarnings c = [] := by
    obtain ⟨n, hn, hc⟩ := h.fits.kind
    exact hn.conditionWarnings hc
  cases h with
  | @unknownOperator name op arg span s hstrict hop =>
    have hop : (e.operators.find? op).isNone = true := Option.isNone_iff_eq_none.mpr hop
    have hwarnings := condition horder
    rw [conditionWarnings, if_pos hop] at hwarnings
    cases hwarnings
  | noJudge hlookup hjudge =>
    have hjudge : e.judge.isNone = true := Option.isNone_iff_eq_none.mpr hjudge
    have hwarnings := condition horder
    rw [conditionWarnings, if_pos hjudge] at hwarnings
    cases hwarnings
  | present =>
    refine ⟨nofun, nofun, ?_, nofun⟩
    rintro _ _ ⟨⟩
    exact contextWarnings_eq_nil.mp (condition horder)
  | context =>
    refine ⟨nofun, nofun, ?_, nofun⟩
    rintro _ _ ⟨⟩
    exact contextWarnings_eq_nil.mp horder.inOrder.ready.head.1.warnings
  | @partNotFound depth stack name span ns s hstrict hpart hfile =>
    refine ⟨nofun, nofun, nofun, ?_⟩
    rintro _ ⟨⟩
    have hundefined : name ∉ d.partNames := by
      intro hname
      have hknown := hx.knows hname
      rw [hpart] at hknown
      cases hknown
    exact ⟨hundefined, horder.inOrder.ready.head.1.included hundefined⟩
  | _ => exact ⟨nofun, nofun, nofun, nofun⟩

/-- A strict evaluation fails where it comes to an include of a part that is not defined. -/
lemma evaluate_of_undefined {depth : Nat} {stack : Stack} {name : String} {span : Span}
    {ns : List Node} {s : State σ}
    (hsilent : ∀ n ∈ Node.walk d.children, e.IsSilent d.partNames n)
    (hstrict : e.settings.strict = true)
    (hx : e.setup.Visits origin d.children b w (.trees depth stack (.included name span :: ns), s))
    (hname : name ∉ d.partNames) :
    (Stencil.evaluate e.setup origin d b w).1 =
      .error (.error (.evaluation (.partNotFound name))) := by
  have horder := (visits_orderly hsilent hx).inOrder
  obtain ⟨depth, rfl⟩ := Nat.exists_eq_succ_of_ne_zero hx.orderly.depth_ne_zero
  have hpart : s.parts.lookup name = none := by
    rcases hpart : s.parts.lookup name with _ | cs
    · rfl
    · exact absurd (horder.settled.of_lookup hpart).1 hname
  have hfile : Node.refersOut (.included name span) = false := horder.ready.head.1.inside
  refine (evaluate_error_iff _ _ _ _ _ _).mpr ⟨_, _, hx, .partNotFound hstrict hpart ?_⟩
  exact Bool.and_eq_false_iff.mpr (.inl hfile)

/-- **Silent checks**: if the check finds no fault and has nothing to warn about, and no node stands
for another document, then no evaluation of the source fails for an unknown operator, a judge that
is missing, a context path that may not be asked for or a part that is missing, with one exception:
the name of a missing part may have a dot in it, so that the check mistakes it for a path. Such an
include makes every strict evaluation fail that comes to it. -/
theorem evaluate_error_of_silent (e : Engine σ) (source : String) (b : Bindings) (w : σ)
    (hvalid : (e.validate source).errors = []) (hsilent : (e.validate source).warnings = [])
    (hinside : ∀ n ∈ Node.walk (parse source).document.children, n.refersOut = false) :
    let d := (parse source).document
    (∀ f, (e.evaluate source b w).1 = .error f →
      (∃ x cause, e.setup.Visits none d.children b w x ∧ Stuck e.setup x cause f) ∧
      ∀ x cause, e.setup.Visits none d.children b w x → Stuck e.setup x cause f →
        Unforeseen d.partNames cause) ∧
    (e.settings.strict = true → ∀ depth stack name span ns s,
      e.setup.Visits none d.children b w (.trees depth stack (.included name span :: ns), s) →
      name ∉ d.partNames →
        (e.evaluate source b w).1 = .error (.error (.evaluation (.partNotFound name)))) := by
  intro d
  have hclear (n : Node) (hn : n ∈ Node.walk d.children) : e.IsSilent d.partNames n :=
    ⟨warnings_eq_nil.mp hsilent n hn, hinside n hn⟩
  have hevaluate : e.evaluate source b w = Stencil.evaluate e.setup none d b w := by
    have hsuccess : (parse source).success = true := List.isEmpty_iff.mpr hvalid
    unfold evaluate
    rw [if_pos hsuccess]
  rw [hevaluate]
  constructor
  · intro f hf
    exact ⟨(evaluate_error_iff _ _ _ _ _ _).mp hf,
      fun x cause hx hstuck => unforeseen_of_stuck hclear hx hstuck⟩
  · intro hstrict depth stack name span ns s hx hname
    exact evaluate_of_undefined hclear hstrict hx hname

/-- An include of a file whose name has another extension: the check has nothing to say, and a
strict evaluation fails. -/
theorem evaluate_error_of_silent_dotted :
    let e : Engine Unit := { settings := { strict := true } }
    (e.validate "[#INCLUDE a.b]").errors = [] ∧ (e.validate "[#INCLUDE a.b]").warnings = [] ∧
      (e.evaluate "[#INCLUDE a.b]" [] ()).1 =
        .error (.error (.evaluation (.partNotFound "a.b"))) := by
  intro e
  obtain ⟨span, hparse⟩ : ∃ span,
      parse "[#INCLUDE a.b]" = ⟨⟨[.included "a.b" span], span⟩, []⟩ :=
    ⟨_, by with_unfolding_all rfl⟩
  have hwalk : Node.walk [.included "a.b" span] = [.included "a.b" span] := by
    rw [Node.walk_cons, Node.children, Node.walk_nil] <;> simp
  have hundefined : "a.b" ∉ (parse "[#INCLUDE a.b]").document.partNames := by
    rw [hparse, Document.partNames, Node.parts, hwalk]
    exact List.not_mem_nil
  have hvalid : (e.validate "[#INCLUDE a.b]").errors = [] :=
    congrArg Template.Parsed.errors hparse
  have hsilent : (e.validate "[#INCLUDE a.b]").warnings = [] := by
    refine warnings_eq_nil.mpr ?_
    rw [hparse, hwalk, List.forall_mem_singleton, nodeWarnings,
      show isPartName "a.b" = false by decide, Bool.and_false, if_neg Bool.false_ne_true]
  have hinside : ∀ n ∈ Node.walk (parse "[#INCLUDE a.b]").document.children,
      n.refersOut = false := by
    rw [hparse, hwalk, List.forall_mem_singleton]
    rfl
  have hstart := e.setup.visits_start none (parse "[#INCLUDE a.b]").document.children [] ()
  have hfails := (evaluate_error_of_silent e "[#INCLUDE a.b]" [] () hvalid hsilent hinside).2 rfl
  rw [hparse] at hstart hundefined hfails
  exact ⟨hvalid, hsilent, hfails _ _ _ _ _ _ hstart hundefined⟩

end Engine

end Stencil
