import Mathlib.Logic.Relation
import Stencil.Proofs.Evaluation.Growth

/-!
The course of an evaluation: the points that it comes to, one from another.

A point is something to do in a state: conditions to decide, or trees to reduce. `Leads` says
which points a point leads to at once, and an evaluation `Visits` those that it is led to from its
start, whatever becomes of it in the end. At every point the state and the stack are in order
(`Orderly`): what is known of a point carries over to those that it leads to.
-/

namespace Stencil

namespace Condition

variable {K : Condition → Prop} {b : Bindings} {c : Condition}

/-- All conditions in the condition are of the kind `K`, and the paths that it asks for are
bound. -/
def Fits (K : Condition → Prop) (b : Bindings) (c : Condition) : Prop :=
  (∀ x ∈ c.subterms, K x) ∧ ∀ p ∈ c.paths, (Context.bound? b p).isSome = true

lemma Fits.kind (h : c.Fits K b) : K c := h.1 c (mem_subterms_self c)

lemma Fits.grown {σ : Type} {s t : Evaluation.State σ} (h : c.Fits K s.bindings)
    (hg : Evaluation.Grown s t) : c.Fits K t.bindings := by
  refine ⟨h.1, fun p hp => ?_⟩
  obtain ⟨r, hr⟩ := Option.isSome_iff_exists.mp (h.2 p hp)
  rw [hg.bound p r hr]
  rfl

end Condition

/-- The conditions at the node are all of the kind `K`. -/
def Node.Asks (K : Condition → Prop) (n : Node) : Prop := ∀ c ∈ n.conditions, K c

/-- The condition is one at a node of the kind `N`. -/
def Condition.IsAt (N : Node → Prop) (c : Condition) : Prop := ∃ n, N n ∧ c ∈ n.conditions

lemma Condition.IsAt.kind {K : Condition → Prop} {c : Condition} (h : c.IsAt (Node.Asks K)) :
    K c := by
  obtain ⟨n, hn, hc⟩ := h
  exact hn c hc

namespace Evaluation

variable {σ : Type} {s t : State σ} {e : Setup σ} {K : Condition → Prop} {N : Node → Prop}
  {names : List String}

/-- Where the kind of conditions does not matter. -/
def AnyCondition (_ : Condition) : Prop := True

lemma asks_anyCondition (n : Node) : n.Asks AnyCondition := fun _ _ => trivial

lemma kind_asks : Kind (Node.Asks K) AnyName where
  part _ _ _ _ _ _ hc := by cases hc
  looks _ _ _ _ _ _ _ := trivial

/-! ### Points -/

/-- Something that an evaluation has to do. -/
inductive Work where
  | condition (c : Condition)
  /-- What is left of the operands of a conjunction. -/
  | all (cs : List Condition)
  /-- What is left of the operands of a disjunction. -/
  | any (cs : List Condition)
  /-- Trees to reduce, their references followed to a depth from a stack. -/
  | trees (depth : Nat) (stack : Stack) (ns : List Node)

/-- Something to do in a state. -/
abbrev Point (σ : Type) := Work × State σ

/-- The node refers to a document by the path, not to a part. -/
inductive RefersTo (s : State σ) : Node → String → Prop where
  | imported (path : String) (span : Span) : RefersTo s (.imported path span) path
  | included (path : String) (span : Span) (hpart : s.parts.lookup path = none)
    (hfile : (path.toList.contains '/' || Text.endsWith templateExtension path) = true) :
    RefersTo s (.included path span) path

lemma RefersTo.refersOut {n : Node} {path : String} (h : RefersTo s n path) :
    n.refersOut = true := by
  cases h with
  | imported => rfl
  | included _ _ _ hfile => exact hfile

/-- A document with the key is opened in place of the node. -/
def Opens (e : Setup σ) (stack : Stack) (n : Node) (s : State σ) (key : String)
    (ns : List Node) : Prop :=
  ∃ path loader, RefersTo s n path ∧ e.loader = some loader ∧
    (openDocument e loader stack path).on s = (.ok (key, ns), s)

/-- What an evaluation does at the first point has it come to the second. -/
inductive Leads (e : Setup σ) : Point σ → Point σ → Prop where
  | not {c : Condition} {span : Span} {s : State σ} :
    Leads e (.condition (.not c span), s) (.condition c, s)
  | and {cs : List Condition} {span : Span} {s : State σ} :
    Leads e (.condition (.and cs span), s) (.all cs, s)
  | or {cs : List Condition} {span : Span} {s : State σ} :
    Leads e (.condition (.or cs span), s) (.any cs, s)
  | allFirst {c : Condition} {cs : List Condition} {s : State σ} :
    Leads e (.all (c :: cs), s) (.condition c, s)
  | allRest {c : Condition} {cs : List Condition} {s t : State σ}
    (h : (holds e c).on s = (.ok true, t)) : Leads e (.all (c :: cs), s) (.all cs, t)
  | anyFirst {c : Condition} {cs : List Condition} {s : State σ} :
    Leads e (.any (c :: cs), s) (.condition c, s)
  | anyRest {c : Condition} {cs : List Condition} {s t : State σ}
    (h : (holds e c).on s = (.ok false, t)) : Leads e (.any (c :: cs), s) (.any cs, t)
  | condition {depth : Nat} {stack : Stack} {c : Condition} {a f : List Node} {span : Span}
    {ns : List Node} {s : State σ} :
    Leads e (.trees depth stack (.conditional c a f span :: ns), s) (.condition c, s)
  | branch {depth : Nat} {stack : Stack} {c : Condition} {a f : List Node} {span : Span}
    {ns : List Node} {s t : State σ} {v : Bool} (h : (holds e c).on s = (.ok v, t)) :
    Leads e (.trees depth stack (.conditional c a f span :: ns), s)
      (.trees depth stack (if v then a else f), t)
  | part {depth : Nat} {stack : Stack} {name : String} {cs : List Node} {span : Span}
    {ns : List Node} {s : State σ} :
    Leads e (.trees depth stack (.part name cs span :: ns), s) (.trees depth stack cs, s)
  | included {depth : Nat} {stack : Stack} {path : String} {span : Span} {children : List Node}
    {ns : List Node} {s : State σ} (hpart : s.parts.lookup path = some children)
    (hnew : path ∉ stack.parts) :
    Leads e (.trees (depth + 1) stack (.included path span :: ns), s)
      (.trees depth { stack with parts := path :: stack.parts } children, s)
  | document {depth : Nat} {stack : Stack} {n : Node} {key : String} {ms ns : List Node}
    {s t : State σ} (hopen : Opens e stack n s key ms)
    (henter : (enter e ms).on s = (.ok (), t)) :
    Leads e (.trees (depth + 1) stack (n :: ns), s)
      (.trees depth { stack with documents := key :: stack.documents } ms, t)
  | behind {depth : Nat} {stack : Stack} {n : Node} {ns ms : List Node} {s t : State σ}
    (h : (reduce e (follow e depth stack) n).on s = (.ok ms, t)) :
    Leads e (.trees depth stack (n :: ns), s) (.trees depth stack ns, t)

/-! ### Runs -/

section

variable (e : Setup σ) (origin : Option String) (d : List Node) (b : Bindings) (w : σ)

/-- The evaluation of a document comes to the point. -/
def Setup.Visits (x : Point σ) : Prop :=
  ∃ s, (enter e d).on ⟨b, [], [], w⟩ = (.ok (), s) ∧
    Relation.ReflTransGen (Leads e) (.trees (depthBound e d) ⟨origin, [], []⟩ d, s) x

/-- The evaluation puts a document of these nodes in place of a reference. -/
def Setup.Loads (ns : List Node) : Prop :=
  ∃ depth stack n rest s key, e.Visits origin d b w (.trees (depth + 1) stack (n :: rest), s) ∧
    Opens e stack n s key ns

/-- At some point of the evaluation the path has the result. -/
def Setup.Finds (p : String) (r : Context.Result) : Prop :=
  ∃ work s, e.Visits origin d b w (work, s) ∧ Context.bound? s.bindings p = some r

end

/-! ### Order -/

/-- The conditions to decide fit the bindings. -/
def Fit (K : Condition → Prop) : Point σ → Prop
  | (.condition c, s) => c.Fits K s.bindings
  | (.all cs, s) | (.any cs, s) => ∀ c ∈ cs, c.Fits K s.bindings
  | (.trees .., _) => False

/-- Deciding a condition keeps the parts and what is bound. -/
lemma keeps_of_holds {c : Condition} {v : Bool} (h : (holds e c).on s = (.ok v, t)) : Keeps s t :=
  ((holds_meets c (L := AnyName) (fun _ _ => trivial) s).of_ok h).toKeeps

lemma Fit.leads {x y : Point σ} (hx : Fit K x) (h : Leads e x y) : Fit K y := by
  -- the operands behind one that is decided
  have rest {c : Condition} {cs : List Condition} {s t : State σ} {v : Bool}
      (hcs : ∀ x ∈ c :: cs, x.Fits K s.bindings) (h : (holds e c).on s = (.ok v, t)) :
      ∀ x ∈ cs, x.Fits K t.bindings :=
    fun x hx => (hcs x (List.mem_cons_of_mem c hx)).grown (keeps_of_holds h).toGrown
  cases h with
  | not => exact ⟨fun x h => hx.1 x (by simp [h]), fun p h => hx.2 p (by simpa using h)⟩
  | and | or =>
    exact fun c hc => ⟨fun x h => hx.1 x (by simpa using .inr ⟨c, hc, h⟩),
      fun p h => hx.2 p (by simpa using ⟨c, hc, h⟩)⟩
  | allFirst | anyFirst => exact (List.forall_mem_cons.mp hx).1
  | allRest h => exact rest hx h
  | anyRest h => exact rest hx h
  | _ => exact hx.elim

/-- The trees are ready and so are the parts, there is room for all references in them, and no
document on the stack is the outermost again. -/
structure InOrder (e : Setup σ) (N : Node → Prop) (names : List String) (depth : Nat)
    (stack : Stack) (ns : List Node) (s : State σ) : Prop where
  settled : Settled N names s
  ready : Ready N s ns
  room : Room e names depth stack
  fresh : ∀ key ∈ stack.documents, stack.outermost ≠ some key

/-- The conditions fit, or the trees are in order. -/
inductive Orderly (e : Setup σ) (N : Node → Prop) (names : List String) : Point σ → Prop where
  | conditions {x : Point σ} (h : Fit (Condition.IsAt N) x) : Orderly e N names x
  | trees {depth : Nat} {stack : Stack} {ns : List Node} {s : State σ}
    (h : InOrder e N names depth stack ns s) : Orderly e N names (.trees depth stack ns, s)

lemma Orderly.inOrder {depth : Nat} {stack : Stack} {ns : List Node}
    (h : Orderly e N names (.trees depth stack ns, s)) : InOrder e N names depth stack ns s := by
  cases h with
  | conditions h => exact h.elim
  | trees h => exact h

lemma Orderly.depth_ne_zero {depth : Nat} {stack : Stack} {ns : List Node}
    (h : Orderly e N names (.trees depth stack ns, s)) : depth ≠ 0 := by
  rintro rfl
  exact Room.not_zero h.inOrder.room

lemma Orderly.fits {c : Condition} (h : Orderly e N names (.condition c, s)) :
    c.Fits (Condition.IsAt N) s.bindings := by
  cases h with
  | conditions h => exact h

/-- A path has its result where it is decided on. -/
lemma Orderly.present {p : String} {span : Span}
    (h : Orderly e N names (.condition (.present p span), s)) :
    ∃ r, Context.bound? s.bindings p = some r :=
  Option.isSome_iff_exists.mp (h.fits.2 p (by simp))

/-- A path has its result where a reference to it stands. -/
lemma Orderly.context {depth : Nat} {stack : Stack} {p : String} {span : Span} {ns : List Node}
    (h : Orderly e N names (.trees depth stack (.context p span :: ns), s)) :
    ∃ r, Context.bound? s.bindings p = some r :=
  Option.isSome_iff_exists.mp (h.inOrder.ready.head.2 p (by simp [Node.contextPathsOf]))

/-- **Order is kept**, and states grow: a point in order leads to points in order only. -/
lemma Orderly.leads_grown (hkind : Kind N AnyName) (hadm : e.Admits N names)
    {x y : Point σ} (hx : Orderly e N names x) (h : Leads e x y) :
    Orderly e N names y ∧ Grown x.2 y.2 := by
  cases hx with
  | @conditions x hx =>
    refine ⟨.conditions (hx.leads h), ?_⟩
    cases h with
    | not | and | or | allFirst | anyFirst => exact .refl _
    | allRest h => exact (keeps_of_holds h).toGrown
    | anyRest h => exact (keeps_of_holds h).toGrown
    | _ => exact hx.elim
  | @trees depth stack ns s hx =>
    cases h with
    | condition =>
      obtain ⟨hn, hpaths⟩ := hx.ready.head
      exact ⟨.conditions ⟨fun c hc => ⟨_, hn, hc⟩, hpaths⟩, .refl s⟩
    | branch h =>
      have hk := keeps_of_holds h
      obtain ⟨ha, hf⟩ := Ready.append_iff.mp (hx.ready.below.grown hk.toGrown)
      refine ⟨.trees ⟨hx.settled.keeps hk, ?_, hx.room, hx.fresh⟩, hk.toGrown⟩
      split
      · exact ha
      · exact hf
    | part => exact ⟨.trees ⟨hx.settled, hx.ready.below, hx.room, hx.fresh⟩, .refl s⟩
    | included hpart hnew =>
      obtain ⟨hname, hready⟩ := hx.settled.of_lookup hpart
      exact ⟨.trees ⟨hx.settled, hready, hx.room.push_part hname hnew, hx.fresh⟩, .refl s⟩
    | document hopen henter =>
      obtain ⟨path, loader, hrefers, hl, hopen⟩ := hopen
      obtain ⟨-, himp, hkey, hnew, houtermost⟩ :=
        (openDocument_meets (L := AnyName) hl stack path s).of_ok hopen
      obtain ⟨hgrown, hsettled, hready⟩ :=
        (enter_meets (hadm _ hx.ready.head.1 hrefers.refersOut _ himp) hx.settled
          (Q := fun _ => True)).of_ok henter
      exact ⟨.trees ⟨hsettled, hready, hx.room.push_document hkey hnew,
        List.forall_mem_cons.mpr ⟨houtermost, hx.fresh⟩⟩, hgrown⟩
    | behind h =>
      have hl := (reduce_meets hkind (fun _ h => .inl h)
        (fun n s => follow_meets hkind hadm depth stack n s) _ s hx.settled
        hx.ready.first).of_ok h
      exact ⟨.trees ⟨hl.settled, hx.ready.rest.grown hl.grown, hx.room, hx.fresh⟩, hl.grown⟩

lemma Orderly.leads (hkind : Kind N AnyName) (hadm : e.Admits N names) {x y : Point σ}
    (hx : Orderly e N names x) (h : Leads e x y) : Orderly e N names y :=
  (hx.leads_grown hkind hadm h).1

/-! ### Order along a run -/

lemma admitted_any_main (ns : List Node) :
    Admitted (Node.Asks AnyCondition) (e.partNames ns) ns :=
  admitted_main fun n _ => asks_anyCondition n

lemma admitted_any_import (main : List Node) {ns : List Node} (h : e.Imports ns) :
    Admitted (Node.Asks AnyCondition) (e.partNames main) ns :=
  admitted_import h fun n _ => asks_anyCondition n

/-- An evaluation that has enough depth starts in order. -/
lemma orderly_initial {d : List Node} {b : Bindings} {w : σ} {depth : Nat}
    (hmain : Admitted N names d) (hdepth : names.length + e.keys.length < depth)
    (origin : Option String) :
    Orderly e N names (.trees depth ⟨origin, [], []⟩ d, e.entered d ⟨b, [], [], w⟩) := by
  obtain ⟨-, hsettled, hready⟩ :=
    (enter_meets hmain (settled_initial b w) (Q := fun _ => True)).of_ok (enter_on e d _)
  exact .trees ⟨hsettled, hready, room_initial hdepth origin, by simp⟩

namespace Setup

variable {origin : Option String} {d : List Node} {b : Bindings} {w : σ} {x y : Point σ}

lemma visits_start (e : Setup σ) (origin : Option String) (d : List Node) (b : Bindings) (w : σ) :
    e.Visits origin d b w
      (.trees (depthBound e d) ⟨origin, [], []⟩ d, e.entered d ⟨b, [], [], w⟩) :=
  ⟨_, enter_on e d _, .refl⟩

lemma Visits.leads (h : e.Visits origin d b w x) (hxy : Leads e x y) :
    e.Visits origin d b w y := by
  obtain ⟨s, hs, hx⟩ := h
  exact ⟨s, hs, hx.tail hxy⟩

/-- An evaluation with enough depth comes to points in order only, in states that have grown from
what entering the document leaves. -/
lemma Visits.orderly_grown (h : e.Visits origin d b w x) (hkind : Kind N AnyName)
    (hmain : Admitted N names d) (hadm : e.Admits N names)
    (hdepth : names.length + e.keys.length < depthBound e d) :
    Orderly e N names x ∧ Grown (e.entered d ⟨b, [], [], w⟩) x.2 := by
  obtain ⟨s, hs, hx⟩ := h
  obtain rfl := (Prod.mk.inj ((enter_on e d _).symm.trans hs)).2
  induction hx with
  | refl => exact ⟨orderly_initial hmain hdepth origin, .refl _⟩
  | tail _ hxy ih =>
    obtain ⟨horder, hgrown⟩ := ih.1.leads_grown hkind hadm hxy
    exact ⟨horder, ih.2.trans hgrown⟩

/-- Conditions that are all of one kind in the document and in what can be imported are of the kind
wherever the evaluation comes. -/
lemma Visits.orderly_asks (h : e.Visits origin d b w x) (hmain : ∀ n ∈ Node.walk d, n.Asks K)
    (himports : ∀ ms, e.Imports ms → ∀ n ∈ Node.walk ms, n.Asks K) :
    Orderly e (Node.Asks K) (e.partNames d) x :=
  (h.orderly_grown kind_asks (admitted_main hmain)
    (fun _ _ _ ms hms => admitted_import hms (himports ms hms)) (parts_lt_depthBound e d)).1

lemma Visits.orderly (h : e.Visits origin d b w x) :
    Orderly e (Node.Asks AnyCondition) (e.partNames d) x :=
  h.orderly_asks (fun n _ => asks_anyCondition n) fun _ _ n _ => asks_anyCondition n

lemma Visits.grown (h : e.Visits origin d b w x) : Grown (e.entered d ⟨b, [], [], w⟩) x.2 :=
  (h.orderly_grown kind_asks (admitted_any_main d) (fun _ _ _ _ => admitted_any_import d)
    (parts_lt_depthBound e d)).2

/-- A path that has its result when the document is entered has it at every point. -/
lemma Finds.eq {p : String} {r r' : Context.Result} (h : e.Finds origin d b w p r)
    (hr : Context.bound? (e.entered d ⟨b, [], [], w⟩).bindings p = some r') : r = r' := by
  obtain ⟨work, s, hx, hs⟩ := h
  exact Option.some.inj (hs.symm.trans (hx.grown.bound p r' hr))

end Setup

end Evaluation

end Stencil
