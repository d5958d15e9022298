import Stencil.Proofs.Evaluation.Coupling

/-!
Which documents references are resolved against.

A reference stands in the text of some document, its home. The evaluation knows nothing of homes: it
loads relative to the document that it is in (`Stack.origin`). As long as no part is put in place
both are the same. The body of a part stands in the text of the document that defines the part,
while the evaluation stays in the document whose reference the part is put in place of; so a
reference in the body is resolved against that document, whatever its home is.
-/

namespace Stencil.Evaluation

variable {σ : Type} {e : Setup σ} {origin : Option String} {d : List Node} {b : Bindings} {w : σ}
  {s t : State σ} {depth : Nat} {stack : Stack} {ns : List Node} {path : String}

/-! ### Places -/

/-- Where trees stand: the document in whose text they do, the part that they are the body of if
they were put in place of a reference to one, and the document of the outermost such reference. -/
structure Place where
  home : Option String
  part : Option String := none
  base : Option String := home

section

variable (e origin d b w)

/-- The part of this name that references are to, with this body, is the one in the document with
the key: the main document has such a part, or this is the first to be loaded that has. -/
inductive Setup.Defines (name : String) (cs : List Node) : Option String → Prop where
  | main (h : (Node.parts d).lookup name = some cs) : Setup.Defines name cs origin
  | loaded {depth : Nat} {stack : Stack} {n : Node} {ns ms : List Node} {s : State σ} {key : String}
    (hx : e.Visits origin d b w (.trees depth stack (n :: ns), s))
    (hopen : Opens e stack n s key ms) (hnew : s.parts.lookup name = none)
    (h : (Node.parts ms).lookup name = some cs) : Setup.Defines name cs (some key)

/-- The evaluation comes to trees that stand at the place. -/
inductive Setup.Stands : Place → Nat → Stack → List Node → State σ → Prop where
  | start : Setup.Stands ⟨origin, none, origin⟩ (depthBound e d) ⟨origin, [], []⟩ d
      (e.entered d ⟨b, [], [], w⟩)
  | branch {p : Place} {depth : Nat} {stack : Stack} {c : Condition} {yes no ns : List Node}
    {span : Span} {s t : State σ} {v : Bool}
    (h : Setup.Stands p depth stack (.conditional c yes no span :: ns) s)
    (hc : (holds e c).on s = (.ok v, t)) :
    Setup.Stands p depth stack (if v then yes else no) t
  | part {p : Place} {depth : Nat} {stack : Stack} {name : String} {cs ns : List Node} {span : Span}
    {s : State σ} (h : Setup.Stands p depth stack (.part name cs span :: ns) s) :
    Setup.Stands p depth stack cs s
  | included {p : Place} {depth : Nat} {stack : Stack} {name : String} {cs ns : List Node}
    {span : Span} {s : State σ} {home : Option String}
    (h : Setup.Stands p (depth + 1) stack (.included name span :: ns) s)
    (hpart : s.parts.lookup name = some cs) (hnew : name ∉ stack.parts)
    (hdefines : e.Defines origin d b w name cs home) :
    Setup.Stands ⟨home, some name, p.base⟩ depth { stack with parts := name :: stack.parts } cs s
  | document {p : Place} {depth : Nat} {stack : Stack} {n : Node} {ns ms : List Node} {key : String}
    {s t : State σ} (h : Setup.Stands p (depth + 1) stack (n :: ns) s)
    (hopen : Opens e stack n s key ms) (henter : (enter e ms).on s = (.ok (), t)) :
    Setup.Stands ⟨some key, none, some key⟩ depth
      { stack with documents := key :: stack.documents } ms t
  | behind {p : Place} {depth : Nat} {stack : Stack} {n : Node} {ns ms : List Node} {s t : State σ}
    (h : Setup.Stands p depth stack (n :: ns) s)
    (hn : (reduce e (follow e depth stack) n).on s = (.ok ms, t)) :
    Setup.Stands p depth stack ns t

/-- In place of a reference that stands at the place the evaluation asks the loader for the path,
relative to a document. -/
def Setup.Calls (path : String) (relativeTo : Option String) (p : Place) : Prop :=
  ∃ depth stack n ns s, e.Stands origin d b w p (depth + 1) stack (n :: ns) s ∧
    RefersTo s n path ∧ e.loader.isSome = true ∧ e.isDue = false ∧ relativeTo = stack.origin

end

/-! ### Bases -/

/-- The document that the evaluation is in is the base of what it comes to. -/
lemma Setup.Stands.origin_eq {p : Place} (h : e.Stands origin d b w p depth stack ns s) :
    stack.origin = p.base := by
  induction h with
  | start => rfl
  | document => rfl
  | branch _ _ ih => exact ih
  | part _ ih => exact ih
  | included _ _ _ _ ih => exact ih
  | behind _ _ ih => exact ih

/-- The body of a part stands in the text of a document that defines the part; other trees stand in
the text of the document that the evaluation is in. -/
lemma Setup.Stands.home_spec {p : Place} (h : e.Stands origin d b w p depth stack ns s) :
    (p.part = none → p.home = p.base) ∧
      ∀ name, p.part = some name → ∃ cs, e.Defines origin d b w name cs p.home := by
  induction h with
  | start => exact ⟨fun _ => rfl, nofun⟩
  | document => exact ⟨fun _ => rfl, nofun⟩
  | included _ _ _ hdefines _ =>
    refine ⟨nofun, ?_⟩
    rintro _ ⟨⟩
    exact ⟨_, hdefines⟩
  | branch _ _ ih => exact ih
  | part _ ih => exact ih
  | behind _ _ ih => exact ih

/-! ### Everything that an evaluation comes to stands somewhere -/

/-- Every part that is known is defined by some document. -/
def Setup.Rooted (e : Setup σ) (origin : Option String) (d : List Node) (b : Bindings) (w : σ)
    (s : State σ) : Prop :=
  ∀ name cs, s.parts.lookup name = some cs → ∃ home, e.Defines origin d b w name cs home

namespace Setup

lemma Rooted.of_parts (h : e.Rooted origin d b w s) (hparts : t.parts = s.parts) :
    e.Rooted origin d b w t := by
  intro name cs hcs
  exact h name cs (by rwa [hparts] at hcs)

lemma rooted_initial : e.Rooted origin d b w (e.entered d ⟨b, [], [], w⟩) := by
  intro name cs hcs
  rw [lookup_entered, List.lookup_nil, Option.none_or] at hcs
  exact ⟨origin, .main hcs⟩

/-- A document that is loaded defines the parts that are new. -/
lemma Rooted.entered {n : Node} {ms : List Node} {key : String} (h : e.Rooted origin d b w s)
    (hx : e.Visits origin d b w (.trees depth stack (n :: ns), s))
    (hopen : Opens e stack n s key ms) : e.Rooted origin d b w (e.entered ms s) := by
  intro name cs hcs
  rw [lookup_entered] at hcs
  rcases hs : s.parts.lookup name with _ | cs'
  · rw [hs, Option.none_or] at hcs
    exact ⟨some key, .loaded hx hopen hs hcs⟩
  · rw [hs, Option.some_or] at hcs
    exact h name cs (hs.trans hcs)

lemma Visits.rooted {x : Point σ} (h : e.Visits origin d b w x) : e.Rooted origin d b w x.2 :=
  h.keeps (fun s v q h => h.of_parts (askJudge_parts v q s)) (fun _ _ _ _ _ h => h.of_parts rfl)
    (fun hx hopen h => h.entered hx hopen) rooted_initial

/-- Trees that an evaluation comes to stand at some place. -/
lemma Visits.stands {x : Point σ} (h : e.Visits origin d b w x) :
    ∀ depth stack ns s, x = (.trees depth stack ns, s) →
      ∃ p, e.Stands origin d b w p depth stack ns s := by
  obtain ⟨s₀, hs₀, hx⟩ := h
  obtain rfl := (Prod.mk.inj ((enter_on e d _).symm.trans hs₀)).2
  induction hx with
  | refl =>
    rintro _ _ _ _ ⟨⟩
    exact ⟨_, .start⟩
  | @tail y z hy hleads ih =>
    have hvisits : e.Visits origin d b w y := ⟨_, hs₀, hy⟩
    rintro depth stack ns s rfl
    cases hleads with
    | branch hc =>
      obtain ⟨p, hp⟩ := ih _ _ _ _ rfl
      exact ⟨p, .branch hp hc⟩
    | part =>
      obtain ⟨p, hp⟩ := ih _ _ _ _ rfl
      exact ⟨p, .part hp⟩
    | included hpart hnew =>
      obtain ⟨p, hp⟩ := ih _ _ _ _ rfl
      obtain ⟨home, hdefines⟩ := hvisits.rooted _ _ hpart
      exact ⟨_, .included hp hpart hnew hdefines⟩
    | document hopen henter =>
      obtain ⟨p, hp⟩ := ih _ _ _ _ rfl
      exact ⟨_, .document hp hopen henter⟩
    | behind hn =>
      obtain ⟨p, hp⟩ := ih _ _ _ _ rfl
      exact ⟨p, .behind hp hn⟩

end Setup

/-! ### Calls -/

/-- Where the evaluation refers to a document it asks the loader, if it may. -/
lemma Setup.Visits.calls {n : Node}
    (h : e.Visits origin d b w (.trees (depth + 1) stack (n :: ns), s))
    (hrefers : RefersTo s n path) (hloader : e.loader.isSome = true) (hdue : e.isDue = false) :
    ∃ p, e.Calls origin d b w path stack.origin p := by
  obtain ⟨p, hp⟩ := h.stands _ _ _ _ rfl
  exact ⟨p, depth, stack, n, ns, s, hp, hrefers, hloader, hdue, rfl⟩

section

variable {loader loader' : ImportLoader} (hloader : e.loader = some loader)
  (hagree : ∀ path relativeTo p, e.Calls origin d b w path relativeTo p →
    loader'.load path relativeTo = loader.load path relativeTo)

include hloader hagree

/-- Two loaders that answer the calls of an evaluation alike make for evaluations in step. -/
lemma reduceAlike_of_calls :
    ReduceAlike e { e with loader := some loader' } (fun _ _ => False) (e.Visits origin d b w)
      (Setup.Visits { e with loader := some loader' } origin d b w) Eq where
  strict := rfl
  operators := rfl
  leads hx hxy := hx.leads hxy
  leads' hy hxy := hy.leads hxy
  names := by
    rintro s _ rfl
    rfl
  lookup := by
    rintro _ _ s _ - - rfl
    rfl
  judge := by
    rintro s _ rfl v q
    exact ⟨rfl, rfl⟩
  present := by
    rintro p span s _ hx - rfl
    obtain ⟨r, hr⟩ := hx.orderly.present
    exact ⟨r, hr, hr⟩
  loader := by rw [hloader]; rfl
  loads := by
    intro depth stack n ns s path l l' hx hrefers hl hl' hdue
    obtain rfl := Option.some.inj (hloader.symm.trans hl)
    obtain rfl := Option.some.inj hl'
    obtain ⟨p, hp⟩ := hx.calls hrefers (by rw [hloader]; rfl) hdue
    exact hagree path stack.origin p hp
  timeout := rfl
  deep hx := hx.orderly.depth_ne_zero
  deep' hy := hy.orderly.depth_ne_zero
  skipped h := h.elim
  context := by
    rintro _ _ stack p span ns ns' s _ - hx - rfl
    obtain ⟨r, hr⟩ := hx.orderly.context
    exact ⟨r, hr, hr⟩
  parts := by
    rintro s _ rfl
    exact .refl _
  report := by
    rintro s _ rfl _ _ _ _
    exact ⟨rfl, rfl⟩
  enter := by
    rintro _ stack n key ms ns s _ _ _ rfl
    unfold Eval.Coupled
    rw [enter_on, enter_on]
    exact ⟨rfl, rfl⟩

end

/-- **Relative paths**: whatever is loaded is loaded relative to the document that the evaluation is
in. That is the document in whose text the reference stands, except for a reference in the body of a
part that was put in place of a reference: that is resolved against the document of the outermost
such reference, while it stands in the text of the document that defines the part. There are no
calls of the loader but these: a loader that answers them alike makes for the same evaluation. -/
theorem calls_relative_to_base (e : Setup σ) (origin : Option String) (d : Document) (b : Bindings)
    (w : σ) {loader : ImportLoader} (hloader : e.loader = some loader) :
    (∀ path relativeTo p, e.Calls origin d.children b w path relativeTo p →
      relativeTo = p.base ∧ (p.part = none → relativeTo = p.home) ∧
        ∀ name, p.part = some name → ∃ cs, e.Defines origin d.children b w name cs p.home) ∧
    ∀ loader' : ImportLoader,
      (∀ path relativeTo p, e.Calls origin d.children b w path relativeTo p →
        loader'.load path relativeTo = loader.load path relativeTo) →
        evaluate { e with loader := some loader' } origin d b w = evaluate e origin d b w := by
  constructor
  · rintro path _ p ⟨depth, stack, n, ns, s, hp, -, -, -, rfl⟩
    have hbase := hp.origin_eq
    obtain ⟨hown, hpart⟩ := hp.home_spec
    exact ⟨hbase, fun h => hbase.trans (hown h).symm, hpart⟩
  · intro loader' hagree
    have A := reduceAlike_of_calls hloader hagree
    obtain ⟨hsame, hstate⟩ := evaluateIn_coupled A (.refl d.children) rfl rfl
    rw [evaluate_on, evaluate_on, hsame, hstate]

/-- The main document defines a part that imports `b`; a document in another directory includes
the part, and `b` is looked for in that directory. -/
theorem calls_relative_to_base_spliced :
    let e : Setup Unit := { loader := some (Import.fixed [("d/a", "[#INCLUDE s]"), ("b", "B")]) }
    let d : Document :=
      ⟨[.imported "d/a" .empty, .part "s" [.imported "b" .empty] .empty], .empty⟩
    ∃ p, e.Calls none d.children [] () "b" (some "d/a") p ∧
      p.home = none ∧ p.base = some "d/a" := by
  intro e d
  obtain ⟨span, hms⟩ : ∃ span, (parse "[#INCLUDE s]").document.children = [.included "s" span] :=
    ⟨_, by with_unfolding_all rfl⟩
  have hdepth : depthBound e d.children = 16 + 1 + 1 + 1 := by with_unfolding_all rfl
  let s := e.entered d.children ⟨[], [], [], ()⟩
  have hstart : e.Stands none d.children [] () ⟨none, none, none⟩ (16 + 1 + 1 + 1)
      ⟨none, [], []⟩ d.children s := hdepth ▸ .start
  have hopen : Opens e ⟨none, [], []⟩ (.imported "d/a" .empty) s "d/a" [.included "s" span] := by
    refine ⟨"d/a", _, .imported "d/a" .empty, rfl, ?_⟩
    rw [← hms]
    with_unfolding_all rfl
  have hdocument := hstart.document hopen (enter_on e _ s)
  have hknown : (e.entered [.included "s" span] s).parts.lookup "s" =
      some [.imported "b" .empty] := by with_unfolding_all rfl
  have hbody := hdocument.included hknown (by decide)
    (.main (by with_unfolding_all rfl))
  have hcall : e.Calls none d.children [] () "b" (some "d/a") ⟨none, some "s", some "d/a"⟩ :=
    ⟨_, _, _, _, _, hbody, .imported "b" .empty, rfl, rfl, rfl⟩
  exact ⟨_, hcall, rfl, ((calls_relative_to_base e none d [] () rfl).1 _ _ _ hcall).1.symm⟩

end Stencil.Evaluation
