import Stencil.Proofs.Evaluation.Calls
import Stencil.Proofs.Evaluation.Growth
import Stencil.Proofs.Render

/-!
Strictness only adds failures: a result of a strict run is the result of the lenient run, with
the same calls to the collaborators.

Both runs go in step. Where strictness is consulted the strict run fails, or it looks up a context
path that the lenient run does not look up; that lookup changes nothing, since every path of a
document that was entered is bound already.
-/

namespace Stencil.Evaluation

variable {σ α β : Type} {s t : State σ} {e : Setup σ}

/-- The setup with its strictness set. -/
def Setup.withStrict (e : Setup σ) (strict : Bool) : Setup σ := { e with strict }

lemma Setup.loader_withStrict (strict : Bool) : (e.withStrict strict).loader = e.loader := rfl

/-- A result of the first step is a result of the second, with the same state behind it. -/
def Eval.CarriesOver (x y : Eval σ α) (s : State σ) : Prop :=
  ∀ a t, x.on s = (.ok a, t) → y.on s = (.ok a, t)

namespace Eval.CarriesOver

variable {x y : Eval σ α}

lemma refl (x : Eval σ α) (s : State σ) : x.CarriesOver x s := fun _ _ h => h

lemma bind {f g : α → Eval σ β} (hx : x.CarriesOver y s)
    (hf : ∀ a t, x.on s = (.ok a, t) → (f a).CarriesOver (g a) t) :
    Eval.CarriesOver (x >>= f) (y >>= g) s := by
  intro b u h
  obtain ⟨a, t, hr, hfa⟩ := Eval.on_bind_ok.mp h
  exact Eval.on_bind_ok.mpr ⟨a, t, hx a t hr, hf a t hr b u hfa⟩

lemma fail {error : Error} : (Evaluation.fail error : Eval σ α).CarriesOver y s := by
  intro a t h
  cases h

end Eval.CarriesOver

/-! ### Conditions -/

/-- An unknown variable is a fault in the strict run, whatever the other does. -/
lemma unknownVariable_carries (name : String) (y : Eval σ Bool) (s : State σ) :
    (unknownVariable (e.withStrict true) name).CarriesOver y s := by
  intro a t h
  cases h

lemma comparison_carries (name operator : String) (arg : Argument) (s : State σ) :
    (comparison (e.withStrict true) name operator arg).CarriesOver
      (comparison (e.withStrict false) name operator arg) s := by
  rcases ho : e.operators.find? operator with _ | op <;>
    simp only [comparison, Setup.withStrict, ho]
  · exact .fail
  · refine .bind (.refl _ s) fun v t _ => ?_
    cases v with
    | some v => exact .refl _ t
    | none =>
      dsimp only
      split
      · exact .refl _ t
      · exact unknownVariable_carries (e := e) name _ t

mutual

lemma holds_carries : ∀ (c : Condition) (s : State σ),
    (holds (e.withStrict true) c).CarriesOver (holds (e.withStrict false) c) s
  | .literal b span, s => by
    rw [holds, holds]
    exact .refl _ s
  | .ref name span, s => by
    rw [holds, holds]
    refine .bind (.refl _ s) fun v t _ => ?_
    cases v with
    | some v => exact .refl _ t
    | none => exact unknownVariable_carries name _ t
  | .not c span, s => by
    rw [holds, holds]
    exact .bind (holds_carries c s) fun b t _ => .refl _ t
  | .and cs span, s => by
    rw [holds, holds]
    exact allHold_carries cs s
  | .or cs span, s => by
    rw [holds, holds]
    exact anyHolds_carries cs s
  | .compare name op arg span, s => by
    rw [holds, holds]
    exact comparison_carries name op arg s
  | .judge name question span, s => by
    rw [holds, holds]
    refine .bind (.refl _ s) fun v t _ => ?_
    cases v with
    | some v => exact .refl _ t
    | none => exact unknownVariable_carries name _ t
  | .present path span, s => by
    rw [holds, holds]
    exact .refl _ s

lemma allHold_carries : ∀ (cs : List Condition) (s : State σ),
    (allHold (e.withStrict true) cs).CarriesOver (allHold (e.withStrict false) cs) s
  | [], s => by
    rw [allHold, allHold]
    exact .refl _ s
  | c :: cs, s => by
    rw [allHold, allHold]
    refine .bind (holds_carries c s) fun b t _ => ?_
    cases b
    · exact .refl _ t
    · exact allHold_carries cs t

lemma anyHolds_carries : ∀ (cs : List Condition) (s : State σ),
    (anyHolds (e.withStrict true) cs).CarriesOver (anyHolds (e.withStrict false) cs) s
  | [], s => by
    rw [anyHolds, anyHolds]
    exact .refl _ s
  | c :: cs, s => by
    rw [anyHolds, anyHolds]
    refine .bind (holds_carries c s) fun b t _ => ?_
    cases b
    · exact anyHolds_carries cs t
    · exact .refl _ t

end

/-- A context path that is bound already costs the strict run nothing. -/
lemma requireContext_carries {path : String}
    (h : (Context.bound? s.bindings path).isSome = true) :
    (requireContext (e.withStrict true) path).CarriesOver (pure ()) s := by
  obtain ⟨r, hr⟩ := Option.isSome_iff_exists.mp h
  intro a t hx
  obtain ⟨r', u, hc, hx⟩ := Eval.on_bind_ok.mp hx
  rw [contextResult_of_bound hr] at hc
  obtain ⟨-, rfl⟩ := Prod.mk.inj hc
  split at hx
  · cases hx
  · exact hx

/-! ### Trees and references -/

/-- Whether its node is of any kind is of no matter here. -/
def AnyNode : Node → Prop := fun _ => True

lemma kind_anyNode : Kind AnyNode AnyName := ⟨fun _ _ _ _ h => h, fun _ _ _ _ _ _ _ => trivial⟩

section

variable {names : List String} {strictly leniently : Node → Eval σ (List Node)}
  {Q : Failure → Prop} (hQ : ∀ f, Excused (e.withStrict true) AnyName f → Q f)
  (hleaves : ∀ n s, Settled AnyNode names s → Ready AnyNode s [n] →
    (strictly n).Meets s (Leaves AnyNode names s) Q)
  (hf : ∀ n s, Settled AnyNode names s → Ready AnyNode s [n] →
    (strictly n).CarriesOver (leniently n) s)

include hQ hleaves hf

/-- A tree is reduced alike in both runs if its references are followed alike. -/
lemma reduceAll_carries (ns : List Node) (s : State σ) (hs : Settled AnyNode names s)
    (hr : Ready AnyNode s ns) : (reduceAll (e.withStrict true) strictly ns).CarriesOver
      (reduceAll (e.withStrict false) leniently ns) s := by
  -- the first node, then the rest
  have cons {n : Node} {ns : List Node} {s : State σ} (hs : Settled AnyNode names s)
      (hr : Ready AnyNode s (n :: ns))
      (ih : ∀ t, Settled AnyNode names t → Ready AnyNode t ns →
        (reduceAll (e.withStrict true) strictly ns).CarriesOver
          (reduceAll (e.withStrict false) leniently ns) t)
      (hn : (reduce (e.withStrict true) strictly n).CarriesOver
        (reduce (e.withStrict false) leniently n) s) :
      (reduceAll (e.withStrict true) strictly (n :: ns)).CarriesOver
        (reduceAll (e.withStrict false) leniently (n :: ns)) s := by
    rw [reduceAll, reduceAll]
    refine hn.bind fun ms t hms => ?_
    have hleft := (reduce_meets kind_anyNode hQ hleaves n s hs hr.first).of_ok hms
    exact (ih t hleft.settled (hr.rest.grown hleft.grown)).bind fun ks u _ => .refl _ u
  induction ns using Node.forest_induction generalizing s with
  | nil =>
    rw [reduceAll, reduceAll]
    exact .refl _ s
  | text c span ns ih =>
    refine cons hs hr (fun t ht hn => ih t ht hn) ?_
    rw [reduce.eq_def, reduce.eq_def]
    exact .refl _ s
  | slot name h d span ns ih =>
    refine cons hs hr (fun t ht hn => ih t ht hn) ?_
    rw [reduce.eq_def, reduce.eq_def]
    exact .refl _ s
  | conditional c t f span ns iht ihf ih =>
    refine cons hs hr (fun t ht hn => ih t ht hn) ?_
    rw [reduce.eq_def, reduce.eq_def]
    refine (holds_carries c s).bind fun b u hb => ?_
    have hu := ((holds_meets c (fun _ _ => trivial) s).of_ok hb).toKeeps
    obtain ⟨ht, hf⟩ := Ready.append_iff.mp (hr.below.grown hu.toGrown)
    cases b
    · exact ihf u (hs.keeps hu) hf
    · exact iht u (hs.keeps hu) ht
  | part name cs span ns ihc ih =>
    refine cons hs hr (fun t ht hn => ih t ht hn) ?_
    rw [reduce.eq_def, reduce.eq_def]
    exact (ihc s hs hr.below).bind fun ms t _ => .refl _ t
  | imported path span ns ih =>
    refine cons hs hr (fun t ht hn => ih t ht hn) ?_
    rw [reduce.eq_def, reduce.eq_def]
    exact hf _ s hs hr.first
  | included path span ns ih =>
    refine cons hs hr (fun t ht hn => ih t ht hn) ?_
    rw [reduce.eq_def, reduce.eq_def]
    exact hf _ s hs hr.first
  | context path span ns ih =>
    refine cons hs hr (fun t ht hn => ih t ht hn) ?_
    rw [reduce.eq_def, reduce.eq_def]
    refine .bind (x := requireContext (e.withStrict true) path) (y := pure ())
      (requireContext_carries ?_) fun _ t _ => .refl _ t
    exact hr.head.2 path (by simp [Node.contextPathsOf])

end

section

variable {names : List String} {depth : Nat} {stack : Stack} {node : Node} {path : String}
  (hadm : ∀ ns, (e.withStrict true).Imports ns → Admitted AnyNode names ns)
  (hd : ∀ stack ns s, Settled AnyNode names s → Ready AnyNode s ns →
    (reduceAll (e.withStrict true) (follow (e.withStrict true) depth stack) ns).CarriesOver
      (reduceAll (e.withStrict false) (follow (e.withStrict false) depth stack) ns) s)

include hadm hd

lemma importDocument_carries (hs : Settled AnyNode names s) :
    (importDocument (e.withStrict true) (follow (e.withStrict true) depth) stack node
      path).CarriesOver
    (importDocument (e.withStrict false) (follow (e.withStrict false) depth) stack node
      path) s := by
  unfold importDocument
  rw [Setup.loader_withStrict, Setup.loader_withStrict]
  rcases hl : e.loader with _ | l
  · exact .fail
  · refine .bind (.refl _ s) fun d t ht => ?_
    obtain ⟨rfl, himp, -, -⟩ :=
      (openDocument_meets (e := e.withStrict true) (L := AnyName) hl stack path s).of_ok ht
    refine .bind (.refl _ t) fun _ u hu => ?_
    obtain ⟨-, hset, hready⟩ := (enter_meets (e := e.withStrict true) (hadm _ himp) hs
      (Q := fun _ => True)).of_ok hu
    exact hd _ _ u hset hready

lemma includePart_carries (hs : Settled AnyNode names s) :
    (includePart (e.withStrict true) (follow (e.withStrict true) depth) stack node
      path).CarriesOver
    (includePart (e.withStrict false) (follow (e.withStrict false) depth) stack node path) s := by
  unfold includePart
  refine .bind (.refl _ s) fun s' t ht => ?_
  obtain ⟨h, rfl⟩ := Prod.mk.inj ht
  obtain rfl := Except.ok.inj h
  rcases hp : s.parts.lookup path with _ | children
  · dsimp only
    rw [Setup.loader_withStrict, Setup.loader_withStrict]
    split
    · exact importDocument_carries hadm hd hs
    · exact .fail
  · obtain ⟨-, hready⟩ := hs.of_lookup hp
    dsimp only
    split
    · exact .fail
    · exact hd _ _ s hs hready

end

lemma follow_carries {names : List String}
    (hadm : ∀ ns, (e.withStrict true).Imports ns → Admitted AnyNode names ns) (depth : Nat)
    (stack : Stack) (n : Node) (s : State σ) (hs : Settled AnyNode names s)
    (hr : Ready AnyNode s [n]) : (follow (e.withStrict true) depth stack n).CarriesOver
      (follow (e.withStrict false) depth stack n) s := by
  induction depth generalizing stack n s with
  | zero =>
    intro a t h
    cases h
  | succ depth ih =>
    have hd (stack : Stack) (ns : List Node) (s : State σ) (hs : Settled AnyNode names s)
        (hr : Ready AnyNode s ns) :
        (reduceAll (e.withStrict true) (follow (e.withStrict true) depth stack) ns).CarriesOver
          (reduceAll (e.withStrict false) (follow (e.withStrict false) depth stack) ns) s :=
      reduceAll_carries (fun _ h => .inl h)
        (fun n s => follow_meets kind_anyNode (fun _ _ _ => hadm) depth stack n s)
        (fun n s => ih stack n s) ns s hs hr
    cases n with
    | imported path span => exact importDocument_carries hadm hd hs
    | included path span => exact includePart_carries hadm hd hs
    | _ => exact .refl _ s

lemma evaluateIn_carries (origin : Option String) (d : Document) (b : Bindings) (w : σ) :
    (evaluateIn (e.withStrict true) origin d).CarriesOver
      (evaluateIn (e.withStrict false) origin d) ⟨b, [], [], w⟩ := by
  have hadm (ns : List Node) (h : (e.withStrict true).Imports ns) :
      Admitted AnyNode ((e.withStrict true).partNames d.children) ns :=
    admitted_import h fun _ _ => trivial
  unfold evaluateIn
  refine .bind (.refl _ _) fun _ t ht => ?_
  obtain ⟨-, hs, hr⟩ := (enter_meets (admitted_main fun _ _ => trivial)
    (settled_initial b w) (Q := fun _ => True)).of_ok ht
  refine .bind (reduceAll_carries (fun _ h => .inl h)
    (fun n s => follow_meets kind_anyNode (fun _ _ _ => hadm) _ _ n s)
    (fun n s => follow_carries hadm _ _ n s) _ t hs hr) fun _ u _ => .refl _ u

end Stencil.Evaluation

namespace Stencil

open Evaluation

variable {σ : Type}

/-! ### Runs from source to text -/

lemma evaluate_of_strict {e : Setup σ} {origin : Option String} {d : Document} {b : Bindings}
    {w w' : σ} {r : Evaluation.Result}
    (h : evaluate (e.withStrict true) origin d b w = (.ok r, w')) :
    evaluate (e.withStrict false) origin d b w = (.ok r, w') := by
  rw [evaluate_eq] at h ⊢
  rcases hx : (evaluateIn (e.withStrict true) origin d).on ⟨b, [], [], w⟩ with ⟨f | a, t⟩
  · rw [hx] at h
    cases (Prod.mk.inj h).1
  · rw [evaluateIn_carries origin d b w a t hx]
    rwa [hx] at h

/-- **Strictness only adds failures**: the text of a strict run is the text of the lenient run,
whatever becomes of missing variables, and the collaborators end up in the same state after the
same calls, in the same order. -/
theorem lenient_of_strict (e : Setup σ) (f : Render.Finish) (origin : Option String)
    (source : String) (b : Bindings) (w w' : σ) (calls : List Call) (text : String)
    (missing missing' : MissingVariable)
    (h : renderTemplate (e.withStrict true).recorded ⟨true, missing⟩ f origin source b (w, []) =
      (.ok text, (w', calls))) :
    renderTemplate (e.withStrict false).recorded ⟨false, missing'⟩ f origin source b (w, []) =
      (.ok text, (w', calls)) := by
  rcases hs : (parse source).success
  · rw [renderTemplate_of_faulty hs] at h
    cases h
  · rw [renderTemplate_of_success hs] at h ⊢
    rcases hr : evaluate (e.withStrict true).recorded origin (parse source).document b (w, [])
      with ⟨fault | r, w''⟩ <;> rw [hr] at h
    · cases h
    · obtain ⟨htext, rfl⟩ := Prod.mk.inj h
      have hr' : evaluate (e.withStrict false).recorded origin (parse source).document b (w, []) =
          (.ok r, (w', calls)) := evaluate_of_strict (e := e.recorded) hr
      rw [hr']
      unfold render at htext ⊢
      obtain ⟨body, hbody, htext⟩ := Except.bind_eq_ok.mp htext
      dsimp only
      rw [Except.bind_eq_ok.mpr ⟨body, Render.nodes_of_strict rfl hbody, htext⟩]

/-- A strict run that looks up a context, asks a judge and fills a slot. -/
theorem lenient_of_strict_greeting :
    let e : Setup Unit :=
      { judge := some ⟨fun _ _ => pure (.answer (.bool true))⟩
        resolver := some ⟨fun paths => pure (.ok (paths.map fun p => (p, .ok p ⟨"", p, none⟩)))⟩ }
    renderTemplate (e.withStrict false).recorded ⟨false, .error⟩ {} none
      "#context(bio)[#IF x #ai_judge(kind)]Hi {{x}}[END IF]" [("x", .text "Ada")] ((), []) =
        (.ok "bioHi Ada", ((), [.resolved ["bio"], .judged (.text "Ada") "kind"])) :=
  lenient_of_strict _ {} none _ _ () () _ _ .empty .error (by with_unfolding_all rfl)

end Stencil
