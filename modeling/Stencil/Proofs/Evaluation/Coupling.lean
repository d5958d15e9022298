import Stencil.Proofs.Evaluation.Calls
import Stencil.Proofs.Evaluation.Course

/-!
Two evaluations in step.

What two runs have in common is said by a relation between their states. If every basic step
keeps it (looking up a name, asking the judge, entering a document), the runs take the same
branches, follow the same references and come to the same end (`reduceAll_coupled`). The trees
may differ in branches that are not taken, and the depths to which references are followed may
differ as long as they are not used up. With the diagonal for a relation, this is a statement
about a single run.
-/

namespace Stencil

/-! ### Trees that differ where it does not matter -/

namespace Node

/-- There may be trees below the node. -/
def hasTrees : Node → Bool
  | conditional .. | part .. => true
  | _ => false

/-- The trees are the same but for branches that are skipped: the one for the value `v` of a
condition `c` if `skip c v`. Skipped branches define the same parts. -/
inductive Alters (skip : Condition → Bool → Prop) : List Node → List Node → Prop where
  | nil : Alters skip [] []
  | leaf {n : Node} {ns ns' : List Node} (hn : n.hasTrees = false) (h : Alters skip ns ns') :
    Alters skip (n :: ns) (n :: ns')
  | part {name : String} {cs cs' ns ns' : List Node} {span : Span} (hc : Alters skip cs cs')
    (h : Alters skip ns ns') : Alters skip (.part name cs span :: ns) (.part name cs' span :: ns')
  | conditional {c : Condition} {a a' f f' ns ns' : List Node} {span : Span}
    (ha : Alters skip a a') (hf : Alters skip f f') (h : Alters skip ns ns') :
    Alters skip (.conditional c a f span :: ns) (.conditional c a' f' span :: ns')
  | thenBranch {c : Condition} {a a' f f' ns ns' : List Node} {span : Span} (hskip : skip c true)
    (hd : definitions a' = definitions a) (hf : Alters skip f f') (h : Alters skip ns ns') :
    Alters skip (.conditional c a f span :: ns) (.conditional c a' f' span :: ns')
  | elseBranch {c : Condition} {a a' f f' ns ns' : List Node} {span : Span} (hskip : skip c false)
    (hd : definitions f' = definitions f) (ha : Alters skip a a') (h : Alters skip ns ns') :
    Alters skip (.conditional c a f span :: ns) (.conditional c a' f' span :: ns')

variable {skip : Condition → Bool → Prop} {ns ns' : List Node}

lemma Alters.refl (ns : List Node) : Alters skip ns ns := by
  induction ns using forest_induction with
  | nil => exact .nil
  | conditional c a f span ns iha ihf ih => exact .conditional iha ihf ih
  | part name cs span ns ihc ih => exact .part ihc ih
  | _ =>
    rename_i ih
    exact .leaf rfl ih

/-- Parts of the same names in the same order, their trees the same but for skipped branches. -/
abbrev AlteredParts (skip : Condition → Bool → Prop) :
    List (String × List Node) → List (String × List Node) → Prop :=
  List.Forall₂ fun d d' => d'.1 = d.1 ∧ Alters skip d.2 d'.2

lemma AlteredParts.refl (ds : List (String × List Node)) : AlteredParts skip ds ds :=
  List.forall₂_same.mpr fun d _ => ⟨rfl, .refl d.2⟩

lemma AlteredParts.lookup {ds ds' : List (String × List Node)} (h : AlteredParts skip ds ds')
    (path : String) : ds.lookup path = none ∧ ds'.lookup path = none ∨
      ∃ cs cs', ds.lookup path = some cs ∧ ds'.lookup path = some cs' ∧ Alters skip cs cs' := by
  induction h with
  | nil => exact .inl ⟨rfl, rfl⟩
  | @cons d d' ds ds' hd _ ih =>
    obtain ⟨name, cs⟩ := d
    obtain ⟨name', cs'⟩ := d'
    obtain ⟨rfl, hcs⟩ := hd
    simp only [List.lookup_cons]
    split
    · exact .inr ⟨cs, cs', rfl, rfl, hcs⟩
    · exact ih

end Node

namespace Evaluation

open Node (Alters AlteredParts)

variable {σ τ α β : Type} {R : State σ → State τ → Prop} {s : State σ} {t : State τ}

/-! ### Steps -/

/-- Both steps come to the same result or the same failure, and leave states that are related. -/
def Eval.Coupled (R : State σ → State τ → Prop) (x : Eval σ α) (y : Eval τ α) (s : State σ)
    (t : State τ) : Prop :=
  (x.on s).1 = (y.on t).1 ∧ R (x.on s).2 (y.on t).2

namespace Eval.Coupled

variable {x : Eval σ α} {y : Eval τ α} {f : α → Eval σ β} {g : α → Eval τ β}

lemma bind (h : Eval.Coupled R x y s t) (hf : ∀ a s' t', x.on s = (.ok a, s') →
    y.on t = (.ok a, t') → R s' t' → Eval.Coupled R (f a) (g a) s' t') :
    Eval.Coupled R (x >>= f) (y >>= g) s t := by
  obtain ⟨hsame, hR⟩ := h
  unfold Eval.Coupled
  rw [Eval.on_bind, Eval.on_bind]
  rcases hx : x.on s with ⟨fault | a, s'⟩ <;> rcases hy : y.on t with ⟨fault' | a', t'⟩ <;>
    rw [hx, hy] at hsame hR
  · exact ⟨congrArg Except.error (Except.error.inj hsame), hR⟩
  · cases hsame
  · cases hsame
  · obtain rfl := Except.ok.inj hsame
    exact hf a s' t' hx hy hR

lemma pure {a : α} (h : R s t) : Eval.Coupled R (Pure.pure a) (Pure.pure a) s t := ⟨rfl, h⟩

lemma fail {error : Error} (h : R s t) :
    Eval.Coupled R (Evaluation.fail error : Eval σ α) (Evaluation.fail error) s t := ⟨rfl, h⟩

/-- Steps that leave the states as they are. -/
lemma stay {r : Except Failure α} (hx : x.on s = (r, s)) (hy : y.on t = (r, t)) (h : R s t) :
    Eval.Coupled R x y s t := by
  unfold Eval.Coupled
  rw [hx, hy]
  exact ⟨rfl, h⟩

lemma get_bind {f : State σ → Eval σ β} {g : State τ → Eval τ β}
    (h : Eval.Coupled R (f s) (g t) s t) :
    Eval.Coupled R (get >>= f : Eval σ β) (get >>= g : Eval τ β) s t := h

lemma lookup_bind {name : String} {f : Option Value → Eval σ β} {g : Option Value → Eval τ β}
    (hl : Variable.lookup name s.bindings = Variable.lookup name t.bindings) (hR : R s t)
    (h : ∀ v, Eval.Coupled R (f v) (g v) s t) :
    Eval.Coupled R (lookup name >>= f) (lookup name >>= g) s t := by
  refine .bind ?_ fun v s' t' hs ht _ => ?_
  · unfold Eval.Coupled
    rw [Eval.on_lookup, Eval.on_lookup, hl]
    rcases Variable.lookup name t.bindings with fault | v <;> exact ⟨rfl, hR⟩
  · rw [Eval.on_lookup] at hs ht
    obtain rfl : s' = s := by
      split at hs <;> exact (Prod.mk.inj hs).2.symm
    obtain rfl : t' = t := by
      split at ht <;> exact (Prod.mk.inj ht).2.symm
    exact h v

end Eval.Coupled

/-! ### Conditions -/

/-- What two runs have in common that decide conditions alike. The points `V` and `V'` that they
come to are closed under what points lead to. -/
structure DecideAlike (e : Setup σ) (e' : Setup τ) (V : Point σ → Prop) (V' : Point τ → Prop)
    (R : State σ → State τ → Prop) : Prop where
  strict : e'.strict = e.strict
  operators : e'.operators = e.operators
  leads : ∀ {x y}, V x → Leads e x y → V y
  leads' : ∀ {x y}, V' x → Leads e' x y → V' y
  names : ∀ {s t}, R s t → publicNames s.bindings = publicNames t.bindings
  lookup : ∀ {c x s t}, V (.condition c, s) → c.name? = some x → R s t →
    Variable.lookup x s.bindings = Variable.lookup x t.bindings
  judge : ∀ {s t}, R s t → ∀ v q, Eval.Coupled R (askJudge e v q) (askJudge e' v q) s t
  /-- Both have the same result for a path that they decide on. -/
  present : ∀ {p span s t}, V (.condition (.present p span), s) →
    V' (.condition (.present p span), t) → R s t →
      ∃ r, Context.bound? s.bindings p = some r ∧ Context.bound? t.bindings p = some r

section

variable {e : Setup σ} {e' : Setup τ} {V : Point σ → Prop} {V' : Point τ → Prop}
  (A : DecideAlike e e' V V' R)

include A

lemma unknownVariable_coupled (name : String) (h : R s t) :
    Eval.Coupled R (unknownVariable e name) (unknownVariable e' name) s t := by
  unfold unknownVariable
  rw [A.strict]
  split
  · refine .get_bind ?_
    rw [A.names h]
    exact .fail h
  · exact .pure h

omit A in
lemma applyOperator_coupled (name : String) (op : Operator) (v : Value) (arg : Argument)
    (h : R s t) :
    Eval.Coupled R (applyOperator name op v arg) (applyOperator name op v arg) s t := by
  unfold applyOperator
  split
  · exact .pure h
  · exact .fail h
  · exact .fail h

lemma comparison_coupled {name operator : String} {arg : Argument} {span : Span}
    (hx : V (.condition (.compare name operator arg span), s)) (h : R s t) :
    Eval.Coupled R (comparison e name operator arg) (comparison e' name operator arg) s t := by
  unfold comparison
  rw [A.operators, A.strict]
  split
  · split
    · exact .fail h
    · exact .pure h
  · refine .lookup_bind (A.lookup hx rfl h) h fun v => ?_
    split
    · exact applyOperator_coupled _ _ _ _ h
    · split
      · exact .pure h
      · split
        · exact unknownVariable_coupled A _ h
        · exact applyOperator_coupled _ _ _ _ h

mutual

/-- Conditions come out alike. -/
lemma holds_coupled : ∀ (c : Condition) (s : State σ) (t : State τ), V (.condition c, s) →
    V' (.condition c, t) → R s t → Eval.Coupled R (holds e c) (holds e' c) s t
  | .literal b span, s, t, _, _, h => by
    rw [holds, holds]
    exact .pure h
  | .ref name span, s, t, hx, _, h => by
    rw [holds, holds]
    refine .lookup_bind (A.lookup hx rfl h) h fun v => ?_
    cases v with
    | some v => exact .pure h
    | none => exact unknownVariable_coupled A name h
  | .not c span, s, t, hx, hy, h => by
    rw [holds, holds]
    exact (holds_coupled c s t (A.leads hx .not) (A.leads' hy .not) h).bind
      fun b s' t' _ _ h => .pure h
  | .and cs span, s, t, hx, hy, h => by
    rw [holds, holds]
    exact allHold_coupled cs s t (A.leads hx .and) (A.leads' hy .and) h
  | .or cs span, s, t, hx, hy, h => by
    rw [holds, holds]
    exact anyHolds_coupled cs s t (A.leads hx .or) (A.leads' hy .or) h
  | .compare name op arg span, s, t, hx, _, h => by
    rw [holds, holds]
    exact comparison_coupled A hx h
  | .judge name question span, s, t, hx, _, h => by
    rw [holds, holds]
    refine .lookup_bind (A.lookup hx rfl h) h fun v => ?_
    cases v with
    | some v => exact A.judge h v question
    | none => exact unknownVariable_coupled A name h
  | .present path span, s, t, hx, hy, h => by
    rw [holds, holds]
    obtain ⟨r, hs, ht⟩ := A.present hx hy h
    refine .bind (.stay (contextResult_of_bound hs) (contextResult_of_bound ht) h)
      fun r s' t' _ _ h => ?_
    split
    · exact .pure h
    · split
      · exact .pure h
      · exact .fail h

lemma allHold_coupled : ∀ (cs : List Condition) (s : State σ) (t : State τ), V (.all cs, s) →
    V' (.all cs, t) → R s t → Eval.Coupled R (allHold e cs) (allHold e' cs) s t
  | [], s, t, _, _, h => by
    rw [allHold, allHold]
    exact .pure h
  | c :: cs, s, t, hx, hy, h => by
    rw [allHold, allHold]
    refine (holds_coupled c s t (A.leads hx .allFirst) (A.leads' hy .allFirst) h).bind
      fun b s' t' hs ht h => ?_
    cases b
    · exact .pure h
    · exact allHold_coupled cs s' t' (A.leads hx (.allRest hs)) (A.leads' hy (.allRest ht)) h

lemma anyHolds_coupled : ∀ (cs : List Condition) (s : State σ) (t : State τ), V (.any cs, s) →
    V' (.any cs, t) → R s t → Eval.Coupled R (anyHolds e cs) (anyHolds e' cs) s t
  | [], s, t, _, _, h => by
    rw [anyHolds, anyHolds]
    exact .pure h
  | c :: cs, s, t, hx, hy, h => by
    rw [anyHolds, anyHolds]
    refine (holds_coupled c s t (A.leads hx .anyFirst) (A.leads' hy .anyFirst) h).bind
      fun b s' t' hs ht h => ?_
    cases b
    · exact anyHolds_coupled cs s' t' (A.leads hx (.anyRest hs)) (A.leads' hy (.anyRest ht)) h
    · exact .pure h

end

end

/-! ### Trees and references -/

/-- What two runs have in common that reduce trees alike, those of the one altered in skipped
branches. -/
structure ReduceAlike (e : Setup σ) (e' : Setup τ) (skip : Condition → Bool → Prop)
    (V : Point σ → Prop) (V' : Point τ → Prop) (R : State σ → State τ → Prop) : Prop
    extends DecideAlike e e' V V' R where
  loader : e'.loader.isSome = e.loader.isSome
  /-- Both load the same where they refer to a document. -/
  loads : ∀ {depth stack n ns s path l l'}, V (.trees (depth + 1) stack (n :: ns), s) →
    RefersTo s n path → e.loader = some l → e'.loader = some l' → e.isDue = false →
      l'.load path stack.origin = l.load path stack.origin
  timeout : e'.timeout = e.timeout
  /-- The depths are not used up. -/
  deep : ∀ {depth stack ns s}, V (.trees depth stack ns, s) → depth ≠ 0
  deep' : ∀ {depth stack ns t}, V' (.trees depth stack ns, t) → depth ≠ 0
  skipped : ∀ {depth stack c v a f span ns s}, skip c v →
    V (.trees depth stack (.conditional c a f span :: ns), s) → ∀ u, (holds e c).on s ≠ (.ok v, u)
  /-- Both have the same result for a path that they need. -/
  context : ∀ {depth depth' stack p span ns ns' s t}, e.strict = true →
    V (.trees depth stack (.context p span :: ns), s) →
    V' (.trees depth' stack (.context p span :: ns'), t) → R s t →
      ∃ r, Context.bound? s.bindings p = some r ∧ Context.bound? t.bindings p = some r
  parts : ∀ {s t}, R s t → AlteredParts skip s.parts t.parts
  report : ∀ {s t}, R s t → ∀ kind message path, kind ≠ "context" →
    Eval.Coupled R (report kind message path) (report kind message path) s t
  enter : ∀ {depth stack n key ms ns s t}, V (.trees depth stack (n :: ns), s) →
    Opens e stack n s key ms → R s t → Eval.Coupled R (enter e ms) (enter e' ms) s t

lemma requireContext_of_bound {e : Setup σ} {p : String} {r : Context.Result}
    (h : Context.bound? s.bindings p = some r) : (requireContext e p).on s =
      (if r.success then .ok () else .error (.error (contextError r)), s) := by
  unfold requireContext
  rw [Eval.on_bind, contextResult_of_bound h]
  dsimp only
  cases r.success <;> rfl

/-- Opening a document looks at the time limit, the stack and what is loaded only. -/
lemma openDocument_on {e : Setup σ} {e' : Setup τ} (h : e'.timeout = e.timeout)
    {loader loader' : ImportLoader} {stack : Stack} {path : String}
    (hload : e.isDue = false → loader'.load path stack.origin = loader.load path stack.origin) :
    ∃ r, (∀ s, (openDocument e loader stack path).on s = (r, s)) ∧
      ∀ t, (openDocument e' loader' stack path).on t = (r, t) := by
  have hdue : e'.isDue = e.isDue := by
    unfold Setup.isDue
    rw [h]
  unfold openDocument
  rw [h, hdue]
  split
  · exact ⟨_, fun _ => rfl, fun _ => rfl⟩
  rename_i hnot
  rw [hload (by simpa using hnot)]
  split
  · exact ⟨_, fun _ => rfl, fun _ => rfl⟩
  split
  · exact ⟨_, fun _ => rfl, fun _ => rfl⟩
  dsimp only
  split
  · exact ⟨_, fun _ => rfl, fun _ => rfl⟩
  · exact ⟨_, fun _ => rfl, fun _ => rfl⟩

section

variable {e : Setup σ} {e' : Setup τ} {skip : Condition → Bool → Prop} {V : Point σ → Prop}
  {V' : Point τ → Prop} (A : ReduceAlike e e' skip V V' R) {depth depth' : Nat} {stack : Stack}

include A

/-- Trees are reduced alike if the references in them are followed alike. -/
lemma reduceAll_coupled_of_follow
    (hfollow : ∀ n ns ns' s t, V (.trees depth stack (n :: ns), s) →
      V' (.trees depth' stack (n :: ns'), t) → R s t →
        Eval.Coupled R (follow e depth stack n) (follow e' depth' stack n) s t)
    {ns ns' : List Node} (h : Alters skip ns ns') :
    ∀ s t, V (.trees depth stack ns, s) → V' (.trees depth' stack ns', t) → R s t →
      Eval.Coupled R (reduceAll e (follow e depth stack) ns)
        (reduceAll e' (follow e' depth' stack) ns') s t := by
  -- the first node, then the rest
  have cons {n n' : Node} {ns ns' : List Node} {s : State σ} {t : State τ}
      (hx : V (.trees depth stack (n :: ns), s)) (hy : V' (.trees depth' stack (n' :: ns'), t))
      (ih : ∀ s t, V (.trees depth stack ns, s) → V' (.trees depth' stack ns', t) → R s t →
        Eval.Coupled R (reduceAll e (follow e depth stack) ns)
          (reduceAll e' (follow e' depth' stack) ns') s t)
      (hn : Eval.Coupled R (reduce e (follow e depth stack) n)
        (reduce e' (follow e' depth' stack) n') s t) :
      Eval.Coupled R (reduceAll e (follow e depth stack) (n :: ns))
        (reduceAll e' (follow e' depth' stack) (n' :: ns')) s t := by
    rw [reduceAll, reduceAll]
    refine hn.bind fun ms s' t' hs ht h => ?_
    exact (ih s' t' (A.leads hx (.behind hs)) (A.leads' hy (.behind ht)) h).bind
      fun ks u u' _ _ hu => .pure hu
  -- a conditional whose branches are reduced alike where they are taken
  have conditional {c : Condition} {a a' f f' ns ns' : List Node} {span : Span} {s : State σ}
      {t : State τ} (hx : V (.trees depth stack (.conditional c a f span :: ns), s))
      (hy : V' (.trees depth' stack (.conditional c a' f' span :: ns'), t)) (hR : R s t)
      (hbranch : ∀ v s' t', (holds e c).on s = (.ok v, s') →
        V (.trees depth stack (if v then a else f), s') →
        V' (.trees depth' stack (if v then a' else f'), t') → R s' t' →
          Eval.Coupled R (reduceAll e (follow e depth stack) (if v then a else f))
            (reduceAll e' (follow e' depth' stack) (if v then a' else f')) s' t') :
      Eval.Coupled R (reduce e (follow e depth stack) (.conditional c a f span))
        (reduce e' (follow e' depth' stack) (.conditional c a' f' span)) s t := by
    rw [reduce.eq_def, reduce.eq_def]
    refine (holds_coupled A.toDecideAlike c s t (A.leads hx .condition)
      (A.leads' hy .condition) hR).bind fun v s' t' hs ht h => ?_
    have := hbranch v s' t' hs (A.leads hx (.branch hs)) (A.leads' hy (.branch ht)) h
    cases v <;> exact this
  induction h with
  | nil =>
    intro s t _ _ h
    rw [reduceAll, reduceAll]
    exact .pure h
  | @leaf n ns ns' hn _ ih =>
    intro s t hx hy h
    refine cons hx hy ih ?_
    rw [reduce.eq_def, reduce.eq_def]
    cases n with
    | text content span => exact .pure h
    | slot name hint default span => exact .pure h
    | conditional c a f span => cases hn
    | part name cs span => cases hn
    | imported path span => exact hfollow _ ns ns' s t hx hy h
    | included path span => exact hfollow _ ns ns' s t hx hy h
    | context path span =>
      dsimp only
      rw [A.strict]
      split
      · rename_i hstrict
        obtain ⟨r, hs, ht⟩ := A.context hstrict hx hy h
        exact .bind (.stay (requireContext_of_bound hs) (requireContext_of_bound ht) h)
          fun _ _ _ _ _ h => .pure h
      · exact .pure h
  | part _ _ ihc ih =>
    intro s t hx hy h
    refine cons hx hy ih ?_
    rw [reduce.eq_def, reduce.eq_def]
    exact (ihc s t (A.leads hx .part) (A.leads' hy .part) h).bind fun ms _ _ _ _ h => .pure h
  | conditional _ _ _ iha ihf ih =>
    intro s t hx hy h
    refine cons hx hy ih (conditional hx hy h fun v s' t' _ hx' hy' h' => ?_)
    cases v
    · exact ihf s' t' hx' hy' h'
    · exact iha s' t' hx' hy' h'
  | thenBranch hskip _ _ _ ihf ih =>
    intro s t hx hy h
    refine cons hx hy ih (conditional hx hy h fun v s' t' hs hx' hy' h' => ?_)
    cases v
    · exact ihf s' t' hx' hy' h'
    · exact absurd hs (A.skipped hskip hx s')
  | elseBranch hskip _ _ _ iha ih =>
    intro s t hx hy h
    refine cons hx hy ih (conditional hx hy h fun v s' t' hs hx' hy' h' => ?_)
    cases v
    · exact absurd hs (A.skipped hskip hx s')
    · exact iha s' t' hx' hy' h'

section

variable {n : Node} {ns ns' : List Node} {path : String}
  (hd : ∀ stack ns ns' s t, Alters skip ns ns' → V (.trees depth stack ns, s) →
    V' (.trees depth' stack ns', t) → R s t →
      Eval.Coupled R (reduceAll e (follow e depth stack) ns)
        (reduceAll e' (follow e' depth' stack) ns') s t)
  (hx : V (.trees (depth + 1) stack (n :: ns), s))
  (hy : V' (.trees (depth' + 1) stack (n :: ns'), t)) (h : R s t)

include hd hx hy h

lemma importDocument_coupled (hs : RefersTo s n path) (ht : RefersTo t n path) :
    Eval.Coupled R (importDocument e (follow e depth) stack n path)
      (importDocument e' (follow e' depth') stack n path) s t := by
  unfold importDocument
  have hsome := A.loader
  rcases hl : e.loader with _ | loader <;> rcases hl' : e'.loader with _ | loader' <;>
    rw [hl, hl'] at hsome
  · dsimp only
    rw [A.strict]
    split
    · exact .fail h
    · exact (A.report h _ _ _ (by decide)).bind fun _ _ _ _ _ h => .pure h
  · cases hsome
  · cases hsome
  · obtain ⟨r, hr, hr'⟩ := openDocument_on A.timeout (A.loads hx hs hl hl')
    refine .bind (.stay (hr s) (hr' t) h) fun d s' t' hos hot h => ?_
    obtain ⟨rfl, rfl⟩ := Prod.mk.inj ((hr s).symm.trans hos)
    obtain ⟨-, rfl⟩ := Prod.mk.inj ((hr' t).symm.trans hot)
    have hopen : Opens e stack n s d.1 d.2 := ⟨path, loader, hs, hl, hos⟩
    have hopen' : Opens e' stack n t d.1 d.2 := ⟨path, loader', ht, hl', hot⟩
    refine (A.enter hx hopen h).bind fun _ s' t' hes het h => ?_
    exact hd _ _ _ s' t' (.refl d.2) (A.leads hx (.document hopen hes))
      (A.leads' hy (.document hopen' het)) h

end

/-- A reference comes down to the same in both runs. -/
lemma follow_coupled (n : Node) (ns ns' : List Node) (s : State σ) (t : State τ)
    (hx : V (.trees depth stack (n :: ns), s)) (hy : V' (.trees depth' stack (n :: ns'), t))
    (h : R s t) : Eval.Coupled R (follow e depth stack n) (follow e' depth' stack n) s t := by
  induction depth generalizing depth' stack n ns ns' s t with
  | zero => exact absurd rfl (A.deep hx)
  | succ depth ih =>
    rcases depth' with _ | depth'
    · exact absurd rfl (A.deep' hy)
    have hd (stack : Stack) (ns ns' : List Node) (s : State σ) (t : State τ)
        (halt : Alters skip ns ns') (hx : V (.trees depth stack ns, s))
        (hy : V' (.trees depth' stack ns', t)) (h : R s t) :
        Eval.Coupled R (reduceAll e (follow e depth stack) ns)
          (reduceAll e' (follow e' depth' stack) ns') s t :=
      reduceAll_coupled_of_follow A (fun n ns ns' s t hx hy h => ih n ns ns' s t hx hy h)
        halt s t hx hy h
    cases n with
    | imported path span =>
      exact importDocument_coupled A hd hx hy h (.imported path span) (.imported path span)
    | included path span =>
      rw [follow, follow]
      unfold includePart
      refine .get_bind ?_
      rcases (A.parts h).lookup path with ⟨hs, ht⟩ | ⟨cs, cs', hs, ht, halt⟩ <;> rw [hs, ht]
      · dsimp only
        rw [A.loader, A.strict]
        split
        · rename_i hfile
          obtain ⟨hfile, -⟩ := Bool.and_eq_true_iff.mp hfile
          exact importDocument_coupled A hd hx hy h (.included path span hs hfile)
            (.included path span ht hfile)
        · split
          · exact .fail h
          · exact (A.report h _ _ _ (by decide)).bind fun _ _ _ _ _ h => .pure h
      · dsimp only
        split
        · exact .fail h
        · rename_i hheld
          have hnew : path ∉ stack.parts := by simpa using hheld
          exact hd _ cs cs' s t halt (A.leads hx (.included hs hnew))
            (A.leads' hy (.included ht hnew)) h
    | _ => exact .pure h

/-- **Two runs in step**: from states that are related, trees that are the same but for skipped
branches are reduced to the same nodes, or fail alike, and the states stay related. -/
lemma reduceAll_coupled {ns ns' : List Node} (halt : Alters skip ns ns')
    (hx : V (.trees depth stack ns, s)) (hy : V' (.trees depth' stack ns', t)) (h : R s t) :
    Eval.Coupled R (reduceAll e (follow e depth stack) ns)
      (reduceAll e' (follow e' depth' stack) ns') s t :=
  reduceAll_coupled_of_follow A (fun n ns ns' s t hx hy h => follow_coupled A n ns ns' s t hx hy h)
    halt s t hx hy h

/-- A node is reduced alike in both runs. -/
lemma reduce_coupled {n : Node} {ns ns' : List Node} (hx : V (.trees depth stack (n :: ns), s))
    (hy : V' (.trees depth' stack (n :: ns'), t)) (h : R s t) :
    Eval.Coupled R (reduce e (follow e depth stack) n) (reduce e' (follow e' depth' stack) n) s
      t := by
  rw [reduce.eq_def, reduce.eq_def]
  cases n with
  | text content span => exact .pure h
  | slot name hint default span => exact .pure h
  | conditional c a f span =>
    refine (holds_coupled A.toDecideAlike c s t (A.leads hx .condition)
      (A.leads' hy .condition) h).bind fun v s' t' hs ht h => ?_
    have := reduceAll_coupled A (.refl _) (A.leads hx (.branch hs)) (A.leads' hy (.branch ht)) h
    cases v <;> exact this
  | part name cs span =>
    exact (reduceAll_coupled A (.refl cs) (A.leads hx .part) (A.leads' hy .part) h).bind
      fun ms _ _ _ _ h => .pure h
  | imported path span => exact follow_coupled A _ ns ns' s t hx hy h
  | included path span => exact follow_coupled A _ ns ns' s t hx hy h
  | context path span =>
    dsimp only
    rw [A.strict]
    split
    · rename_i hstrict
      obtain ⟨r, hs, ht⟩ := A.context hstrict hx hy h
      exact .bind (.stay (requireContext_of_bound hs) (requireContext_of_bound ht) h)
        fun _ _ _ _ _ h => .pure h
    · exact .pure h

end

/-! ### Whole evaluations -/

section

variable {e : Setup σ} {e' : Setup τ} {origin : Option String} {d d' : Document} {b : Bindings}
  {w : σ} {w' : τ}

/-- Evaluations go in step if what entering the documents leaves is related. -/
lemma evaluateIn_coupled {skip : Condition → Bool → Prop}
    (A : ReduceAlike e e' skip (e.Visits origin d.children b w)
      (e'.Visits origin d'.children b w') R)
    (halt : Alters skip d.children d'.children) (hspan : d'.span = d.span)
    (h : R (e.entered d.children ⟨b, [], [], w⟩) (e'.entered d'.children ⟨b, [], [], w'⟩)) :
    Eval.Coupled R (evaluateIn e origin d) (evaluateIn e' origin d') ⟨b, [], [], w⟩
      ⟨b, [], [], w'⟩ := by
  obtain ⟨hsame, hR⟩ := reduceAll_coupled A halt (e.visits_start origin d.children b w)
    (e'.visits_start origin d'.children b w') h
  unfold evaluateIn Eval.Coupled
  rw [Eval.on_bind, Eval.on_bind, enter_on, enter_on]
  dsimp only
  rw [Eval.on_bind_pure, Eval.on_bind_pure, hsame, hspan]
  exact ⟨rfl, hR⟩

/-- What evaluations in step show alike, if it is determined by what their states have in
common. -/
lemma evaluate_coupled {f : Result → α}
    (h : Eval.Coupled R (evaluateIn e origin d) (evaluateIn e' origin d') ⟨b, [], [], w⟩
      ⟨b, [], [], w'⟩)
    (hf : ∀ {s t}, R s t → ∀ d, f ⟨d, t.bindings, t.parts, t.issues⟩ =
      f ⟨d, s.bindings, s.parts, s.issues⟩) :
    (evaluate e' origin d' b w').1.map f = (evaluate e origin d b w).1.map f ∧
      ∃ s t, R s t ∧ (evaluate e origin d b w).2 = s.world ∧
        (evaluate e' origin d' b w').2 = t.world := by
  obtain ⟨hsame, hR⟩ := h
  rw [evaluate_on, evaluate_on, ← hsame]
  refine ⟨?_, _, _, hR, rfl, rfl⟩
  rcases ((evaluateIn e origin d).on ⟨b, [], [], w⟩).1 with fault | a
  · rfl
  · exact congrArg Except.ok (hf hR a)

end

/-! ### Runs with other results of context -/

lemma publicNames_eq (b : Bindings) : publicNames b = (Context.own b).map (·.1) := by
  rw [publicNames, Context.own, List.filter_map]
  rfl

/-- The condition itself looks up no name that may reach the results of context. -/
def IsBlind (c : Condition) : Prop := ∀ x, c.name? = some x → Variable.seesContext x = false

lemma IsBlind.lookup {c : Condition} {x : String} {b b' : Bindings} (hc : IsBlind c)
    (hx : c.name? = some x) (h : Context.own b = Context.own b') :
    Variable.lookup x b = Variable.lookup x b' :=
  Variable.lookup_congr_of_seesContext (hc x hx) fun _ hy => Context.find?_of_own_eq h hy

/-- A judge that answers as a function answers alike in both runs, whatever its state. -/
lemma askJudge_coupled {e : Setup σ} {e' : Setup σ} (hj : e'.judge = e.judge)
    (ht : e'.timeout = e.timeout) (hfun : ∀ judge, e.judge = some judge → judge.IsFunction)
    {R : State σ → State σ → Prop} {s t : State σ} (v : Value) (question : String) (h : R s t)
    (hask : ∀ judge, e.judge = some judge →
      R { s with world := (judge.ask v question s.world).2 }
        { t with world := (judge.ask v question t.world).2 }) :
    Eval.Coupled R (askJudge e v question) (askJudge e' v question) s t := by
  rcases hsome : e.judge with _ | judge
  · exact .stay (askJudge_on_none hsome v question s)
      (askJudge_on_none (hj.trans hsome) v question t) h
  · obtain ⟨answer, hanswer⟩ := hfun judge hsome
    unfold Eval.Coupled
    rw [askJudge_on_some hsome, askJudge_on_some (hj.trans hsome), ht, hanswer, hanswer]
    exact ⟨rfl, hask judge hsome⟩

/-! ### A single run -/

/-- A state and itself, of which the invariant holds. -/
def Diagonal (I : State σ → Prop) (s t : State σ) : Prop := s = t ∧ I s

lemma Eval.Coupled.diagonal {I : State σ → Prop} {x : Eval σ α} (h : I (x.on s).2) :
    Eval.Coupled (Diagonal I) x x s s := ⟨rfl, rfl, h⟩

/-- **A run and itself**: an invariant that the judge, reports and entering a document keep is kept
by all steps, at any depths that are not used up. -/
lemma reduceAlike_self {e : Setup σ} {N : Node → Prop} {names : List String}
    {V : Point σ → Prop} {I : State σ → Prop} (horder : ∀ x, V x → Orderly e N names x)
    (hleads : ∀ {x y}, V x → Leads e x y → V y)
    (hjudge : ∀ s v q, I s → I ((askJudge e v q).on s).2)
    (hreport : ∀ s kind message path, kind ≠ "context" → I s →
      I ((report kind message path).on s).2)
    (henter : ∀ {depth stack n key ms ns s}, V (.trees depth stack (n :: ns), s) →
      Opens e stack n s key ms → I s → I ((enter e ms).on s).2) :
    ReduceAlike e e (fun _ _ => False) V V (Diagonal I) where
  strict := rfl
  operators := rfl
  leads := hleads
  leads' := hleads
  names := by
    rintro s _ ⟨rfl, -⟩
    rfl
  lookup := by
    rintro c x s _ - - ⟨rfl, -⟩
    rfl
  judge := by
    rintro s _ ⟨rfl, h⟩ v q
    exact .diagonal (hjudge s v q h)
  present := by
    rintro p span s _ hx - ⟨rfl, -⟩
    obtain ⟨r, hr⟩ := (horder _ hx).present
    exact ⟨r, hr, hr⟩
  loader := rfl
  loads _ _ h h' _ := by rw [Option.some.inj (h.symm.trans h')]
  timeout := rfl
  deep := fun hx => (horder _ hx).depth_ne_zero
  deep' := fun hx => (horder _ hx).depth_ne_zero
  skipped := fun h => h.elim
  context := by
    rintro _ _ stack p span ns ns' s _ - hx - ⟨rfl, -⟩
    obtain ⟨r, hr⟩ := (horder _ hx).context
    exact ⟨r, hr, hr⟩
  parts := by
    rintro s _ ⟨rfl, -⟩
    exact .refl _
  report := by
    rintro s _ ⟨rfl, h⟩ kind message path hkind
    exact .diagonal (hreport s kind message path hkind h)
  enter := by
    rintro _ stack n key ms ns s _ hx hopen ⟨rfl, h⟩
    exact .diagonal (henter hx hopen h)

/-- What holds of the state at a point holds where the point leads, if all steps keep it. -/
lemma keeps_of_leads {e : Setup σ} {V : Point σ → Prop} {I : State σ → Prop}
    (A : ReduceAlike e e (fun _ _ => False) V V (Diagonal I)) {x y : Point σ} (hx : V x)
    (h : Leads e x y) (hI : I x.2) : I y.2 := by
  have decided {c : Condition} {v : Bool} {s t : State σ} (hc : V (.condition c, s)) (hI : I s)
      (h : (holds e c).on s = (.ok v, t)) : I t := by
    have hk := (holds_coupled A.toDecideAlike c s s hc hc ⟨rfl, hI⟩).2.2
    rwa [h] at hk
  cases h with
  | allRest h => exact decided (A.leads hx .allFirst) hI h
  | anyRest h => exact decided (A.leads hx .anyFirst) hI h
  | branch h => exact decided (A.leads hx .condition) hI h
  | document hopen henter =>
    have hk := (A.enter hx hopen ⟨rfl, hI⟩).2.2
    rwa [henter] at hk
  | behind h =>
    have hk := (reduce_coupled A hx hx ⟨rfl, hI⟩).2.2
    rwa [h] at hk
  | _ => exact hI

section

variable {e : Setup σ} {origin : Option String} {d : List Node} {b : Bindings} {w : σ}
  {I : State σ → Prop} (hjudge : ∀ s v q, I s → I ((askJudge e v q).on s).2)
  (hreport : ∀ s kind message path, kind ≠ "context" → I s →
    I { s with issues := s.issues ++ [⟨kind, message, path⟩] })
  (henter : ∀ {depth stack n key ms ns s}, e.Visits origin d b w (.trees depth stack (n :: ns), s) →
    Opens e stack n s key ms → I s → I (e.entered ms s))

include hjudge hreport henter

lemma reduceAlike_visits : ReduceAlike e e (fun _ _ => False) (e.Visits origin d b w)
    (e.Visits origin d b w) (Diagonal I) := by
  refine reduceAlike_self (fun _ hx => hx.orderly) (fun hx hxy => hx.leads hxy) hjudge hreport ?_
  intro depth stack n key ms ns s hx hopen h
  rw [enter_on]
  exact henter hx hopen h

/-- What entering the document leaves satisfies an invariant at every point of the evaluation, if
the judge, reports and entering a document that is loaded keep it. -/
lemma Setup.Visits.keeps (hstart : I (e.entered d ⟨b, [], [], w⟩)) {x : Point σ}
    (h : e.Visits origin d b w x) : I x.2 := by
  obtain ⟨s, hs, hx⟩ := h
  obtain rfl := (Prod.mk.inj ((enter_on e d _).symm.trans hs)).2
  induction hx with
  | refl => exact hstart
  | tail hy hleads ih =>
    exact keeps_of_leads (reduceAlike_visits hjudge hreport henter) ⟨_, hs, hy⟩ hleads ih

end

/-- The parts of the document are known all along. -/
lemma Setup.Visits.knows {e : Setup σ} {origin : Option String} {d : List Node} {b : Bindings}
    {w : σ} {x : Point σ} {name : String} (h : e.Visits origin d b w x)
    (hname : name ∈ (Node.parts d).map (·.1)) : (x.2.parts.lookup name).isSome = true := by
  let I (s : State σ) : Prop := (s.parts.lookup name).isSome = true
  have henter (ms : List Node) (s : State σ) (hs : I s) : I (e.entered ms s) := by
    change ((e.entered ms s).parts.lookup name).isSome = true
    rw [lookup_entered, Option.isSome_or, hs, Bool.true_or]
  refine h.keeps (I := I) (fun s v q hs => ?_) (fun _ _ _ _ _ hs => hs) (fun _ _ => henter _ _) ?_
  · change (((askJudge e v q).on s).2.parts.lookup name).isSome = true
    rwa [askJudge_parts]
  · obtain ⟨⟨_, cs⟩, hmem, rfl⟩ := List.mem_map.mp hname
    change ((e.entered d _).parts.lookup _).isSome = true
    rw [lookup_entered, List.lookup_nil, Option.none_or, List.lookup_isSome_iff]
    exact ⟨_, hmem, beq_self_eq_true _⟩

/-- What entering a document leaves satisfies an invariant at the end, however the evaluation ends,
if the judge, reports and entering a document that is loaded keep it. -/
lemma evaluateIn_keeps {e : Setup σ} {origin : Option String} {d : Document} {b : Bindings} {w : σ}
    {I : State σ → Prop} (hstart : I (e.entered d.children ⟨b, [], [], w⟩))
    (hjudge : ∀ s v q, I s → I ((askJudge e v q).on s).2)
    (hreport : ∀ s kind message path, kind ≠ "context" → I s →
      I { s with issues := s.issues ++ [⟨kind, message, path⟩] })
    (henter : ∀ ns s, e.Loads origin d.children b w ns → I s → I (e.entered ns s)) :
    I ((evaluateIn e origin d).on ⟨b, [], [], w⟩).2 := by
  have A := reduceAlike_visits (d := d.children) hjudge hreport
    fun {depth stack n key ms ns s} hx hopen h => by
      obtain ⟨depth, rfl⟩ := Nat.exists_eq_succ_of_ne_zero hx.orderly.depth_ne_zero
      exact henter ms s ⟨depth, stack, n, ns, s, key, hx, hopen⟩ h
  exact (evaluateIn_coupled A (.refl d.children) rfl ⟨rfl, hstart⟩).2.2

end Evaluation

end Stencil
