import Stencil.Proofs.Evaluation.Entry
import Stencil.Proofs.Template.Derived
import Stencil.Proofs.Variable

/-!
What an evaluation does to the state, and how it may fail.

A state only grows: bound context paths stay bound to the same results, and no other name is
touched. When a document is entered all its context paths become bound, whatever branches will be
taken, so that every tree that an evaluation works on is `Ready`, the parts that it may include
among them. A failure is an error of this library, an index too long to be read, or the end of
the depth (`Excused`).
-/

namespace Stencil

/-- The node may stand for another document: it is an import, or an include of what may be the path
of a file. -/
def Node.refersOut : Node → Bool
  | .imported .. => true
  | .included path _ => path.toList.contains '/' || Text.endsWith templateExtension path
  | _ => false

namespace Evaluation

variable {σ : Type} {s t u : State σ} {N : Node → Prop} {L : String → Prop}
  {names : List String} {e : Setup σ}

/-! ### Growing states -/

/-- What every step of an evaluation keeps. -/
structure Grown (s t : State σ) : Prop where
  bound : ∀ p r, Context.bound? s.bindings p = some r → Context.bound? t.bindings p = some r
  others : ∀ name, name ≠ Context.bindingName → t.bindings.find? name = s.bindings.find? name
  /-- What binding the answers of lookups preserves. -/
  kept : ∀ P : Bindings → Prop, (∀ b results, P b → P (Context.bind b results)) →
    P s.bindings → P t.bindings

namespace Grown

lemma refl (s : State σ) : Grown s s := ⟨fun _ _ h => h, fun _ _ => rfl, fun _ _ h => h⟩

lemma trans (h : Grown s t) (k : Grown t u) : Grown s u where
  bound p r hp := k.bound p r (h.bound p r hp)
  others name hn := (k.others name hn).trans (h.others name hn)
  kept P hP hs := k.kept P hP (h.kept P hP hs)

lemma of_bindings_eq (h : t.bindings = s.bindings) : Grown s t where
  bound p r hp := by rwa [h]
  others name _ := by rw [h]
  kept P _ hs := by rwa [h]

/-- Binding what was answered for paths that were not bound. -/
lemma of_bind {results : List (String × Context.Result)}
    (hb : t.bindings = Context.bind s.bindings results)
    (hr : ∀ p r, (p, r) ∈ results → Context.bound? s.bindings p = none) : Grown s t where
  bound p r hp := by
    rw [hb, Context.bound?_bind_of_not_mem, hp]
    intro r' hmem
    rw [hr p r' hmem] at hp
    cases hp
  others name hn := by rw [hb, Context.find?_bind hn]
  kept P hP hs := by
    rw [hb]
    exact hP _ _ hs

end Grown

/-- The same, and the parts are what they were. -/
structure Keeps (s t : State σ) : Prop extends Grown s t where
  parts : t.parts = s.parts

namespace Keeps

lemma refl (s : State σ) : Keeps s s := ⟨.refl s, rfl⟩

lemma trans (h : Keeps s t) (k : Keeps t u) : Keeps s u :=
  ⟨h.toGrown.trans k.toGrown, k.parts.trans h.parts⟩

end Keeps

/-- The same, and no problem is reported. -/
structure Quiet (s t : State σ) : Prop extends Keeps s t where
  issues : t.issues = s.issues

namespace Quiet

lemma refl (s : State σ) : Quiet s s := ⟨.refl s, rfl⟩

lemma trans (h : Quiet s t) (k : Quiet t u) : Quiet s u :=
  ⟨h.toKeeps.trans k.toKeeps, k.issues.trans h.issues⟩

end Quiet

/-! ### Trees that are ready -/

/-- Every node in the trees is of the kind `N`, and the paths that it asks for are bound. -/
def Ready (N : Node → Prop) (s : State σ) (ns : List Node) : Prop :=
  ∀ n ∈ Node.walk ns, N n ∧
    ∀ p ∈ Node.contextPathsOf n, (Context.bound? s.bindings p).isSome = true

/-- The parts that can be included are ready, and their names are among `names`. -/
def Settled (N : Node → Prop) (names : List String) (s : State σ) : Prop :=
  ∀ d ∈ s.parts, d.1 ∈ names ∧ Ready N s d.2

namespace Ready

variable {n : Node} {as bs ns : List Node}

lemma nil : Ready N s [] := by simp [Ready]

lemma cons_iff : Ready N s (n :: ns) ↔
    (N n ∧ ∀ p ∈ Node.contextPathsOf n, (Context.bound? s.bindings p).isSome = true) ∧
      Ready N s n.children ∧ Ready N s ns := by
  simp only [Ready, Node.walk_cons, List.forall_mem_cons, List.forall_mem_append]

lemma append_iff : Ready N s (as ++ bs) ↔ Ready N s as ∧ Ready N s bs := by
  simp only [Ready, Node.walk_append, List.forall_mem_append]

lemma head (h : Ready N s (n :: ns)) :
    N n ∧ ∀ p ∈ Node.contextPathsOf n, (Context.bound? s.bindings p).isSome = true :=
  (cons_iff.mp h).1

/-- The first tree alone. -/
lemma first (h : Ready N s (n :: ns)) : Ready N s [n] := by
  obtain ⟨hn, hc, -⟩ := cons_iff.mp h
  exact cons_iff.mpr ⟨hn, hc, nil⟩

lemma below (h : Ready N s (n :: ns)) : Ready N s n.children := (cons_iff.mp h).2.1

lemma rest (h : Ready N s (n :: ns)) : Ready N s ns := (cons_iff.mp h).2.2

lemma grown (h : Ready N s ns) (hg : Grown s t) : Ready N t ns := by
  refine fun n hn => ⟨(h n hn).1, fun p hp => ?_⟩
  obtain ⟨r, hr⟩ := Option.isSome_iff_exists.mp ((h n hn).2 p hp)
  rw [hg.bound p r hr]
  rfl

lemma of_mem_parts {d : String × List Node} (h : Ready N s ns) (hd : d ∈ Node.parts ns) :
    Ready N s d.2 := by
  obtain ⟨span, hs⟩ := Node.mem_parts hd
  exact fun n hn => h n (Node.mem_walk_of_mem_children hs hn)

/-- Trees are ready once their paths are bound. -/
lemma of_contextPaths (hN : ∀ n ∈ Node.walk ns, N n)
    (hp : ∀ p ∈ Node.contextPaths ns, (Context.bound? s.bindings p).isSome = true) :
    Ready N s ns :=
  fun n hn => ⟨hN n hn, fun p h => hp p (Node.mem_contextPaths.mpr ⟨n, hn, h⟩)⟩

end Ready

lemma Settled.keeps (h : Settled N names s) (hk : Keeps s t) : Settled N names t := by
  intro d hd
  obtain ⟨hn, hr⟩ := h d (hk.parts ▸ hd)
  exact ⟨hn, hr.grown hk.toGrown⟩

/-- A part that is found is ready. -/
lemma Settled.of_lookup {path : String} {children : List Node} (h : Settled N names s)
    (hl : s.parts.lookup path = some children) : path ∈ names ∧ Ready N s children := by
  obtain ⟨l₁, l₂, hparts, -⟩ := List.lookup_eq_some_iff.mp hl
  exact h (path, children) (by simp [hparts])

/-! ### Failures -/

/-- The judge may not answer and the evaluation has no time limit. -/
def Setup.Stalls (e : Setup σ) : Prop :=
  e.timeout = none ∧ ∃ judge, e.judge = some judge ∧ ∃ v q w, (judge.ask v q w).1 = .stalled none

/-- How a condition may fail to have a truth value when it looks up names in `L`. -/
inductive Excused (e : Setup σ) (L : String → Prop) : Failure → Prop where
  | own (error : Error) : Excused e L (.error error)
  | overlong (name : String) (k : Nat) (hn : L name)
    (hk : Variable.Overlong (Variable.segments name) k) : Excused e L (.value (.digitsTooLong k))
  | stalled (h : e.Stalls) : Excused e L .endless

/-! ### Conditions -/

lemma contextResult_meets (path : String) (s : State σ) {Q : Failure → Prop} :
    (contextResult e path).Meets s (fun _ t => Quiet s t) Q := by
  unfold contextResult
  refine .get_bind ?_
  split
  · exact .pure (.refl s)
  · rename_i hb
    refine .onWorld_bind (.bind (.modify (P := fun _ t => Quiet s t) ?_) fun _ t ht => .pure ht)
    refine ⟨⟨.of_bind rfl fun p r hr => ?_, rfl⟩, rfl⟩
    have hp := (Context.mem_resolvePaths e.resolver [path] s.world p).mp ⟨r, hr⟩
    rwa [List.mem_singleton.mp hp]

/-- A path that is bound is not looked up again. -/
lemma contextResult_of_bound {path : String} {r : Context.Result}
    (h : Context.bound? s.bindings path = some r) : (contextResult e path).on s = (.ok r, s) := by
  unfold contextResult
  rw [Eval.on_get_bind, h]
  rfl

lemma requireContext_meets (path : String) (s : State σ) :
    (requireContext e path).Meets s (fun _ t => Quiet s t) (Excused e L) := by
  unfold requireContext
  refine (contextResult_meets path s).bind fun r t ht => ?_
  split
  · exact .fail (.own _)
  · exact .pure ht

lemma unknownVariable_meets (name : String) (s : State σ) :
    (unknownVariable e name).Meets s (fun _ t => Quiet s t) (Excused e L) := by
  unfold unknownVariable
  split
  · exact .get_bind (.fail (.own _))
  · exact .pure (.refl s)

lemma excused_judgeFailure (question : String) (f : Failure) :
    Excused e L (judgeFailure question f) := by cases f <;> exact .own _

lemma askJudge_meets (v : Value) (question : String) (s : State σ) :
    (askJudge e v question).Meets s (fun _ t => Quiet s t) (Excused e L) := by
  unfold askJudge
  split
  · exact .fail (.own _)
  · rename_i judge hj
    refine .onWorld_bind ?_
    have hk : Quiet s { s with world := (judge.ask v question s.world).2 } :=
      ⟨⟨.of_bindings_eq rfl, rfl⟩, rfl⟩
    have hown (f : Failure) : Excused e L (judgeFailure question f) :=
      excused_judgeFailure question f
    rcases hv : (judge.ask v question s.world).1 with a | f | limit
    · exact .pure hk
    · exact .throw (hown f)
    · rcases ht : e.timeout with _ | t <;> rcases limit with _ | ⟨x, f⟩
      · exact .throw (.stalled ⟨ht, judge, hj, v, question, s.world, hv⟩)
      · exact .throw (hown f)
      · exact .fail (.own _)
      · dsimp only
        split
        · split
          · exact .fail (.own _)
          · exact .throw (hown f)
        · exact .throw (hown f)

lemma applyOperator_meets (name : String) (op : Operator) (v : Value) (arg : Argument)
    (s : State σ) : (applyOperator name op v arg).Meets s (fun _ t => Quiet s t) (Excused e L) := by
  unfold applyOperator
  split
  · exact .pure (.refl s)
  · exact .fail (.own _)
  · exact .fail (.own _)

/-- Looking a name up fails only for an index too long to be read. -/
lemma lookup_bind_meets {α : Type} {name : String} {f : Option Value → Eval σ α}
    {P : α → State σ → Prop} (hn : L name) (h : ∀ v, (f v).Meets s P (Excused e L)) :
    Eval.Meets (lookup name >>= f) s P (Excused e L) := by
  refine .lookup_bind (fun v _ => h v) fun fault hf => ?_
  obtain ⟨k, rfl, -, hb⟩ := Variable.lookup_error_iff.mp hf
  exact .overlong name k hn hb.overlong

lemma comparison_meets {name : String} (hn : L name) (operator : String) (arg : Argument)
    (s : State σ) :
    (comparison e name operator arg).Meets s (fun _ t => Quiet s t) (Excused e L) := by
  unfold comparison
  split
  · split
    · exact .fail (.own _)
    · exact .pure (.refl s)
  · refine lookup_bind_meets hn fun v => ?_
    split
    · exact applyOperator_meets _ _ _ _ s
    · split
      · exact .pure (.refl s)
      · split
        · exact unknownVariable_meets _ s
        · exact applyOperator_meets _ _ _ _ s

mutual

/-- Deciding a condition keeps the parts and what is bound, and reports no problem. -/
lemma holds_meets : ∀ (c : Condition) (_ : ∀ x ∈ c.names, L x) (s : State σ),
    (holds e c).Meets s (fun _ t => Quiet s t) (Excused e L)
  | .literal b span, _, s => by
    rw [holds]
    exact .pure (.refl s)
  | .ref name span, h, s => by
    rw [holds]
    refine lookup_bind_meets (h name (by simp)) fun v => ?_
    split
    · exact .pure (.refl s)
    · exact unknownVariable_meets _ s
  | .not c span, h, s => by
    rw [holds]
    exact (holds_meets c (by simpa using h) s).bind fun b t ht => .pure ht
  | .and cs span, h, s => by
    rw [holds]
    exact allHold_meets cs (fun c hc x hx => h x (by simpa using ⟨c, hc, hx⟩)) s
  | .or cs span, h, s => by
    rw [holds]
    exact anyHolds_meets cs (fun c hc x hx => h x (by simpa using ⟨c, hc, hx⟩)) s
  | .compare name op arg span, h, s => by
    rw [holds]
    exact comparison_meets (h name (by simp)) op arg s
  | .judge name question span, h, s => by
    rw [holds]
    refine lookup_bind_meets (h name (by simp)) fun v => ?_
    split
    · exact askJudge_meets _ _ s
    · exact unknownVariable_meets _ s
  | .present path span, _, s => by
    rw [holds]
    refine (contextResult_meets path s).bind fun r t ht => ?_
    split
    · exact .pure ht
    · split
      · exact .pure ht
      · exact .fail (.own _)

lemma allHold_meets : ∀ (cs : List Condition) (_ : ∀ c ∈ cs, ∀ x ∈ c.names, L x) (s : State σ),
    (allHold e cs).Meets s (fun _ t => Quiet s t) (Excused e L)
  | [], _, s => by
    rw [allHold]
    exact .pure (.refl s)
  | c :: cs, h, s => by
    rw [allHold]
    obtain ⟨hc, hcs⟩ := List.forall_mem_cons.mp h
    refine (holds_meets c hc s).bind fun b t ht => ?_
    split
    · exact (allHold_meets cs hcs t).mono (fun _ _ hu => ht.trans hu) fun _ hf => hf
    · exact .pure ht

lemma anyHolds_meets : ∀ (cs : List Condition) (_ : ∀ c ∈ cs, ∀ x ∈ c.names, L x) (s : State σ),
    (anyHolds e cs).Meets s (fun _ t => Quiet s t) (Excused e L)
  | [], _, s => by
    rw [anyHolds]
    exact .pure (.refl s)
  | c :: cs, h, s => by
    rw [anyHolds]
    obtain ⟨hc, hcs⟩ := List.forall_mem_cons.mp h
    refine (holds_meets c hc s).bind fun b t ht => ?_
    split
    · exact .pure ht
    · exact (anyHolds_meets cs hcs t).mono (fun _ _ hu => ht.trans hu) fun _ hf => hf

end

/-! ### Entering a document -/

lemma lookedUp_grown (ns : List Node) (s : State σ) : Grown s (e.lookedUp ns s) := by
  unfold Setup.lookedUp
  split
  · exact .refl s
  · exact .of_bind rfl fun p r hr => (mem_unbound.mp (mem_answers.mp ⟨r, hr⟩)).2

/-- Behind a prefetch every context path in the trees is bound. -/
lemma prefetch_meets (ns : List Node) (s : State σ) {Q : Failure → Prop} :
    (prefetch e ns).Meets s (fun _ t => Keeps s t ∧
      ∀ p ∈ Node.contextPaths ns, (Context.bound? t.bindings p).isSome = true) Q := by
  unfold Eval.Meets
  rw [prefetch_on]
  exact ⟨⟨lookedUp_grown ns s, lookedUp_parts ns s⟩,
    fun p hp => isSome_bound?_lookedUp.mpr (.inr hp)⟩

/-- The parts known after a document's are made known: those from before, and some of its own. -/
lemma defineParts_meets (ns : List Node) (s : State σ) {Q : Failure → Prop} :
    (defineParts ns).Meets s (fun _ t => Grown s t ∧
      ∀ d ∈ t.parts, d ∈ s.parts ∨ d ∈ Node.parts ns) Q := by
  refine .modify ⟨.of_bindings_eq rfl, ?_⟩
  dsimp only
  generalize Node.parts ns = defined
  generalize s.parts = known
  induction defined generalizing known with
  | nil => exact fun d hd => .inl hd
  | cons x rest ih =>
    rw [List.foldl_cons]
    intro d hd
    rcases ih _ d hd with h | h
    · split at h
      · exact .inl h
      · rcases List.mem_append.mp h with h | h
        · exact .inl h
        · obtain rfl := List.mem_singleton.mp h
          exact .inr List.mem_cons_self
    · exact .inr (List.mem_cons_of_mem _ h)

/-- What a document must be like to be entered: its nodes of the kind `N`, its parts among
`names`. -/
structure Admitted (N : Node → Prop) (names : List String) (ns : List Node) : Prop where
  kind : ∀ n ∈ Node.walk ns, N n
  parts : ∀ d ∈ Node.parts ns, d.1 ∈ names

/-- Entering a document makes it ready, and its parts with it. -/
lemma enter_meets {ns : List Node} (hN : Admitted N names ns) (hs : Settled N names s)
    {Q : Failure → Prop} : (enter e ns).Meets s
      (fun _ t => Grown s t ∧ Settled N names t ∧ Ready N t ns) Q := by
  refine (prefetch_meets ns s).bind fun _ t ht => ?_
  obtain ⟨hk, hb⟩ := ht
  have hready : Ready N t ns := .of_contextPaths hN.kind hb
  refine (defineParts_meets ns t).mono (fun _ u hu => ?_) fun _ h => h
  refine ⟨hk.toGrown.trans hu.1, fun d hd => ?_, hready.grown hu.1⟩
  rcases hu.2 d hd with h | h
  · obtain ⟨hn, hr⟩ := hs.keeps hk d h
    exact ⟨hn, hr.grown hu.1⟩
  · exact ⟨hN.parts d h, (hready.of_mem_parts h).grown hu.1⟩

/-! ### Trees -/

/-- What the reduction of a tree leaves. -/
structure Leaves (N : Node → Prop) (names : List String) (s : State σ) (ms : List Node)
    (t : State σ) : Prop where
  grown : Grown s t
  settled : Settled N names t
  ready : Ready N t ms

lemma Leaves.behind {ms : List Node} (h : Leaves N names t ms u) (hg : Grown s t) :
    Leaves N names s ms u := ⟨hg.trans h.grown, h.settled, h.ready⟩

/-- Whether a part is of the kind does not depend on what is in it, and the conditions of nodes
of the kind look up names in `L` only. -/
structure Kind (N : Node → Prop) (L : String → Prop) : Prop where
  part : ∀ name cs ms span, N (.part name cs span) → N (.part name ms span)
  looks : ∀ c t f span, N (.conditional c t f span) → ∀ x ∈ c.names, L x

/-- Where the names in conditions do not matter. -/
def AnyName (_ : String) : Prop := True

section

variable {follow : Node → Eval σ (List Node)} {Q : Failure → Prop} (hkind : Kind N L)
  (hQ : ∀ f, Excused e L f → Q f)
  (hf : ∀ n s, Settled N names s → Ready N s [n] → (follow n).Meets s (Leaves N names s) Q)

include hkind hQ hf

/-- A tree is reduced as its references are: `follow` says what these come to. -/
lemma reduceAll_meets (ns : List Node) (s : State σ) (hs : Settled N names s)
    (hr : Ready N s ns) : (reduceAll e follow ns).Meets s (Leaves N names s) Q := by
  -- the first node, then the rest
  have cons {n : Node} {ns : List Node} {s : State σ}
      (ih : ∀ t, Settled N names t → Ready N t ns →
        (reduceAll e follow ns).Meets t (Leaves N names t) Q)
      (hr : Ready N s ns) (hn : (reduce e follow n).Meets s (Leaves N names s) Q) :
      (reduceAll e follow (n :: ns)).Meets s (Leaves N names s) Q := by
    rw [reduceAll]
    refine hn.bind fun ms t ht => ?_
    refine (ih t ht.settled (hr.grown ht.grown)).bind fun ks u hu => .pure ?_
    exact ⟨ht.grown.trans hu.grown, hu.settled,
      Ready.append_iff.mpr ⟨ht.ready.grown hu.grown, hu.ready⟩⟩
  have single {n : Node} {s : State σ} (hs : Settled N names s) (hn : Ready N s [n]) :
      Leaves N names s [n] s := ⟨.refl s, hs, hn⟩
  induction ns using Node.forest_induction generalizing s with
  | nil =>
    rw [reduceAll]
    exact .pure ⟨.refl s, hs, .nil⟩
  | text c span ns ih =>
    refine cons ih hr.rest ?_
    rw [reduce.eq_def]
    exact .pure (single hs hr.first)
  | slot name h d span ns ih =>
    refine cons ih hr.rest ?_
    rw [reduce.eq_def]
    exact .pure (single hs hr.first)
  | conditional c t f span ns iht ihf ih =>
    obtain ⟨-, hc, hrest⟩ := Ready.cons_iff.mp hr
    refine cons ih hrest ?_
    rw [reduce.eq_def]
    have hlooks := hkind.looks c t f span hr.head.1
    refine ((holds_meets c hlooks s).mono (fun _ _ h => h) hQ).bind fun b u hu => ?_
    obtain ⟨ht, hf⟩ := Ready.append_iff.mp (hc.grown hu.toGrown)
    split
    · exact (iht u (hs.keeps hu.toKeeps) ht).mono (fun _ _ h => h.behind hu.toGrown) fun _ h => h
    · exact (ihf u (hs.keeps hu.toKeeps) hf).mono (fun _ _ h => h.behind hu.toGrown) fun _ h => h
  | part name cs span ns ihc ih =>
    obtain ⟨hn, hc, hrest⟩ := Ready.cons_iff.mp hr
    refine cons ih hrest ?_
    rw [reduce.eq_def]
    refine (ihc s hs hc).bind fun ms u hu => .pure ⟨hu.grown, hu.settled, ?_⟩
    exact Ready.cons_iff.mpr ⟨⟨hkind.part _ _ _ _ hn.1, by simp [Node.contextPathsOf,
      Node.conditions]⟩, hu.ready, .nil⟩
  | imported path span ns ih =>
    refine cons ih hr.rest ?_
    rw [reduce.eq_def]
    exact hf _ s hs hr.first
  | included path span ns ih =>
    refine cons ih hr.rest ?_
    rw [reduce.eq_def]
    exact hf _ s hs hr.first
  | context path span ns ih =>
    refine cons ih hr.rest ?_
    rw [reduce.eq_def]
    dsimp only
    split
    · refine ((requireContext_meets path s).mono (fun _ _ h => h) hQ).bind fun _ u hu => ?_
      exact .pure ⟨hu.toGrown, hs.keeps hu.toKeeps, hr.first.grown hu.toGrown⟩
    · exact .pure (single hs hr.first)

lemma reduce_meets (n : Node) (s : State σ) (hs : Settled N names s) (hr : Ready N s [n]) :
    (reduce e follow n).Meets s (Leaves N names s) Q := by
  have h := reduceAll_meets hkind hQ hf [n] s hs hr
  unfold Eval.Meets at h ⊢
  rw [reduceAll, Eval.on_bind] at h
  rcases hn : (reduce e follow n).on s with ⟨fault | ms, t⟩ <;> rw [hn] at h
  · exact h
  · rw [reduceAll] at h
    change Leaves N names s (ms ++ []) t at h
    rwa [List.append_nil] at h

end

/-! ### References -/

/-- The documents that can be imported. -/
def Setup.documents (e : Setup σ) : List (String × String) :=
  match e.loader with
  | some l => l.documents
  | none => []

def Setup.keys (e : Setup σ) : List String := e.documents.map (·.1)

/-- The trees of the documents that can be imported. -/
def Setup.Imports (e : Setup σ) (ns : List Node) : Prop :=
  ∃ d ∈ e.documents, (parse d.2).success = true ∧ ns = (parse d.2).document.children

/-- If nodes of the kind may stand for other documents, those that can be imported are admitted. -/
def Setup.Admits (e : Setup σ) (N : Node → Prop) (names : List String) : Prop :=
  ∀ n, N n → n.refersOut = true → ∀ ns, e.Imports ns → Admitted N names ns

/-- The stack holds no part and no document twice, and the depth left is more than the parts and
documents that are not on it. -/
structure Room (e : Setup σ) (names : List String) (depth : Nat) (stack : Stack) : Prop where
  parts : stack.parts.Nodup
  named : ∀ x ∈ stack.parts, x ∈ names
  documents : stack.documents.Nodup
  loaded : ∀ x ∈ stack.documents, x ∈ e.keys
  enough : names.length + e.keys.length < depth + stack.parts.length + stack.documents.length

namespace Room

variable {depth : Nat} {stack : Stack}

/-- The depth never runs out: no more parts and documents can be on a stack than there are. -/
lemma not_zero : ¬ Room e names 0 stack := by
  intro h
  have hp := h.parts.length_le_of_subset h.named
  have hd := h.documents.length_le_of_subset h.loaded
  have := h.enough
  omega

lemma push_part (h : Room e names (depth + 1) stack) {path : String} (hn : path ∈ names)
    (hs : path ∉ stack.parts) : Room e names depth { stack with parts := path :: stack.parts } where
  parts := List.nodup_cons.mpr ⟨hs, h.parts⟩
  named := List.forall_mem_cons.mpr ⟨hn, h.named⟩
  documents := h.documents
  loaded := h.loaded
  enough := by
    have := h.enough
    simp only [List.length_cons]
    omega

lemma push_document (h : Room e names (depth + 1) stack) {key : String} (hk : key ∈ e.keys)
    (hs : key ∉ stack.documents) :
    Room e names depth { stack with documents := key :: stack.documents } where
  parts := h.parts
  named := h.named
  documents := List.nodup_cons.mpr ⟨hs, h.documents⟩
  loaded := List.forall_mem_cons.mpr ⟨hk, h.loaded⟩
  enough := by
    have := h.enough
    simp only [List.length_cons]
    omega

end Room

/-- A failure is excused, or the depth ran out and there was no room. -/
def Ended (e : Setup σ) (L : String → Prop) (names : List String) (depth : Nat) (stack : Stack)
    (f : Failure) : Prop :=
  Excused e L f ∨ f = .endless ∧ ¬ Room e names depth stack

lemma Ended.mono {depth depth' : Nat} {stack stack' : Stack} {f : Failure}
    (h : Ended e L names depth stack f)
    (hr : Room e names depth' stack' → Room e names depth stack) :
    Ended e L names depth' stack' f :=
  h.imp_right fun ⟨hf, hn⟩ => ⟨hf, fun h => hn (hr h)⟩

/-- A document that is opened can be imported and is not around the reference. -/
lemma openDocument_meets {l : ImportLoader} (hl : e.loader = some l) (stack : Stack)
    (path : String) (s : State σ) : (openDocument e l stack path).Meets s
      (fun d t => t = s ∧ e.Imports d.2 ∧ d.1 ∈ e.keys ∧ d.1 ∉ stack.documents ∧
        stack.outermost ≠ some d.1) (Excused e L) := by
  unfold openDocument
  split
  · exact .fail (.own _)
  split
  · exact .fail (.own _)
  · rename_i key source hload
    have hmem : (key, source) ∈ e.documents := by
      rw [Setup.documents, hl]
      exact l.load_mem _ _ _ hload
    split
    · exact .fail (.own _)
    · rename_i hheld
      dsimp only
      split
      · exact .fail (.own _)
      · rename_i hsucc
        have hnew : key ∉ stack.documents ∧ stack.outermost ≠ some key := by
          simpa [Stack.holdsDocument] using hheld
        exact .pure ⟨rfl, ⟨_, hmem, by simpa using hsucc, rfl⟩,
          List.mem_map.mpr ⟨_, hmem, rfl⟩, hnew⟩

section

variable {depth : Nat} {stack : Stack} {node : Node} {path : String} (hadm : e.Admits N names)
  (hd : ∀ stack ns s, Settled N names s → Ready N s ns →
    (reduceAll e (follow e depth stack) ns).Meets s (Leaves N names s)
      (Ended e L names depth stack))

include hadm hd

lemma importDocument_meets (hout : node.refersOut = true) (hs : Settled N names s)
    (hr : Ready N s [node]) : (importDocument e (follow e depth) stack node path).Meets s
      (Leaves N names s) (Ended e L names (depth + 1) stack) := by
  unfold importDocument
  split
  · dsimp only
    split
    · exact .fail (.inl (.own _))
    · have hg : Grown s { s with issues := s.issues ++ [⟨"import",
          (EvaluationFault.noImportLoader path).message, path⟩] } := .of_bindings_eq rfl
      refine .bind (P := fun _ t => Grown s t ∧ t.parts = s.parts) (.report ⟨hg, rfl⟩) ?_
      rintro _ t ⟨hg, hp⟩
      exact .pure ⟨hg, hs.keeps ⟨hg, hp⟩, hr.grown hg⟩
  · rename_i l hl
    refine ((openDocument_meets hl stack path s).mono (fun _ _ h => h) fun _ h => .inl h).bind ?_
    rintro ⟨key, nodes⟩ _ ⟨rfl, himp, hkey, hnew, -⟩
    refine (enter_meets (hadm node hr.head.1 hout nodes himp) hs).bind ?_
    rintro _ t ⟨hg, ht, hready⟩
    exact (hd _ _ t ht hready).mono (fun _ _ h => h.behind hg)
      fun _ h => h.mono fun hroom => hroom.push_document hkey hnew

lemma includePart_meets {span : Span} (hs : Settled N names s)
    (hr : Ready N s [.included path span]) :
    (includePart e (follow e depth) stack (.included path span) path).Meets s (Leaves N names s)
      (Ended e L names (depth + 1) stack) := by
  unfold includePart
  refine .get_bind ?_
  split
  · rename_i children hlookup
    obtain ⟨hn, hready⟩ := hs.of_lookup hlookup
    split
    · exact .fail (.inl (.own _))
    · rename_i hheld
      have hnew : path ∉ stack.parts := by simpa using hheld
      exact (hd _ _ s hs hready).mono (fun _ _ h => h)
        fun _ h => h.mono fun hroom => hroom.push_part hn hnew
  · split
    · rename_i hfile
      exact importDocument_meets hadm hd (Bool.and_eq_true_iff.mp hfile).1 hs hr
    · dsimp only
      split
      · exact .fail (.inl (.own _))
      · have hg : Grown s { s with issues := s.issues ++ [⟨"include",
            (EvaluationFault.partNotFound path).message, path⟩] } := .of_bindings_eq rfl
        refine .bind (P := fun _ t => Grown s t ∧ t.parts = s.parts) (.report ⟨hg, rfl⟩) ?_
        rintro _ t ⟨hg, hp⟩
        exact .pure ⟨hg, hs.keeps ⟨hg, hp⟩, hr.grown hg⟩

end

/-- Following a reference leaves ready trees, and ends as long as there is room. -/
lemma follow_meets (hkind : Kind N L) (hadm : e.Admits N names) (depth : Nat) (stack : Stack)
    (n : Node) (s : State σ) (hs : Settled N names s) (hr : Ready N s [n]) :
    (follow e depth stack n).Meets s (Leaves N names s) (Ended e L names depth stack) := by
  induction depth generalizing stack n s with
  | zero => exact .throw (.inr ⟨rfl, Room.not_zero⟩)
  | succ depth ih =>
    have hd (stack : Stack) (ns : List Node) (s : State σ) (hs : Settled N names s)
        (hr : Ready N s ns) : (reduceAll e (follow e depth stack) ns).Meets s (Leaves N names s)
          (Ended e L names depth stack) :=
      reduceAll_meets hkind (fun _ h => .inl h) (fun n s => ih stack n s) ns s hs hr
    cases n with
    | imported path span => exact importDocument_meets hadm hd rfl hs hr
    | included path span => exact includePart_meets hadm hd hs hr
    | _ => exact .pure ⟨.refl s, hs, hr⟩

/-- What the reduction of any trees leaves, at any depth. -/
lemma reduceAll_follow_meets (hkind : Kind N L) (hadm : e.Admits N names) (depth : Nat)
    (stack : Stack) (ns : List Node) (s : State σ) (hs : Settled N names s) (hr : Ready N s ns) :
    (reduceAll e (follow e depth stack) ns).Meets s (Leaves N names s)
      (Ended e L names depth stack) :=
  reduceAll_meets hkind (fun _ h => .inl h)
    (fun n s => follow_meets hkind hadm depth stack n s) ns s hs hr

/-! ### Documents -/

/-- The names of the parts of a document and of all that can be imported. -/
def Setup.partNames (e : Setup σ) (ns : List Node) : List String :=
  (Node.parts ns).map (·.1) ++ e.documents.flatMap fun d =>
    if (parse d.2).success then (Node.parts (parse d.2).document.children).map (·.1) else []

lemma admitted_main {ns : List Node} (hN : ∀ n ∈ Node.walk ns, N n) :
    Admitted N (e.partNames ns) ns :=
  ⟨hN, fun _ hd => List.mem_append_left _ (List.mem_map.mpr ⟨_, hd, rfl⟩)⟩

lemma admitted_import {main ns : List Node} (h : e.Imports ns) (hN : ∀ n ∈ Node.walk ns, N n) :
    Admitted N (e.partNames main) ns := by
  obtain ⟨d, hd, hs, rfl⟩ := h
  refine ⟨hN, fun x hx => List.mem_append_right _ (List.mem_flatMap.mpr ⟨d, hd, ?_⟩)⟩
  rw [if_pos hs]
  exact List.mem_map.mpr ⟨x, hx, rfl⟩

/-- There are fewer parts and documents than references are followed into. -/
lemma parts_lt_depthBound (e : Setup σ) (ns : List Node) :
    (e.partNames ns).length + e.keys.length < depthBound e ns := by
  have documents (ds : List (String × String)) (acc : Nat) :
      (ds.flatMap fun d => if (parse d.2).success then
        (Node.parts (parse d.2).document.children).map (·.1) else []).length + ds.length + acc ≤
          ds.foldl (fun n d => n + (d.2.length + 1)) acc := by
    induction ds generalizing acc with
    | nil => simp
    | cons d ds ih =>
      have hd : (if (parse d.2).success then
          (Node.parts (parse d.2).document.children).map (·.1) else []).length ≤ d.2.length := by
        split
        · rename_i hs
          rw [List.length_map]
          exact Template.length_parts_parse hs
        · exact Nat.zero_le _
      have := ih (acc + (d.2.length + 1))
      rw [List.flatMap_cons, List.length_append, List.length_cons, List.foldl_cons]
      omega
  have hmain : (Node.parts ns).length ≤ Node.sizeAll ns :=
    ((Node.length_parts_le ns).trans List.countP_le_length).trans_eq (Node.length_walk ns)
  have hdocuments := documents e.documents 0
  unfold depthBound
  rw [Setup.partNames, Setup.keys, List.length_append, List.length_map, List.length_map]
  change _ < Node.sizeAll ns + e.documents.foldl (fun n d => n + (d.2.length + 1)) 0 + 1
  omega

/-- There is room at the start if the depth exceeds the number of names and documents. -/
lemma room_initial {depth : Nat} (h : names.length + e.keys.length < depth)
    (origin : Option String) : Room e names depth ⟨origin, [], []⟩ where
  parts := List.nodup_nil
  named := by simp
  documents := List.nodup_nil
  loaded := by simp
  enough := h

lemma settled_initial (b : Bindings) (w : σ) : Settled N names (⟨b, [], [], w⟩ : State σ) := by
  simp [Settled]

lemma evaluate_on (e : Setup σ) (origin : Option String) (d : Document) (b : Bindings) (w : σ) :
    evaluate e origin d b w =
      (((evaluateIn e origin d).on ⟨b, [], [], w⟩).1.map fun d' =>
        ⟨d', ((evaluateIn e origin d).on ⟨b, [], [], w⟩).2.bindings,
          ((evaluateIn e origin d).on ⟨b, [], [], w⟩).2.parts,
          ((evaluateIn e origin d).on ⟨b, [], [], w⟩).2.issues⟩,
        ((evaluateIn e origin d).on ⟨b, [], [], w⟩).2.world) := rfl

lemma evaluate_eq (e : Setup σ) (origin : Option String) (d : Document) (b : Bindings) (w : σ) :
    evaluate e origin d b w = match (evaluateIn e origin d).on ⟨b, [], [], w⟩ with
      | (.ok d', t) => (.ok ⟨d', t.bindings, t.parts, t.issues⟩, t.world)
      | (.error f, t) => (.error f, t.world) := by
  rw [evaluate_on]
  rcases (evaluateIn e origin d).on ⟨b, [], [], w⟩ with ⟨_ | d', t⟩ <;> rfl

end Evaluation

end Stencil
