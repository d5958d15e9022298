import Stencil.Evaluation.Evaluate
import Stencil.Proofs.Context.Binding
import Stencil.Proofs.Evaluation.Outcome

/-!
What entering a document does to a state, exactly.

It cannot fail. The context paths that have no result yet are looked up together, and nothing
happens if there are none (`Setup.lookedUp`); then the parts of the document are known besides
those that were known already.
-/

namespace Stencil.Evaluation

variable {σ : Type} {e : Setup σ} {s : State σ} {ns : List Node}

/-- The context paths in the trees that have no result yet. -/
def unbound (b : Bindings) (ns : List Node) : List String :=
  (Node.contextPaths ns).filter fun p => (Context.bound? b p).isNone

lemma mem_unbound {b : Bindings} {p : String} : p ∈ unbound b ns ↔
    p ∈ Node.contextPaths ns ∧ Context.bound? b p = none := by
  simp [unbound]

lemma nodup_unbound (b : Bindings) (ns : List Node) : (unbound b ns).Nodup :=
  (Node.nodup_distinct _).filter _

/-- The problem that is reported of a lookup without content. -/
def lookupIssue? (answer : String × Context.Result) : Option Issue :=
  if answer.2.success then none
  else
    let message := match answer.2.error with
      | some m => if m == "" then "Context could not be resolved" else m
      | none => "Context could not be resolved"
    some ⟨"context", message, answer.1⟩

/-- What a lookup of the paths in the trees answers that have no result yet. -/
def Setup.answers (e : Setup σ) (ns : List Node) (s : State σ) : List (String × Context.Result) :=
  (Context.resolvePaths e.resolver (unbound s.bindings ns) s.world).1

/-- The state once these paths are looked up. -/
def Setup.lookedUp (e : Setup σ) (ns : List Node) (s : State σ) : State σ :=
  if (unbound s.bindings ns).isEmpty then s
  else
    { s with
      bindings := Context.bind s.bindings (e.answers ns s)
      issues := s.issues ++ (e.answers ns s).filterMap lookupIssue?
      world := (Context.resolvePaths e.resolver (unbound s.bindings ns) s.world).2 }

/-- Parts that are known, and those of the definitions whose names are new. -/
def knownParts (known ds : List (String × List Node)) : List (String × List Node) :=
  ds.foldl (fun known d => if known.any (·.1 == d.1) then known else known ++ [d]) known

/-- The state once a document of these nodes is entered. -/
def Setup.entered (e : Setup σ) (ns : List Node) (s : State σ) : State σ :=
  { e.lookedUp ns s with parts := knownParts s.parts (Node.parts ns) }

/-! ### Entering -/

lemma foldl_issues (s : State σ) (answers : List (String × Context.Result)) :
    answers.foldl (fun s x => { s with issues := s.issues ++ (lookupIssue? x).toList }) s =
      { s with issues := s.issues ++ answers.filterMap lookupIssue? } := by
  induction answers generalizing s with
  | nil => simp
  | cons x answers ih =>
    rw [List.foldl_cons, ih, List.filterMap_cons]
    rcases lookupIssue? x with _ | issue <;> simp

lemma prefetch_on (e : Setup σ) (ns : List Node) (s : State σ) :
    (prefetch e ns).on s = (.ok (), e.lookedUp ns s) := by
  unfold prefetch Setup.lookedUp
  rw [Eval.on_get_bind]
  dsimp only
  change Eval.on (if (unbound s.bindings ns).isEmpty then _ else _) s = _
  split
  · rfl
  · rw [Eval.on_bind, Eval.on_onWorld]
    dsimp only
    rw [Eval.on_bind, Eval.on_forIn (f := fun s x =>
      { s with issues := s.issues ++ (lookupIssue? x).toList }), foldl_issues]
    · rfl
    · rintro ⟨p, r⟩ s
      unfold lookupIssue?
      cases r.success
      · rfl
      · simp
        rfl

/-! ### What a lookup leaves -/

lemma nodup_keys_answers (ns : List Node) (s : State σ) : ((e.answers ns s).map (·.1)).Nodup :=
  Context.nodup_keys_resolvePaths _ _ _

lemma mem_answers {p : String} : (∃ r, (p, r) ∈ e.answers ns s) ↔ p ∈ unbound s.bindings ns :=
  Context.mem_resolvePaths _ _ _ _

lemma answers_of_unbound_eq_nil (h : unbound s.bindings ns = []) : e.answers ns s = [] := by
  unfold Setup.answers
  rw [h]
  rfl

lemma lookedUp_parts (ns : List Node) (s : State σ) : (e.lookedUp ns s).parts = s.parts := by
  unfold Setup.lookedUp
  split <;> rfl

lemma lookedUp_issues (ns : List Node) (s : State σ) : (e.lookedUp ns s).issues =
    s.issues ++ (e.answers ns s).filterMap lookupIssue? := by
  unfold Setup.lookedUp
  split
  · rename_i h
    rw [answers_of_unbound_eq_nil (List.isEmpty_iff.mp h), List.filterMap_nil, List.append_nil]
  · rfl

lemma lookedUp_world (ns : List Node) (s : State σ) : (e.lookedUp ns s).world =
    (Context.resolvePaths e.resolver (unbound s.bindings ns) s.world).2 := by
  unfold Setup.lookedUp
  split
  · rename_i h
    rw [List.isEmpty_iff.mp h]
    rfl
  · rfl

/-- Behind a lookup a path has the result from before, or else what was answered for it. -/
lemma bound?_lookedUp (ns : List Node) (s : State σ) (p : String) :
    Context.bound? (e.lookedUp ns s).bindings p =
      (Context.bound? s.bindings p).or ((e.answers ns s).lookup p) := by
  unfold Setup.lookedUp
  split
  · rename_i h
    rw [answers_of_unbound_eq_nil (List.isEmpty_iff.mp h), List.lookup_nil, Option.or_none]
  · dsimp only
    rw [Context.bound?_bind (nodup_keys_answers ns s)]
    rcases hl : (e.answers ns s).lookup p with _ | r
    · rw [Option.none_or, Option.or_none]
    · have hmem := (lookup_eq_some_iff_mem (nodup_keys_answers ns s)).mp hl
      rw [(mem_unbound.mp (mem_answers.mp ⟨r, hmem⟩)).2]
      rfl

/-- Behind a lookup all paths in the trees have a result. -/
lemma isSome_bound?_lookedUp {p : String} : (Context.bound? (e.lookedUp ns s).bindings p).isSome =
    true ↔ (Context.bound? s.bindings p).isSome = true ∨ p ∈ Node.contextPaths ns := by
  have hanswers : ((e.answers ns s).lookup p).isSome = true ↔ p ∈ unbound s.bindings ns := by
    rw [Option.isSome_iff_exists, ← mem_answers (e := e)]
    simp only [lookup_eq_some_iff_mem (nodup_keys_answers ns s)]
  rw [bound?_lookedUp, Option.isSome_or, Bool.or_eq_true, hanswers, mem_unbound]
  rcases Context.bound? s.bindings p with _ | r <;> simp

/-! ### Documents -/

/-- Entering a document always succeeds. -/
lemma enter_on (e : Setup σ) (ns : List Node) (s : State σ) :
    (enter e ns).on s = (.ok (), e.entered ns s) := by
  unfold enter
  rw [Eval.on_bind, prefetch_on]
  change (Except.ok (), { e.lookedUp ns s with
    parts := knownParts (e.lookedUp ns s).parts (Node.parts ns) }) = _
  rw [lookedUp_parts]
  rfl

/-- Of the parts of one name the first stays. -/
lemma lookup_knownParts (known ds : List (String × List Node)) (name : String) :
    (knownParts known ds).lookup name = (known.lookup name).or (ds.lookup name) := by
  induction ds generalizing known with
  | nil => exact (Option.or_none).symm
  | cons d ds ih =>
    obtain ⟨k, cs⟩ := d
    change (knownParts (if known.any (·.1 == k) then known else known ++ [(k, cs)]) ds).lookup
      name = _
    rw [ih]
    split
    · rename_i hknown
      by_cases hname : name = k
      · obtain ⟨x, hx, hk⟩ := List.any_eq_true.mp hknown
        obtain ⟨cs', hsome⟩ := Option.isSome_iff_exists.mp (List.lookup_isSome_iff.mpr
          ⟨x, hx, by rw [hname, eq_of_beq hk, beq_self_eq_true]⟩ : (known.lookup name).isSome)
        rw [hsome, Option.some_or, Option.some_or]
      · rw [List.lookup_cons, beq_false_of_ne hname]
    · rw [List.lookup_append, Option.or_assoc, List.lookup_cons, List.lookup_cons, List.lookup_nil]
      cases name == k <;> rfl

lemma lookup_entered (e : Setup σ) (ns : List Node) (s : State σ) (name : String) :
    (e.entered ns s).parts.lookup name =
      (s.parts.lookup name).or ((Node.parts ns).lookup name) :=
  lookup_knownParts _ _ name

end Stencil.Evaluation
