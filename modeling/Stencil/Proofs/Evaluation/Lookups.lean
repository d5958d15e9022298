import Stencil.Proofs.Evaluation.Calls
import Stencil.Proofs.Evaluation.Coupling

/-!
How an evaluation looks up context paths.

Each document is asked for at most once, as a whole, when it is entered: its usable paths that have
no result and were not asked for before. What was asked stays bound, also if the resolver failed or
left it out, so nothing is asked again; a path without content is reported once. The `Ledger` ties
what is bound and reported to the batches made so far.
-/

namespace Stencil

namespace Evaluation

variable {σ : Type} {e : Setup σ} {b : Bindings}

/-! ### What is asked for a document -/

/-- The usable context paths in the trees that have no result and were not asked for, in the order
in which they come up first. -/
def newPaths (b : Bindings) (asked : List String) (ns : List Node) : List String :=
  (Node.contextPaths ns).filter fun p =>
    Context.isValid p && (Context.bound? b p).isNone && !asked.contains p

lemma mem_newPaths {asked : List String} {ns : List Node} {p : String} :
    p ∈ newPaths b asked ns ↔ p ∈ Node.contextPaths ns ∧ Context.isValid p = true ∧
      Context.bound? b p = none ∧ p ∉ asked := by
  simp [newPaths, and_assoc]

/-- The batches are those for some documents one after the other, one batch for each: what is new
in the document. -/
inductive Asked (b : Bindings) : List (List Node) → List (List String) → Prop where
  | nil : Asked b [] []
  | document {docs : List (List Node)} {batches : List (List String)} {ns : List Node}
    (h : Asked b docs batches) (hnew : newPaths b batches.flatten ns ≠ []) :
    Asked b (docs ++ [ns]) (batches ++ [newPaths b batches.flatten ns])

namespace Asked

variable {docs : List (List Node)} {batches : List (List String)}

/-- No path is asked for twice. -/
lemma nodup (h : Asked b docs batches) : batches.flatten.Nodup := by
  induction h with
  | nil => simp
  | @document docs batches ns _ _ ih =>
    rw [List.flatten_append, List.flatten_singleton]
    refine List.nodup_append.mpr ⟨ih, (Node.nodup_distinct _).filter _, ?_⟩
    rintro p hp q hq rfl
    exact (mem_newPaths.mp hq).2.2.2 hp

/-- Only usable paths without a result are asked for. -/
lemma usable (h : Asked b docs batches) : ∀ p ∈ batches.flatten,
    Context.isValid p = true ∧ Context.bound? b p = none := by
  induction h with
  | nil => simp
  | @document docs batches ns _ _ ih =>
    rw [List.flatten_append, List.flatten_singleton]
    intro p hp
    rcases List.mem_append.mp hp with hp | hp
    · exact ih p hp
    · obtain ⟨-, hvalid, hnone, -⟩ := mem_newPaths.mp hp
      exact ⟨hvalid, hnone⟩

lemma ne_nil (h : Asked b docs batches) : [] ∉ batches := by
  induction h with
  | nil => simp
  | document _ hnew ih => simpa [ih] using hnew.symm

/-- All that could be asked for a document is asked. -/
lemma covers (h : Asked b docs batches) : ∀ ns ∈ docs, newPaths b batches.flatten ns = [] := by
  have key (ns : List Node) (asked more : List String) (h : newPaths b asked ns = []) :
      newPaths b (asked ++ more) ns = [] := by
    refine List.eq_nil_iff_forall_not_mem.mpr fun p hp => ?_
    obtain ⟨hmem, hvalid, hnone, hnot⟩ := mem_newPaths.mp hp
    have : p ∈ newPaths b asked ns :=
      mem_newPaths.mpr ⟨hmem, hvalid, hnone, fun h => hnot (List.mem_append_left _ h)⟩
    simp [h] at this
  induction h with
  | nil => simp
  | @document docs batches ns _ _ ih =>
    rw [List.flatten_append, List.flatten_singleton]
    intro ms hms
    rcases List.mem_append.mp hms with hms | hms
    · exact key ms _ _ (ih ms hms)
    · obtain rfl := List.mem_singleton.mp hms
      refine List.eq_nil_iff_forall_not_mem.mpr fun p hp => ?_
      obtain ⟨hmem, hvalid, hnone, hnot⟩ := mem_newPaths.mp hp
      exact hnot (List.mem_append_right _ (mem_newPaths.mpr
        ⟨hmem, hvalid, hnone, fun h => hnot (List.mem_append_left _ h)⟩))

/-- No document is asked for twice. -/
lemma nodup_docs (h : Asked b docs batches) : docs.Nodup := by
  induction h with
  | nil => simp
  | @document docs batches ns h hnew ih =>
    refine List.nodup_append.mpr ⟨ih, by simp, ?_⟩
    rintro ms hms _ hns rfl
    obtain rfl := List.mem_singleton.mp hns
    exact hnew (h.covers _ hms)

end Asked

/-! ### The ledger -/

/-- The problems with context paths, by path. -/
def reportedPaths (issues : List Issue) : List String :=
  (issues.filter (·.kind == "context")).map (·.path)

lemma reportedPaths_append (as bs : List Issue) :
    reportedPaths (as ++ bs) = reportedPaths as ++ reportedPaths bs := by
  rw [reportedPaths, List.filter_append, List.map_append]
  rfl

/-- A lookup reports the paths without content. -/
lemma reportedPaths_lookupIssues (answers : List (String × Context.Result)) :
    reportedPaths (answers.filterMap lookupIssue?) =
      (answers.filter fun x => !x.2.success).map (·.1) := by
  induction answers with
  | nil => rfl
  | cons x answers ih =>
    rw [List.filterMap_cons, List.filter_cons]
    unfold lookupIssue?
    cases x.2.success
    · simp only [Bool.false_eq_true, if_false, Bool.not_false, if_true, List.map_cons]
      rw [← ih]
      rfl
    · exact ih

/-- How the state of a recorded run stands to the bindings that the run began with: what was asked
for the documents that came by, and what became of it. -/
structure Ledger (e : Setup σ) (b : Bindings) (Came : List Node → Prop)
    (s : State (σ × List Call)) : Prop where
  asked : ∃ docs, (∀ ns ∈ docs, Came ns) ∧ Asked b docs (Call.batches s.world.2)
  /-- With somebody to ask, the usable paths that have a result now were asked for. -/
  answered : e.resolver.isSome = true → ∀ p, Context.isValid p = true →
    ((Context.bound? s.bindings p).isSome = true ↔
      (Context.bound? b p).isSome = true ∨ p ∈ (Call.batches s.world.2).flatten)
  kept : ∀ p r, Context.bound? b p = some r → Context.bound? s.bindings p = some r
  reportedOnce : (reportedPaths s.issues).Nodup
  reported : ∀ p, p ∈ reportedPaths s.issues ↔ Context.bound? b p = none ∧
    ∃ r, Context.bound? s.bindings p = some r ∧ r.success = false

namespace Ledger

variable {Came : List Node → Prop} {s t : State (σ × List Call)}

lemma initial (e : Setup σ) (b : Bindings) (Came : List Node → Prop) (w : σ) :
    Ledger e b Came ⟨b, [], [], (w, [])⟩ where
  asked := ⟨[], by simp, .nil⟩
  answered _ p _ := by simp [Call.batches]
  kept _ _ h := h
  reportedOnce := List.nodup_nil
  reported p := by
    constructor
    · intro h
      cases h
    · rintro ⟨hnone, r, hr, -⟩
      cases hnone.symm.trans hr

/-- Steps that look nothing up keep the ledger. -/
lemma keeps (h : Ledger e b Came s) (hb : t.bindings = s.bindings)
    (hi : reportedPaths t.issues = reportedPaths s.issues)
    (hc : Call.batches t.world.2 = Call.batches s.world.2) : Ledger e b Came t where
  asked := by
    rw [hc]
    exact h.asked
  answered := by
    rw [hb, hc]
    exact h.answered
  kept := by
    rw [hb]
    exact h.kept
  reportedOnce := by
    rw [hi]
    exact h.reportedOnce
  reported := by
    rw [hi, hb]
    exact h.reported

section

variable {ns : List Node}

lemma calls_lookedUp (e : Setup σ) (ns : List Node) (s : State (σ × List Call)) :
    (e.recorded.lookedUp ns s).world.2 =
      s.world.2 ++ Context.lookupCalls e.resolver (unbound s.bindings ns) := by
  rw [lookedUp_world]
  exact Context.resolvePaths_recorded e.resolver (unbound s.bindings ns) s.world.1 s.world.2

/-- With somebody to ask, the usable paths that are looked up for a document are the new ones. -/
lemma usable_unbound (h : Ledger e b Came s) (hr : e.resolver.isSome = true) :
    (Node.distinct (unbound s.bindings ns)).filter Context.isValid =
      newPaths b (Call.batches s.world.2).flatten ns := by
  rw [Node.distinct_of_nodup (nodup_unbound _ _), unbound, List.filter_filter, newPaths]
  refine List.filter_congr fun p _ => ?_
  rcases hvalid : Context.isValid p
  · rfl
  · have hiff := h.answered hr p hvalid
    rw [Bool.eq_iff_iff]
    simp only [Bool.true_and, Bool.and_eq_true, Option.isNone_iff_eq_none, Bool.not_eq_true',
      ← Option.not_isSome_iff_eq_none, hiff]
    simp

/-- What a lookup for a document asks. -/
lemma batches_lookedUp (h : Ledger e b Came s) :
    Call.batches (e.recorded.lookedUp ns s).world.2 = Call.batches s.world.2 ++
      if e.resolver.isSome && !(newPaths b (Call.batches s.world.2).flatten ns).isEmpty then
        [newPaths b (Call.batches s.world.2).flatten ns] else [] := by
  rw [calls_lookedUp, Call.batches_append, Context.lookupCalls]
  congr 1
  cases hr : e.resolver.isSome
  · rfl
  · rw [h.usable_unbound hr]
    split <;> rfl

end

/-- **Entering a document** keeps the ledger. -/
lemma entered {ns : List Node} (h : Ledger e b Came s) (hns : Came ns) :
    Ledger e b Came (e.recorded.entered ns s) := by
  let t := e.recorded.lookedUp ns s
  suffices key : Ledger e b Came t from key.keeps rfl rfl rfl
  have hnodup := nodup_keys_answers (e := e.recorded) ns s
  -- what the answers say of a path
  have hanswer (p : String) (r : Context.Result) :
      (p, r) ∈ e.recorded.answers ns s ↔ (e.recorded.answers ns s).lookup p = some r :=
    (lookup_eq_some_iff_mem hnodup).symm
  have hunbound {p : String} {r : Context.Result} (hp : (p, r) ∈ e.recorded.answers ns s) :
      Context.bound? s.bindings p = none := (mem_unbound.mp (mem_answers.mp ⟨r, hp⟩)).2
  have hreported : reportedPaths t.issues = reportedPaths s.issues ++
      ((e.recorded.answers ns s).filter fun x => !x.2.success).map (·.1) := by
    rw [← reportedPaths_lookupIssues, ← reportedPaths_append, ← lookedUp_issues]
  refine ⟨?_, fun hr p hvalid => ?_, fun p r hp => ?_, ?_, fun p => ?_⟩
  · obtain ⟨docs, hcame, hasked⟩ := h.asked
    rw [h.batches_lookedUp]
    split
    · rename_i hnew
      refine ⟨docs ++ [ns], ?_, hasked.document (by simpa using (Bool.and_eq_true_iff.mp hnew).2)⟩
      simpa [or_imp, forall_and] using ⟨hcame, hns⟩
    · exact ⟨docs, hcame, by rwa [List.append_nil]⟩
  · have hnew (batch : List String) :
        (if !batch.isEmpty then [batch] else []).flatten = batch := by cases batch <;> simp
    rw [isSome_bound?_lookedUp, h.answered hr p hvalid, h.batches_lookedUp, hr, Bool.true_and,
      List.flatten_append, hnew, List.mem_append, mem_newPaths]
    rcases Context.bound? b p with _ | r
    · simp only [Option.isSome_none, Bool.false_eq_true, false_or, hvalid, true_and]
      tauto
    · simp
  · rw [bound?_lookedUp, h.kept p r hp]
    rfl
  · rw [hreported]
    refine List.nodup_append.mpr ⟨h.reportedOnce, hnodup.sublist ?_, ?_⟩
    · exact List.filter_sublist.map _
    · rintro p hold q hnew rfl
      obtain ⟨-, r, hr, -⟩ := (h.reported p).mp hold
      obtain ⟨⟨_, r'⟩, hx, rfl⟩ := List.mem_map.mp hnew
      cases hr.symm.trans (hunbound (List.mem_filter.mp hx).1)
  · have hnew : p ∈ ((e.recorded.answers ns s).filter fun x => !x.2.success).map (·.1) ↔
        ∃ r, (p, r) ∈ e.recorded.answers ns s ∧ r.success = false := by simp
    rw [hreported, List.mem_append, h.reported p, hnew, bound?_lookedUp]
    rcases hs : Context.bound? s.bindings p with _ | r
    · have hb : Context.bound? b p = none := by
        by_contra hb
        obtain ⟨r, hr⟩ := Option.ne_none_iff_exists'.mp hb
        cases (h.kept p r hr).symm.trans hs
      simp [hb, hanswer]
    · have hnot : ¬ ∃ r, (p, r) ∈ e.recorded.answers ns s ∧ r.success = false := by
        rintro ⟨r', hr', -⟩
        cases hs.symm.trans (hunbound hr')
      simp [hnot]

end Ledger

/-! ### Runs -/

/-- The document of a run, or one that the run loads. -/
def Setup.ComesBy (e : Setup σ) (origin : Option String) (d : List Node) (b : Bindings) (w : σ)
    (ns : List Node) : Prop :=
  ns = d ∨ e.Loads origin d b w ns

/-- The distinct usable context paths in the trees that have no result, whatever branches will be
taken, in the order of the trees. -/
def firstPaths (b : Bindings) (ns : List Node) : List String :=
  (Node.distinct ((Node.preorderAll ns).flatMap Node.contextPathsOf)).filter fun p =>
    Context.isValid p && (Context.bound? b p).isNone

lemma newPaths_nil (b : Bindings) (ns : List Node) : newPaths b [] ns = firstPaths b ns := by
  simp [newPaths, firstPaths, Node.contextPaths, Node.walk_eq_preorderAll]

/-- What is asked for the main document, before anything else. -/
def mainCalls (e : Setup σ) (b : Bindings) (d : List Node) : List Call :=
  if e.resolver.isSome && !(firstPaths b d).isEmpty then [.resolved (firstPaths b d)] else []

/-- How a recorded run ends: its ledger is kept, and it began with the main document's call. -/
lemma ledger_evaluateIn (e : Setup σ) (origin : Option String) (d : Document) (b : Bindings)
    (w : σ) : let s := ((evaluateIn e.recorded origin d).on ⟨b, [], [], (w, [])⟩).2
    Ledger e b (e.recorded.ComesBy origin d.children b (w, [])) s ∧
      mainCalls e b d.children <+: s.world.2 := by
  let Came : List Node → Prop := e.recorded.ComesBy origin d.children b (w, [])
  have hstart : Ledger e b Came ⟨b, [], [], (w, [])⟩ := .initial e b Came w
  refine evaluateIn_keeps (I := fun s => Ledger e b Came s ∧ mainCalls e b d.children <+: s.world.2)
    ⟨hstart.entered (.inl rfl), ?_⟩ ?_ ?_ ?_
  · change _ <+: (e.recorded.lookedUp d.children ⟨b, [], [], (w, [])⟩).world.2
    rw [Ledger.calls_lookedUp, List.nil_append, Context.lookupCalls, mainCalls]
    dsimp only
    cases hr : e.resolver.isSome
    · exact List.prefix_rfl
    · rw [hstart.usable_unbound hr, ← newPaths_nil]
      exact List.prefix_rfl
  · rintro s v q ⟨h, hmain⟩
    obtain ⟨w', calls, hs, hcalls⟩ := askJudge_recorded e v q s
    rw [hs]
    refine ⟨h.keeps rfl rfl ?_, hmain.trans (List.prefix_append _ _)⟩
    rw [Call.batches_append, hcalls, List.append_nil]
  · rintro s kind message path hkind ⟨h, hmain⟩
    refine ⟨h.keeps rfl ?_ rfl, hmain⟩
    rw [reportedPaths_append]
    simp [reportedPaths, hkind]
  · rintro ns s hns ⟨h, hmain⟩
    refine ⟨h.entered (.inr hns), hmain.trans ?_⟩
    change _ <+: (e.recorded.lookedUp ns s).world.2
    rw [Ledger.calls_lookedUp]
    exact List.prefix_append _ _

/-- What an evaluation asks its resolver, and what it reports of the answers. A path is looked up
if it has no result in the beginning and one in the end. -/
structure LooksUpOnce (e : Setup σ) (origin : Option String) (d : Document) (b : Bindings) (w : σ)
    (outcome : Except Failure Result) (calls : List Call) : Prop where
  nodup : (Call.batches calls).flatten.Nodup
  valid : ∀ p ∈ (Call.batches calls).flatten, Context.isValid p = true
  nonempty : [] ∉ Call.batches calls
  /-- Each batch is for a document of its own, the main one or one that is loaded. -/
  documents : ∃ docs : List (List Node), docs.Nodup ∧
    (∀ ns ∈ docs, e.recorded.ComesBy origin d.children b (w, []) ns) ∧
    Asked b docs (Call.batches calls)
  /-- The call for the main document comes before all others. -/
  main : e.resolver.isSome = true → firstPaths b d.children ≠ [] →
    ∃ rest, calls = .resolved (firstPaths b d.children) :: rest
  /-- With somebody to ask, exactly the usable paths that are looked up are asked for. -/
  asked : ∀ r, outcome = .ok r → e.resolver.isSome = true → ∀ p,
    p ∈ (Call.batches calls).flatten ↔ Context.isValid p = true ∧ Context.bound? b p = none ∧
      (Context.bound? r.bindings p).isSome = true
  reportedOnce : ∀ r, outcome = .ok r → (reportedPaths r.issues).Nodup
  /-- Exactly the paths that are looked up without success are reported. -/
  reported : ∀ r, outcome = .ok r → ∀ p, p ∈ reportedPaths r.issues ↔
    Context.bound? b p = none ∧ ∃ res, Context.bound? r.bindings p = some res ∧ res.success = false

end Evaluation

open Evaluation

/-- **Context paths are looked up at most once**: over a whole evaluation, however it ends and
whatever the resolver does, no path is asked for twice and none that is not usable; there is at
most one batch for each document, that of the main document first; and a path that is looked up
without success is reported once. -/
theorem evaluate_looksUpOnce {σ : Type} (e : Setup σ) (origin : Option String) (d : Document)
    (b : Bindings) (w : σ) : LooksUpOnce e origin d b w
      (evaluate e.recorded origin d b (w, [])).1 (evaluate e.recorded origin d b (w, [])).2.2 := by
  obtain ⟨hledger, hmain⟩ := ledger_evaluateIn e origin d b w
  rw [evaluate_on]
  generalize (evaluateIn e.recorded origin d).on ⟨b, [], [], (w, [])⟩ = out at hledger hmain ⊢
  obtain ⟨docs, hcame, hasked⟩ := hledger.asked
  -- the bindings and issues of a result are those of the last state
  have hresult {r : Evaluation.Result} (hr : (out.1.map fun d' =>
      (⟨d', out.2.bindings, out.2.parts, out.2.issues⟩ : Evaluation.Result)) = .ok r) :
      r.bindings = out.2.bindings ∧ r.issues = out.2.issues := by
    rcases out with ⟨f | d', t⟩ <;> cases hr
    exact ⟨rfl, rfl⟩
  refine ⟨hasked.nodup, fun p hp => (hasked.usable p hp).1, hasked.ne_nil,
    ⟨docs, hasked.nodup_docs, hcame, hasked⟩, fun hres hpaths => ?_,
    fun r hr hres p => ?_, fun r hr => ?_, fun r hr p => ?_⟩
  · rw [mainCalls, hres, Bool.true_and, if_pos (by simpa using hpaths)] at hmain
    obtain ⟨rest, hrest⟩ := hmain
    exact ⟨rest, hrest.symm⟩
  · rw [(hresult hr).1]
    constructor
    · intro hp
      obtain ⟨hvalid, hnone⟩ := hasked.usable p hp
      exact ⟨hvalid, hnone, (hledger.answered hres p hvalid).mpr (.inr hp)⟩
    · rintro ⟨hvalid, hnone, hsome⟩
      rcases (hledger.answered hres p hvalid).mp hsome with h | h
      · rw [hnone] at h
        cases h
      · exact h
  · rw [(hresult hr).2]
    exact hledger.reportedOnce
  · rw [(hresult hr).1, (hresult hr).2]
    exact hledger.reported p

end Stencil
