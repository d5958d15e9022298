import Stencil.Context.Resolve
import Stencil.Proofs.Template.Forest

/-!
Results bound under the name of context: what a lookup answers, and what binding its answer
changes.

A lookup answers for exactly the paths that it is asked for (`mem_resolvePaths`). Binding the
answer makes these paths bound, leaves every other path as it was, and touches no other name.
-/

namespace Stencil

lemma StateM.bind_apply {σ α β : Type} (x : StateM σ α) (f : α → StateM σ β) (w : σ) :
    (x >>= f) w = f (x w).1 (x w).2 := rfl

/-- Under distinct keys a list says one thing of each. -/
lemma lookup_eq_some_iff_mem {α : Type} {l : List (String × α)} (h : (l.map (·.1)).Nodup)
    {key : String} {a : α} : l.lookup key = some a ↔ (key, a) ∈ l := by
  induction l with
  | nil => simp
  | cons x l ih =>
    obtain ⟨k, v⟩ := x
    obtain ⟨hk, hl⟩ := List.nodup_cons.mp h
    rw [List.lookup_cons, List.mem_cons, Prod.mk.injEq]
    by_cases hkey : key = k
    · subst hkey
      have hnot : (key, a) ∉ l := fun hmem => hk (List.mem_map.mpr ⟨_, hmem, rfl⟩)
      simp [hnot, eq_comm]
    · rw [beq_eq_false_iff_ne.mpr hkey, ih hl]
      simp [hkey]

/-! ### Entries of mappings -/

namespace Value

lemma same_text {k : Value} {s : String} : k.same (text s) = true ↔ k = text s := by
  cases k <;> simp [same, place?]
  rename_i x
  cases x.place? <;> simp

lemma named?_insertEntry (key name : String) (v : Value) (entries : List (Value × Value)) :
    named? name (insertEntry (text key) v entries) =
      if key = name then some v else named? name entries := by
  induction entries with
  | nil =>
    by_cases h : key = name <;> simp [named?, entry?, insertEntry, same, h]
  | cons e rest ih =>
    obtain ⟨k, w⟩ := e
    simp only [named?, entry?] at ih ⊢
    rw [insertEntry]
    by_cases hk : k.same (text key) = true
    · rw [if_pos hk]
      obtain rfl := same_text.mp hk
      by_cases h : key = name <;> simp [same, h]
    · rw [if_neg hk]
      by_cases hn : k.same (text name) = true
      · obtain rfl := same_text.mp hn
        have hne : key ≠ name := fun h => hk (by simp [same, h])
        simp [same, hne]
      · rw [List.find?_cons_of_neg (by simpa using hn), ih,
          List.find?_cons_of_neg (by simpa using hn)]

end Value

namespace Bindings

lemma find?_cons (k name : String) (v : Value) (b : Bindings) :
    find? ((k, v) :: b) name = if name = k then some v else find? b name := by
  unfold find?
  rw [List.lookup_cons]
  by_cases h : name = k
  · simp [h]
  · rw [if_neg h, beq_eq_false_iff_ne.mpr h]

lemma find?_insert (key name : String) (v : Value) (b : Bindings) :
    find? (insert key v b) name = if name = key then some v else find? b name := by
  induction b with
  | nil => rw [insert, find?_cons]
  | cons e rest ih =>
    obtain ⟨k, w⟩ := e
    rw [insert]
    split
    · rename_i h
      obtain rfl : k = key := by simpa using h
      rw [find?_cons, find?_cons]
      split <;> rfl
    · rename_i h
      have h : k ≠ key := by simpa using h
      rw [find?_cons, find?_cons, ih]
      by_cases hk : name = k
      · rw [if_pos hk, if_pos hk, if_neg (hk ▸ h)]
      · rw [if_neg hk, if_neg hk]

/-- A name of a mapping from names has the value it is bound to. -/
lemma field?_ofBindings (b : Bindings) (name : String) :
    (Value.ofBindings b).field? name = b.find? name := by
  unfold Value.ofBindings Value.field? Value.named? Value.entry?
  dsimp only
  induction b with
  | nil => rfl
  | cons e rest ih =>
    obtain ⟨k, v⟩ := e
    rw [find?_cons, List.map_cons]
    by_cases h : name = k
    · simp [Value.same, h]
    · have hs : (Value.text k).same (.text name) = false := by simpa [Value.same] using Ne.symm h
      rw [List.find?_cons_of_neg (by simp [hs]), ih, if_neg h]

end Bindings

namespace Context

/-! ### Answers -/

variable {σ : Type}

lemma keys_invalidResults (paths : List String) :
    (invalidResults paths).map (·.1) = paths.filter fun p => !isValid p := by
  induction paths with
  | nil => rfl
  | cons p paths ih =>
    unfold invalidResults isValid at *
    rw [List.filterMap_cons]
    rcases hp : pathFault? p with _ | f <;> simp [hp, ih]

/-- The usable paths among some, each at its first place. -/
def usableOf (paths : List String) : List String := (Node.distinct paths).filter isValid

lemma mem_usableOf {paths : List String} {p : String} :
    p ∈ usableOf paths ↔ p ∈ paths ∧ isValid p = true := by
  rw [usableOf, List.mem_filter, Node.mem_distinct]

/-- Usable paths are in the order in which they come up first. -/
lemma pairwise_usableOf (paths : List String) :
    (usableOf paths).Pairwise fun p q => paths.idxOf p < paths.idxOf q :=
  (Node.pairwise_distinct paths).filter _

/-- What a lookup answers for a usable path. -/
def answerFor (resolver : Option (Resolver σ)) (paths : List String) (w : σ) (p : String) :
    Result :=
  match resolver with
  | none => .failed p .unavailable "No context resolver configured"
  | some r =>
    match (r.resolveBatch (usableOf paths) w).1 with
    | .error f => .failed p .unavailable ("Context resolver failed: " ++ f.message)
    | .ok batch =>
      (batch.lookup p).getD (.failed p .unavailable "Resolver returned no result")

lemma resolvePaths_fst (resolver : Option (Resolver σ)) (paths : List String) (w : σ) :
    (resolvePaths resolver paths w).1 = invalidResults (Node.distinct paths) ++
      (usableOf paths).map fun p => (p, answerFor resolver paths w p) := by
  unfold resolvePaths
  rw [← usableOf]
  split
  · rename_i hempty
    rw [List.isEmpty_iff.mp hempty]
    exact (List.append_nil _).symm
  · rcases resolver with _ | r
    · rfl
    · dsimp only
      rw [StateM.bind_apply]
      unfold answerFor
      dsimp only
      rcases (r.resolveBatch (usableOf paths) w).1 with f | batch <;> rfl

/-- A lookup answers for the distinct paths that it is asked for, the unusable ones first,
whatever the resolver does. -/
lemma keys_resolvePaths (resolver : Option (Resolver σ)) (paths : List String) (w : σ) :
    (resolvePaths resolver paths w).1.map (·.1) =
      ((Node.distinct paths).filter fun p => !isValid p) ++ usableOf paths := by
  rw [resolvePaths_fst, List.map_append, keys_invalidResults, List.map_map]
  exact congrArg _ (List.map_id _)

/-- It answers for the paths that it is asked for, usable or not. -/
lemma mem_resolvePaths (resolver : Option (Resolver σ)) (paths : List String) (w : σ)
    (p : String) : (∃ r, (p, r) ∈ (resolvePaths resolver paths w).1) ↔ p ∈ paths := by
  have hkeys : (∃ r, (p, r) ∈ (resolvePaths resolver paths w).1) ↔
      p ∈ (resolvePaths resolver paths w).1.map (·.1) := by simp
  rw [hkeys, keys_resolvePaths, List.mem_append, List.mem_filter, mem_usableOf, Node.mem_distinct]
  cases isValid p <;> simp

/-- It answers once for each path. -/
lemma nodup_keys_resolvePaths (resolver : Option (Resolver σ)) (paths : List String) (w : σ) :
    ((resolvePaths resolver paths w).1.map (·.1)).Nodup := by
  have hdistinct := Node.nodup_distinct paths
  rw [keys_resolvePaths]
  refine List.nodup_append.mpr ⟨hdistinct.filter _, hdistinct.filter _, ?_⟩
  rintro p hp q hq rfl
  have hinvalid := (List.mem_filter.mp hp).2
  rw [(mem_usableOf.mp hq).2] at hinvalid
  cases hinvalid

/-! ### Binding -/

lemma find?_bind {b : Bindings} {results : List (String × Result)} {name : String}
    (h : name ≠ bindingName) : (bind b results).find? name = b.find? name := by
  unfold bind
  rw [Bindings.find?_insert, if_neg h]

/-- The bindings but for the results of context. -/
def own (b : Bindings) : Bindings := b.filter (·.1 != bindingName)

lemma own_insert (v : Value) (b : Bindings) : own (b.insert bindingName v) = own b := by
  induction b with
  | nil => rfl
  | cons x b ih =>
    obtain ⟨k, w⟩ := x
    rw [Bindings.insert]
    split
    · rename_i hk
      obtain rfl : k = bindingName := by simpa using hk
      rfl
    · rw [own, List.filter_cons, ← own, ih, own, own, List.filter_cons]

lemma own_bind (b : Bindings) (results : List (String × Result)) : own (bind b results) = own b :=
  own_insert _ b

lemma find?_own {name : String} (h : name ≠ bindingName) (b : Bindings) :
    (own b).find? name = b.find? name := by
  induction b with
  | nil => rfl
  | cons x b ih =>
    obtain ⟨k, v⟩ := x
    rw [own, List.filter_cons]
    by_cases hk : k = bindingName
    · subst hk
      rw [Bindings.find?_cons, if_neg h, ← ih]
      simp [own]
    · rw [if_pos (by simpa using hk), Bindings.find?_cons, Bindings.find?_cons, ← own, ih]

/-- What is bound to another name is known from the bindings without results. -/
lemma find?_of_own_eq {b b' : Bindings} (h : own b = own b') {name : String}
    (hn : name ≠ bindingName) : b.find? name = b'.find? name := by
  rw [← find?_own hn, h, find?_own hn]

/-- The results bound under the name of context, by path. -/
def entries (b : Bindings) : List (Value × Value) :=
  match b.find? bindingName with
  | some (.dict entries) => entries
  | _ => []

lemma bound?_eq (b : Bindings) (p : String) : bound? b p = match Value.named? p (entries b) with
    | some (.context r) => some r
    | _ => none := by
  unfold bound? entries
  rcases b.find? bindingName with _ | v
  · rfl
  · cases v <;> rfl

lemma entries_bind (b : Bindings) (results : List (String × Result)) :
    entries (bind b results) = results.foldl
      (fun acc r => Value.insertEntry (.text r.1) (.context r.2) acc) (entries b) := by
  unfold bind
  rw [entries, Bindings.find?_insert, if_pos rfl]
  rfl

lemma named?_foldl_of_not_mem {results : List (String × Result)} {p : String}
    (h : ∀ r, (p, r) ∉ results) (es : List (Value × Value)) :
    Value.named? p (results.foldl
      (fun acc r => Value.insertEntry (.text r.1) (.context r.2) acc) es) = Value.named? p es := by
  induction results generalizing es with
  | nil => rfl
  | cons r rest ih =>
    have hne : r.1 ≠ p := fun heq => h r.2 (by simp [← heq])
    rw [List.foldl_cons, ih fun x hx => h x (List.mem_cons_of_mem _ hx),
      Value.named?_insertEntry, if_neg hne]

/-- Paths that nothing was answered for stay as they were. -/
lemma bound?_bind_of_not_mem {b : Bindings} {results : List (String × Result)} {p : String}
    (h : ∀ r, (p, r) ∉ results) : bound? (bind b results) p = bound? b p := by
  rw [bound?_eq, bound?_eq, entries_bind, named?_foldl_of_not_mem h]

/-- A path that was answered for is bound to an answer for it. -/
lemma bound?_bind_of_mem {b : Bindings} {results : List (String × Result)} {p : String}
    (h : ∃ r, (p, r) ∈ results) :
    ∃ r, (p, r) ∈ results ∧ bound? (bind b results) p = some r := by
  suffices key : ∀ es, ∃ r, (p, r) ∈ results ∧ Value.named? p (results.foldl
      (fun acc r => Value.insertEntry (.text r.1) (.context r.2) acc) es) =
      some (.context r) by
    obtain ⟨r, hr, hn⟩ := key (entries b)
    exact ⟨r, hr, by rw [bound?_eq, entries_bind, hn]⟩
  induction results with
  | nil => simp at h
  | cons e rest ih =>
    intro es
    rw [List.foldl_cons]
    by_cases hrest : ∃ r, (p, r) ∈ rest
    · obtain ⟨r, hr, hn⟩ := ih hrest (Value.insertEntry (.text e.1) (.context e.2) es)
      exact ⟨r, List.mem_cons_of_mem _ hr, hn⟩
    · -- the last answer for the path
      obtain ⟨r, hr⟩ := h
      obtain rfl : (p, r) = e := by
        rcases List.mem_cons.mp hr with hr | hr
        · exact hr
        · exact absurd ⟨r, hr⟩ hrest
      refine ⟨r, List.mem_cons_self, ?_⟩
      rw [named?_foldl_of_not_mem (by simpa using hrest), Value.named?_insertEntry, if_pos rfl]

/-- A path is bound to what was answered for it, or else as before. -/
lemma bound?_bind {b : Bindings} {results : List (String × Result)}
    (h : (results.map (·.1)).Nodup) (p : String) :
    bound? (bind b results) p = (results.lookup p).or (bound? b p) := by
  rcases hl : results.lookup p with _ | r
  · rw [bound?_bind_of_not_mem, Option.none_or]
    intro r hr
    simpa using List.lookup_eq_none_iff.mp hl (p, r) hr
  · obtain ⟨r', hr', hbound⟩ := bound?_bind_of_mem (b := b)
      ⟨r, (lookup_eq_some_iff_mem h).mp hl⟩
    rw [hbound, Option.some_or]
    exact ((lookup_eq_some_iff_mem h).mpr hr').symm.trans hl

end Context

end Stencil
