import Mathlib.Algebra.Order.Group.Int
import Mathlib.Data.Set.Card
import Stencil.Judgment.Cache
import Stencil.Proofs.Context.Binding
import Stencil.Proofs.Number.Order

/-!
Caches and what has been done with them.

A cache drops what is too old when it is asked for, and so changes with the questions too. What it
holds is told by its history all the same (`Tells`): the judgments put under a key since the last
clearing, less those found too old by a question since. As a judgment that was too old once is too
old from then on (`TimeScale.Ages`), no answer depends on what was dropped (`answer_without`).
-/

namespace Stencil.Judgment

/-- On the clock, what is more than some time ago stays so. -/
class TimeScale.Ages (τ : Type) [TimeScale τ] : Prop where
  lt_sub_of_le {ttl t t' t₀ : τ} : TimeScale.le t t' = true →
    TimeScale.lt ttl (TimeScale.sub t t₀) = true → TimeScale.lt ttl (TimeScale.sub t' t₀) = true

instance : TimeScale.Ages Double := ⟨Double.lt_sub_of_le⟩

/-! ### Exact times -/

section Exact

variable {τ : Type} [AddCommGroup τ] [LinearOrder τ]

instance : TimeScale τ where
  zero := 0
  sub t t₀ := t - t₀
  lt t t' := decide (t < t')
  le t t' := decide (t ≤ t')

instance [IsOrderedAddMonoid τ] : TimeScale.Ages τ where
  lt_sub_of_le hle hlt :=
    decide_eq_true ((of_decide_eq_true hlt).trans_le (sub_le_sub_right (of_decide_eq_true hle) _))

end Exact

/-! ### Histories -/

/-- What is done with a cache. -/
inductive Act where
  | get (key : String)
  | set (key : String) (result : Bool)
  | clear
deriving DecidableEq

/-- An act, and what the clock shows then. -/
structure Dated (τ : Type) where
  act : Act
  time : τ

abbrev History (τ : Type) := List (Dated τ)

/-- The act neither clears a cache nor puts a judgment under the key. -/
def Act.Leaves (key : String) (a : Act) : Prop := a ≠ .clear ∧ ∀ result, a ≠ .set key result

namespace History

variable {τ : Type} [TimeScale τ]

/-- The clock does not go back. -/
def InOrder (h : History τ) : Prop := h.Pairwise fun x y => TimeScale.le x.time y.time = true

/-- The entry was put under the key, and all that was done since is so. -/
def Since (h : History τ) (p : Dated τ → Prop) (key : String) (e : Entry τ) : Prop :=
  ∃ before after, h = before ++ ⟨.set key e.result, e.storedAt⟩ :: after ∧ ∀ x ∈ after, p x

/-- The entry is what was put under the key last, and has not been cleared since. -/
def LastSet (h : History τ) (key : String) (e : Entry τ) : Prop :=
  h.Since (fun x => x.act.Leaves key) key e

/-- The act asks for the key when the entry is too old. -/
def Evicts (ttl : τ) (key : String) (e : Entry τ) (x : Dated τ) : Prop :=
  x.act = .get key ∧ TimeScale.lt ttl (TimeScale.sub x.time e.storedAt) = true

/-- The entry was put under the key last, and has been neither cleared nor found too old since. -/
def Keeps (h : History τ) (ttl : τ) (key : String) (e : Entry τ) : Prop :=
  h.Since (fun x => x.act.Leaves key ∧ ¬ Evicts ttl key e x) key e

end History

namespace Cache

variable {τ : Type} [TimeScale τ]

/-- What the act answers, and the cache after it. -/
def perform (c : Cache τ) (x : Dated τ) : Option Bool × Cache τ :=
  match x.act with
  | .get key => c.get key x.time
  | .set key result => (none, c.set key result x.time)
  | .clear => (none, c.clear)

def after (c : Cache τ) (h : History τ) : Cache τ := h.foldl (fun c x => (c.perform x).2) c

/-- What an act answers after others. -/
def answer (c : Cache τ) (h : History τ) (x : Dated τ) : Option Bool := ((c.after h).perform x).1

end Cache

/-! ### What a history says -/

namespace History

variable {τ : Type} {h : History τ} {p : Dated τ → Prop} {key : String} {e : Entry τ} {x : Dated τ}

lemma not_since_nil : ¬ Since [] p key e := by
  rintro ⟨before, after, h, -⟩
  simp at h

lemma since_snoc : Since (h ++ [x]) p key e ↔
    x = ⟨.set key e.result, e.storedAt⟩ ∨ h.Since p key e ∧ p x := by
  constructor
  · rintro ⟨before, after, heq, hafter⟩
    rcases List.eq_nil_or_concat after with rfl | ⟨after, y, rfl⟩
    · obtain ⟨-, hx⟩ := List.append_inj' heq rfl
      exact .inl (List.singleton_inj.mp hx)
    · rw [List.concat_eq_append] at heq hafter
      rw [← List.cons_append, ← List.append_assoc] at heq
      obtain ⟨rfl, hx⟩ := List.append_inj' heq rfl
      obtain rfl := List.singleton_inj.mp hx
      obtain ⟨hafter, hx⟩ := List.forall_mem_append.mp hafter
      exact .inr ⟨⟨before, after, rfl, hafter⟩, hx x (List.mem_singleton_self x)⟩
  · rintro (rfl | ⟨⟨before, after, rfl, hafter⟩, hx⟩)
    · exact ⟨h, [], rfl, by simp⟩
    · refine ⟨before, after ++ [x], by simp, ?_⟩
      exact List.forall_mem_append.mpr ⟨hafter, by simpa using hx⟩

/-- What is no putting under the key, and leaves what was put there, makes no difference. -/
lemma since_without {before after : History τ} (hx : ∀ r t, x ≠ ⟨.set key r, t⟩) (hp : p x) :
    Since (before ++ x :: after) p key e ↔ Since (before ++ after) p key e := by
  induction after using List.reverseRecOn with
  | nil =>
    rw [List.append_nil, since_snoc]
    exact ⟨fun h => (h.resolve_left (hx _ _)).1, fun h => .inr ⟨h, hp⟩⟩
  | append_singleton after y ih =>
    rw [← List.cons_append, ← List.append_assoc, ← List.append_assoc, since_snoc, since_snoc, ih]

lemma leaves_get (key k : String) : (Act.get k).Leaves key := ⟨nofun, nofun⟩

lemma leaves_set {k : String} {r : Bool} : (Act.set k r).Leaves key ↔ k ≠ key := by
  constructor
  · rintro ⟨-, h⟩ rfl
    exact h r rfl
  · intro hne
    refine ⟨nofun, ?_⟩
    rintro r' ⟨⟩
    exact hne rfl

lemma not_leaves_clear : ¬ Act.clear.Leaves key := fun h => h.1 rfl

/-- A question puts nothing under a key. -/
lemma lastSet_without {before after : History τ} {k : String} {t : τ} :
    LastSet (before ++ ⟨.get k, t⟩ :: after) key e ↔ LastSet (before ++ after) key e :=
  since_without nofun (leaves_get key k)

variable [TimeScale τ] {ttl t : τ}

/-- What is kept was put there last. -/
lemma Keeps.lastSet (hk : h.Keeps ttl key e) : h.LastSet key e := by
  obtain ⟨before, after, heq, hafter⟩ := hk
  exact ⟨before, after, heq, fun x hx => (hafter x hx).1⟩

lemma keeps_snoc : (h ++ [x]).Keeps ttl key e ↔ x = ⟨.set key e.result, e.storedAt⟩ ∨
    h.Keeps ttl key e ∧ x.act.Leaves key ∧ ¬ Evicts ttl key e x :=
  since_snoc

/-- What is not too old yet has not been found so. -/
lemma keeps_iff_lastSet [TimeScale.Ages τ] (horder : ∀ x ∈ h, TimeScale.le x.time t = true)
    (hnow : TimeScale.lt ttl (TimeScale.sub t e.storedAt) = false) :
    h.Keeps ttl key e ↔ h.LastSet key e := by
  refine ⟨Keeps.lastSet, ?_⟩
  rintro ⟨before, after, heq, hafter⟩
  refine ⟨before, after, heq, fun x hx => ⟨hafter x hx, ?_⟩⟩
  rintro ⟨-, hold⟩
  have hmem : x ∈ h := by
    rw [heq]
    exact List.mem_append_right _ (List.mem_cons_of_mem _ hx)
  exact Bool.false_ne_true (hnow.symm.trans (TimeScale.Ages.lt_sub_of_le (horder x hmem) hold))

end History

/-! ### What one act does -/

namespace Cache

variable {τ : Type} {c : Cache τ} {h : History τ} {key : String} {t : τ} {x : Dated τ}

lemma mem_set {k : String} {e : Entry τ} {result : Bool} :
    (k, e) ∈ (c.set key result t).entries ↔
      (k = key ∧ e = ⟨result, t⟩) ∨ ((k, e) ∈ c.entries ∧ key ≠ k) := by
  unfold set
  rw [List.mem_append, List.mem_filter, List.mem_singleton, Prod.mk.injEq, or_comm, bne_iff_ne,
    ne_comm]

lemma nodup_set (hc : (c.entries.map (·.1)).Nodup) {result : Bool} :
    ((c.set key result t).entries.map (·.1)).Nodup := by
  unfold set
  rw [List.map_append, List.nodup_append]
  refine ⟨hc.sublist (List.filter_sublist.map _), List.nodup_singleton _, ?_⟩
  intro k hk k' hk'
  obtain ⟨⟨k, e⟩, hmem, rfl⟩ := List.mem_map.mp hk
  obtain rfl := List.mem_singleton.mp hk'
  simpa using (List.mem_filter.mp hmem).2

variable [TimeScale τ]

@[simp] lemma ttl_perform : (c.perform x).2.ttl = c.ttl := by
  obtain ⟨a, t⟩ := x
  cases a with
  | get key =>
    change (c.get key t).2.ttl = c.ttl
    unfold get
    split
    · rfl
    · split <;> rfl
  | _ => rfl

/-- What a cache holds is what its history keeps. -/
structure Tells (c : Cache τ) (h : History τ) : Prop where
  nodup : (c.entries.map (·.1)).Nodup
  mem : ∀ key e, (key, e) ∈ c.entries ↔ h.Keeps c.ttl key e

/-- A question drops the entry under its key if that is too old, and nothing else. -/
lemma mem_get (hc : (c.entries.map (·.1)).Nodup) {k : String} {e : Entry τ} :
    (k, e) ∈ (c.get key t).2.entries ↔
      (k, e) ∈ c.entries ∧ ¬ (key = k ∧ c.isExpired e t = true) := by
  unfold get
  rcases hlookup : c.entries.lookup key with _ | e'
  · refine ⟨fun hmem => ⟨hmem, ?_⟩, And.left⟩
    rintro ⟨rfl, -⟩
    simp [(lookup_eq_some_iff_mem hc).mpr hmem] at hlookup
  · have hsame (hmem : (key, e) ∈ c.entries) : e = e' :=
      Option.some.inj (((lookup_eq_some_iff_mem hc).mpr hmem).symm.trans hlookup)
    dsimp only
    by_cases hexpired : c.isExpired e' t = true
    · rw [if_pos hexpired, List.mem_filter]
      refine and_congr_right fun hmem => ?_
      rw [bne_iff_ne, Ne, not_iff_not]
      refine ⟨?_, fun h => h.1.symm⟩
      rintro rfl
      exact ⟨rfl, hsame hmem ▸ hexpired⟩
    · rw [if_neg hexpired]
      refine ⟨fun hmem => ⟨hmem, ?_⟩, And.left⟩
      rintro ⟨rfl, h⟩
      exact hexpired (hsame hmem ▸ h)

lemma entries_get_sublist : (c.get key t).2.entries.Sublist c.entries := by
  unfold get
  split
  · exact List.Sublist.refl _
  · split
    · exact List.filter_sublist
    · exact List.Sublist.refl _

/-- What a question answers. -/
lemma get_fst (hc : (c.entries.map (·.1)).Nodup) {r : Bool} : (c.get key t).1 = some r ↔
    ∃ t₀, (key, ⟨r, t₀⟩) ∈ c.entries ∧ TimeScale.lt c.ttl (TimeScale.sub t t₀) = false := by
  unfold get
  rcases hlookup : c.entries.lookup key with _ | ⟨r', t'⟩
  · refine ⟨nofun, ?_⟩
    rintro ⟨t₀, hmem, -⟩
    simp [(lookup_eq_some_iff_mem hc).mpr hmem] at hlookup
  · have hsame {r : Bool} {t₀ : τ} (hmem : (key, ⟨r, t₀⟩) ∈ c.entries) : r' = r ∧ t' = t₀ :=
      Entry.mk.inj
        (Option.some.inj (hlookup.symm.trans ((lookup_eq_some_iff_mem hc).mpr hmem)))
    have hmem := (lookup_eq_some_iff_mem hc).mp hlookup
    dsimp only
    by_cases hexpired : c.isExpired ⟨r', t'⟩ t = true
    · rw [if_pos hexpired]
      refine ⟨nofun, ?_⟩
      rintro ⟨t₀, hmem, hnow⟩
      obtain ⟨rfl, rfl⟩ := hsame hmem
      exact (Bool.false_ne_true (hnow.symm.trans hexpired)).elim
    · rw [if_neg hexpired]
      constructor
      · intro h
        obtain rfl := Option.some.inj h
        exact ⟨t', hmem, Bool.eq_false_of_not_eq_true hexpired⟩
      · rintro ⟨t₀, hmem, -⟩
        exact congrArg some (hsame hmem).1

/-- **What an act keeps**: the cache is told by the history with the act behind it. -/
lemma Tells.perform (hc : c.Tells h) (x : Dated τ) : (c.perform x).2.Tells (h ++ [x]) := by
  obtain ⟨a, t⟩ := x
  cases a with
  | get key =>
    refine ⟨hc.nodup.sublist (entries_get_sublist.map _), fun k e => ?_⟩
    change (k, e) ∈ (c.get key t).2.entries ↔ _
    rw [ttl_perform, History.keeps_snoc, mem_get hc.nodup, hc.mem]
    have hevicts : History.Evicts c.ttl k e ⟨.get key, t⟩ ↔ key = k ∧ c.isExpired e t = true :=
      and_congr_left fun _ => Act.get.injEq .. ▸ Iff.rfl
    rw [hevicts]
    simp [History.leaves_get]
  | set key result =>
    refine ⟨nodup_set hc.nodup, fun k e => ?_⟩
    change (k, e) ∈ (c.set key result t).entries ↔ _
    rw [ttl_perform, History.keeps_snoc, mem_set, hc.mem]
    have hset : (⟨.set key result, t⟩ : Dated τ) = ⟨.set k e.result, e.storedAt⟩ ↔
        k = key ∧ e = ⟨result, t⟩ := by
      obtain ⟨r, t₀⟩ := e
      simp only [Dated.mk.injEq, Act.set.injEq, Entry.mk.injEq, and_assoc, eq_comm]
    have hevicts : ¬ History.Evicts c.ttl k e ⟨.set key result, t⟩ := fun h => nomatch h.1
    rw [hset, History.leaves_set, and_iff_left hevicts]
  | clear =>
    refine ⟨List.nodup_nil, fun k e => ?_⟩
    rw [ttl_perform, History.keeps_snoc]
    simp [Cache.perform, clear, History.not_leaves_clear]

/-- **What a run keeps.** -/
lemma tells_after (ttl : τ) (h : History τ) : (after ⟨ttl, []⟩ h).Tells h := by
  induction h using List.reverseRecOn with
  | nil => exact ⟨List.nodup_nil, fun k e => by simp [after, History.Keeps, History.not_since_nil]⟩
  | append_singleton h x ih =>
    rw [after, List.foldl_append]
    exact ih.perform x

lemma ttl_after (h : History τ) : (c.after h).ttl = c.ttl := by
  induction h using List.reverseRecOn with
  | nil => rfl
  | append_singleton h x ih =>
    rw [after, List.foldl_append]
    exact ttl_perform.trans ih

/-- There are as many entries as keys that a judgment is kept under. -/
lemma Tells.size_eq (hc : c.Tells h) :
    (c.size : ENat) = Set.encard {key | ∃ e, h.Keeps c.ttl key e} := by
  have hkeys : {key | ∃ e, h.Keeps c.ttl key e} =
      ((c.entries.map (·.1)).toFinset : Set String) := by
    ext key
    simp [← hc.mem]
  rw [hkeys, Set.encard_coe_eq_coe_finsetCard, List.toFinset_card_of_nodup hc.nodup,
    List.length_map]
  rfl

section Order

variable [TimeScale.Ages τ] {ttl : τ}

/-- A question is answered by what was put there last, unless that is too old. -/
lemma answer_get_iff (horder : History.InOrder (h ++ [⟨.get key, t⟩])) (r : Bool) :
    answer ⟨ttl, []⟩ h ⟨.get key, t⟩ = some r ↔
      ∃ t₀, h.LastSet key ⟨r, t₀⟩ ∧ TimeScale.lt ttl (TimeScale.sub t t₀) = false := by
  have hc := tells_after ttl h
  have hbefore : ∀ x ∈ h, TimeScale.le x.time t = true := fun x hx =>
    (List.pairwise_append.mp horder).2.2 x hx _ (List.mem_singleton_self _)
  change ((after ⟨ttl, []⟩ h).get key t).1 = some r ↔ _
  rw [get_fst hc.nodup]
  refine exists_congr fun t₀ => ?_
  rw [hc.mem, ttl_after]
  exact and_congr_left fun hnow => History.keeps_iff_lastSet hbefore hnow

/-- What a question drops makes no difference to any later answer. -/
lemma answer_without {before after : History τ}
    (horder : History.InOrder (before ++ ⟨.get key, t⟩ :: after ++ [x])) :
    answer ⟨ttl, []⟩ (before ++ ⟨.get key, t⟩ :: after) x =
      answer ⟨ttl, []⟩ (before ++ after) x := by
  obtain ⟨a, t'⟩ := x
  cases a with
  | get k =>
    have hwithout : History.InOrder (before ++ after ++ [⟨.get k, t'⟩]) := by
      refine List.Pairwise.sublist ?_ horder
      exact ((List.sublist_cons_self _ after).append_left before).append_right _
    refine Option.ext fun r => ?_
    rw [answer_get_iff horder, answer_get_iff hwithout]
    simp only [History.lastSet_without]
  | _ => rfl

end Order

/-- **A cache refines its history**, if times are exact and the clock does not go back. A question
is answered by the judgment last put under its key, if nothing was cleared since and no more than
`ttl` has gone by; no later answer depends on whether it was asked; and the size counts the keys
with a judgment that was put there, and neither cleared nor found too old since. -/
theorem refines_history {τ : Type} [AddCommGroup τ] [LinearOrder τ] [IsOrderedAddMonoid τ]
    {ttl : τ} (hpos : 0 < ttl) : ∃ c : Cache τ, make ttl = .ok c ∧
      (∀ (h : History τ) key t, History.InOrder (h ++ [⟨.get key, t⟩]) →
        ∀ r, c.answer h ⟨.get key, t⟩ = some r ↔ ∃ t₀, h.LastSet key ⟨r, t₀⟩ ∧ t - t₀ ≤ ttl) ∧
      (∀ (before : History τ) key t after x,
        History.InOrder (before ++ ⟨.get key, t⟩ :: after ++ [x]) →
        c.answer (before ++ ⟨.get key, t⟩ :: after) x = c.answer (before ++ after) x) ∧
      ∀ h : History τ, ((c.after h).size : ENat) = Set.encard {key | ∃ e, h.Keeps ttl key e} := by
  refine ⟨⟨ttl, []⟩, if_neg ?_, ?_, ?_, ?_⟩
  · exact mt of_decide_eq_true hpos.not_ge
  · intro h key t horder r
    rw [answer_get_iff horder]
    refine exists_congr fun t₀ => and_congr_right fun _ => ?_
    change decide (ttl < t - t₀) = false ↔ _
    rw [decide_eq_false_iff_not, not_lt]
  · intro before key t after x horder
    exact answer_without horder
  · intro h
    rw [(tells_after ttl h).size_eq, ttl_after]

/-- A judgment against something is still an answer when its whole time has gone by. -/
theorem refines_history_to_the_end : (0 : ℤ) < 10 ∧ ∃ c : Cache ℤ, make 10 = .ok c ∧
    c.answer [⟨.set "k" false, 1⟩, ⟨.set "j" true, 5⟩] ⟨.get "k", 11⟩ = some false := by
  obtain ⟨c, hmake, hget, -, -⟩ := refines_history (show (0 : ℤ) < 10 by decide)
  refine ⟨by decide, c, hmake, (hget _ _ _ ?_ _).mpr ⟨1, ⟨[], _, rfl, ?_⟩, by decide⟩⟩
  · simp [History.InOrder, TimeScale.le]
  · simp [History.leaves_set]

end Cache

end Stencil.Judgment
