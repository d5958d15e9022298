import Mathlib.Tactic.Common
import Stencil.Record.Read

/-!
When a reader accepts a record.

Parts that are read together are accepted exactly if each part is (`seq_eq_ok`, `map_eq_ok`,
`within_eq_ok`), and a list exactly if each item is.
-/

namespace Stencil.Record

namespace Checked

variable {α β : Type}

lemma seq_eq_ok {f : Checked (α → β)} {x : Checked α} {b : β} :
    f <*> x = .ok b ↔ ∃ g a, f = .ok g ∧ x = .ok a ∧ g a = b := by
  change Checked.seq f x = .ok b ↔ _
  cases f <;> cases x <;> simp [Checked.seq]

lemma map_eq_ok {f : α → β} {x : Checked α} {b : β} :
    f <$> x = .ok b ↔ ∃ a, x = .ok a ∧ f a = b := by
  change Checked.seq (.ok f) x = .ok b ↔ _
  cases x <;> simp [Checked.seq]

lemma within_eq_ok {step : String} {c : Checked α} {a : α} : c.within step = .ok a ↔ c = .ok a := by
  cases c with
  | ok b => rfl
  | refused c cs => exact ⟨nofun, nofun⟩

lemma all_ok (as : List α) : Checked.all (as.map .ok) = .ok as := by
  induction as with
  | nil => rfl
  | cons a as ih =>
    rw [List.map_cons, Checked.all, ih]
    rfl

lemma mem_of_all {cs : List (Checked α)} {as : List α} (h : Checked.all cs = .ok as) :
    ∀ a ∈ as, .ok a ∈ cs := by
  induction cs generalizing as with
  | nil =>
    obtain rfl := Checked.ok.inj h
    exact nofun
  | cons c cs ih =>
    obtain ⟨g, bs, hg, hbs, rfl⟩ := seq_eq_ok.mp h
    obtain ⟨a, rfl, rfl⟩ := map_eq_ok.mp hg
    exact List.forall_mem_cons.mpr
      ⟨List.mem_cons_self, fun b hb => List.mem_cons_of_mem _ (ih hbs b hb)⟩

/-- Parts that are read each under its position are read in order. -/
lemma forall₂_of_all_mapIdx {g : β → Checked α} {step : ℕ → String} {bs : List β} {as : List α}
    (h : Checked.all (bs.mapIdx fun i b => (g b).within (step i)) = .ok as) :
    List.Forall₂ (fun b a => g b = .ok a) bs as := by
  induction bs generalizing step as with
  | nil =>
    obtain rfl := Checked.ok.inj h
    exact .nil
  | cons b bs ih =>
    rw [List.mapIdx_cons] at h
    obtain ⟨cons, rest, hcons, hrest, rfl⟩ := seq_eq_ok.mp h
    obtain ⟨a, ha, rfl⟩ := map_eq_ok.mp hcons
    exact .cons (within_eq_ok.mp ha) (ih hrest)

end Checked

/-! ### Lists -/

variable {α : Type} {r : Reader α}

lemma listOf_map {f : α → Value} {as : List α} (h : ∀ a ∈ as, r (f a) = .ok a) :
    listOf r (as.map f) = .ok as := by
  have hall : (as.map f).mapIdx (fun i v => (r v).within (Number.natText i)) = as.map .ok := by
    refine List.ext_getElem (by simp) fun i hi hi' => ?_
    have hlt : i < as.length := by simpa using hi'
    have hread := h as[i] (List.getElem_mem hlt)
    simp [hread, Checked.within]
  rw [listOf, hall, Checked.all_ok]

lemma exists_of_listOf {items : List Value} {as : List α} (h : listOf r items = .ok as) :
    ∀ a ∈ as, ∃ v ∈ items, r v = .ok a := by
  intro a ha
  obtain ⟨i, hi, hget⟩ := List.mem_mapIdx.mp (Checked.mem_of_all h a ha)
  exact ⟨items[i], List.getElem_mem hi, Checked.within_eq_ok.mp hget⟩

end Stencil.Record
