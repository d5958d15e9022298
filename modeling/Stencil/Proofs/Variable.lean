import Stencil.Variable
import Stencil.Proofs.Context.Binding
import Stencil.Proofs.Source.Tokens
import Stencil.Proofs.Text.Pieces

/-!
Variable paths: how they may fail, and what they depend on.
-/

namespace Stencil.Variable

/-! ### Paths that cannot be followed -/

/-- An index of the path has `k` digits, too many to be read. -/
def Overlong (path : List Segment) (k : Nat) : Prop :=
  ∃ digits, .index digits ∈ path ∧ digits.length = k ∧ ValueFault.digitLimit < k

/-- Following the path from a value comes to an index of `k` digits, too many to be read. -/
def Blocked (v : Value) (path : List Segment) (k : Nat) : Prop :=
  ∃ way digits rest u, path = way ++ .index digits :: rest ∧ follow v way = .ok (some u) ∧
    digits.length = k ∧ ValueFault.digitLimit < k

lemma Blocked.overlong {v : Value} {path : List Segment} {k : Nat} (h : Blocked v path k) :
    Overlong path k := by
  obtain ⟨way, digits, rest, u, rfl, -, hk⟩ := h
  exact ⟨digits, by simp, hk⟩

lemma step_overlong {v : Value} {digits : List Nat} (h : ValueFault.digitLimit < digits.length) :
    step v (.index digits) = .error (.digitsTooLong digits.length) := by
  simp [step, position, h]

lemma step_error_iff {v : Value} {segment : Segment} {fault : ValueFault} :
    step v segment = .error fault ↔ ∃ digits, segment = .index digits ∧
      ValueFault.digitLimit < digits.length ∧ fault = .digitsTooLong digits.length := by
  cases segment with
  | key name => simp [step]
  | index digits =>
    by_cases hd : ValueFault.digitLimit < digits.length
    · rw [step_overlong hd]
      simp [hd, eq_comm]
    · simp [step, position, hd]

section

variable {v w : Value} {segment : Segment} {path : List Segment} {k : Nat}

lemma follow_cons_error {fault : ValueFault} (h : step v segment = .error fault) :
    follow v (segment :: path) = .error fault := by
  rw [follow, h]
  rfl

lemma follow_cons_none (h : step v segment = .ok none) :
    follow v (segment :: path) = .ok none := by
  rw [follow, h]
  rfl

lemma follow_cons_some (h : step v segment = .ok (some w)) :
    follow v (segment :: path) = follow w path := by
  rw [follow, h]
  rfl

lemma not_overlong_of_step {o : Option Value} (h : step v segment = .ok o) :
    ¬ ∃ digits, segment = .index digits ∧ digits.length = k ∧ ValueFault.digitLimit < k := by
  rintro ⟨digits, rfl, rfl, hd⟩
  rw [step_overlong hd] at h
  cases h

/-- A path is blocked at its first step or behind it. -/
lemma blocked_cons : Blocked v (segment :: path) k ↔
    (∃ digits, segment = .index digits ∧ digits.length = k ∧ ValueFault.digitLimit < k) ∨
      ∃ w, step v segment = .ok (some w) ∧ Blocked w path k := by
  constructor
  · rintro ⟨way, digits, rest, u, hpath, hway, hk⟩
    rcases way with _ | ⟨head, way⟩
    · exact .inl ⟨digits, (List.cons.inj hpath).1, hk⟩
    · obtain ⟨rfl, rfl⟩ := List.cons.inj hpath
      rcases hs : step v segment with f | _ | w
      · rw [follow_cons_error hs] at hway
        cases hway
      · rw [follow_cons_none hs] at hway
        cases hway
      · rw [follow_cons_some hs] at hway
        exact .inr ⟨w, rfl, way, digits, rest, u, rfl, hway, hk⟩
  · rintro (⟨digits, rfl, hk⟩ | ⟨w, hs, way, digits, rest, u, rfl, hway, hk⟩)
    · exact ⟨[], digits, path, v, rfl, rfl, hk⟩
    · exact ⟨segment :: way, digits, rest, u, rfl, (follow_cons_some hs).trans hway, hk⟩

/-- A path cannot be followed exactly if it comes to an index that is too long. -/
lemma follow_error_iff {fault : ValueFault} :
    follow v path = .error fault ↔ ∃ k, fault = .digitsTooLong k ∧ Blocked v path k := by
  induction path generalizing v with
  | nil =>
    constructor
    · intro h
      cases h
    · rintro ⟨k, -, way, digits, rest, u, h, -⟩
      exact absurd h.symm (by simp)
  | cons segment path ih =>
    simp only [blocked_cons]
    rcases hs : step v segment with f | _ | w
    · obtain ⟨digits, rfl, hd, rfl⟩ := step_error_iff.mp hs
      rw [follow_cons_error hs]
      simp [hd, eq_comm]
    · rw [follow_cons_none hs]
      simp [not_overlong_of_step hs]
    · rw [follow_cons_some hs, ih]
      simp [not_overlong_of_step hs]

end

/-- A name cannot be looked up exactly if it is not bound as it stands and comes to an index that
is too long. -/
lemma lookup_error_iff {name : String} {b : Bindings} {fault : ValueFault} :
    lookup name b = .error fault ↔ ∃ k, fault = .digitsTooLong k ∧ b.find? name = none ∧
      Blocked (Value.ofBindings b) (segments name) k := by
  unfold lookup
  split
  · rename_i h
    simp [h]
  · rename_i h
    simp [h, follow_error_iff]

/-! ### Names that are none of context's -/

/-- The name is under the one that context results are bound to. -/
def isOfContext (name : String) : Bool := Text.startsWith Context.bindingName name

/-- A name begins with its first key, which is not context's unless the name is. -/
lemma segments_of_isName {name : String} (h : Source.IsName name) :
    ∃ key rest, segments name = .key key :: rest ∧
      (isOfContext name = false → key ≠ Context.bindingName) := by
  obtain ⟨c, cs, hname, hc⟩ := h
  have hne (d : Char) (hd : Source.isNameStart d = false ∧ (d == '@') = false) : c ≠ d := by
    rintro rfl
    simp [hd.1, hd.2] at hc
  have hopen : c ≠ '[' := hne _ (by decide)
  have hplain : isPlain c = true := by
    simp [isPlain, hne '.' (by decide), hopen, hne ']' (by decide)]
  have hindex : Source.index? (c :: cs) = none := by
    rw [Source.index?.eq_def]
    split
    · rename_i heq
      exact absurd (List.cons.inj heq).1 hopen
    · rfl
  refine ⟨String.ofList (c :: cs.takeWhile isPlain), segmentsFrom cs.length (cs.dropWhile isPlain),
    ?_, fun hno hkey => ?_⟩
  · have hlen : name.length = cs.length + 1 := by
      rw [← String.length_toList, hname, List.length_cons]
    rw [segments, hname, hlen, segmentsFrom, hindex]
    simp [hplain]
  · -- a first key that is context's makes the name begin with it
    have hlead : Context.bindingName.toList = c :: cs.takeWhile isPlain := by
      rw [← hkey, String.toList_ofList]
    have hstart : isOfContext name = true := by
      have hsplit : c :: cs = Context.bindingName.toList ++ cs.dropWhile isPlain := by
        rw [hlead, List.cons_append, List.takeWhile_append_dropWhile]
      rw [isOfContext, Text.startsWith, hname, hsplit, Text.dropLead?_eq_some_iff.mpr rfl]
      rfl
    rw [hno] at hstart
    cases hstart

/-- The name may reach the results of context: it begins with the key that they are bound to, or
stands for all bindings at once. -/
def seesContext (name : String) : Bool :=
  match segments name with
  | [] => true
  | .key key :: _ => key == Context.bindingName
  | .index _ :: _ => false

lemma seesContext_bindingName : seesContext Context.bindingName = true := by
  with_unfolding_all rfl

/-- What other names are looked up to does not depend on the results of context. -/
lemma lookup_congr_of_seesContext {name : String} (hname : seesContext name = false)
    {b b' : Bindings} (h : ∀ x, x ≠ Context.bindingName → b'.find? x = b.find? x) :
    lookup name b' = lookup name b := by
  have hne : name ≠ Context.bindingName := by
    rintro rfl
    rw [seesContext_bindingName] at hname
    cases hname
  have hfollow : follow (Value.ofBindings b') (segments name) =
      follow (Value.ofBindings b) (segments name) := by
    rcases hs : segments name with _ | ⟨key | digits, rest⟩ <;> rw [seesContext, hs] at hname
    · cases hname
    · rw [follow, follow, step, step, Bindings.field?_ofBindings, Bindings.field?_ofBindings,
        h key (by simpa using hname)]
    · rfl
  unfold lookup
  rw [h name hne, hfollow]

lemma seesContext_of_isName {name : String} (hname : Source.IsName name)
    (hno : isOfContext name = false) : seesContext name = false := by
  obtain ⟨key, rest, hseg, hkey⟩ := segments_of_isName hname
  rw [seesContext, hseg]
  simpa using hkey hno

/-- What such a name is looked up to does not depend on the results of context. -/
lemma lookup_congr {name : String} (hname : Source.IsName name) (hno : isOfContext name = false)
    {b b' : Bindings}
    (h : ∀ x, x ≠ Context.bindingName → b'.find? x = b.find? x) :
    lookup name b' = lookup name b :=
  lookup_congr_of_seesContext (seesContext_of_isName hname hno) h

end Stencil.Variable
