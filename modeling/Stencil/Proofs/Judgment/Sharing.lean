import Stencil.Judgment.Judge
import Stencil.Proofs.Judgment.Key
import Stencil.Proofs.Number.Order

/-!
Judges that share one cache, with their calls interleaved.

A call looks into the cache, asks the judge behind it, gets its verdict and settles it; the look
and the settling are the two halves of `remembering`, and anything may happen between the four
steps. What an interleaving keeps (`Kept`) ties each entry of the cache to a call that was judged
and wrote it (`Origin`), and each call to what it has come to so far (`Course`).
-/

namespace Stencil

namespace Judgment

/-- What all calls share: the cache, and the clock that it goes by. -/
structure Desk where
  cache : Cache
  now : Double

/-- How far a call has come. -/
inductive Stage where
  | fresh
  /-- It has found nothing, and has yet to ask the judge behind it. -/
  | missed (key : String)
  | asking (key : String)
  /-- The judge behind it has come to a verdict, and it has yet to settle that. -/
  | judged (key : String) (verdict : Verdict)
  | ended (verdict : Verdict)

namespace Desk

def memory : Memory Desk where
  read w := w.cache
  write c w := { w with cache := c }
  now w := w.now

/-- The first half of a call. -/
def look (i : Inquiry) : StateM Desk (Verdict ⊕ String) :=
  memory.look i.provider i.model i.value i.question

/-- The second half of a call. -/
def settle (key : String) (verdict : Verdict) : StateM Desk Verdict := memory.settle key verdict

/-- There is an entry for the inquiry that is not too old. -/
def Holds (w : Desk) (i : Inquiry) (e : Entry) : Prop :=
  ∃ k, i.key = .ok k ∧ w.cache.entries.lookup k = some e ∧ w.cache.isExpired e w.now = false

/-- All that a look can come to. -/
inductive Looked (i : Inquiry) (w : Desk) : Verdict ⊕ String → Desk → Prop
  | refused {f : Failure} (hkey : i.key = .error f) : Looked i w (.inl (.failed f)) w
  | found {e : Entry} (h : w.Holds i e) : Looked i w (.inl (.answer (.bool e.result))) w
  | missed {k : String} {c : Cache} (hkey : i.key = .ok k) (hnone : ∀ e, ¬ w.Holds i e)
      (httl : c.ttl = w.cache.ttl) (hentries : c.entries ⊆ w.cache.entries) :
      Looked i w (.inr k) { w with cache := c }

lemma look_of_refused {i : Inquiry} {f : Failure} (h : i.key = .error f) (w : Desk) :
    look i w = (.inl (.failed f), w) := by
  unfold look Memory.look
  rw [show key i.value i.question i.provider i.model = .error f from h]
  rfl

/-- What a look gives whose key can be made. -/
def ofGet (k : String) (w : Desk) : Option Bool × Cache → (Verdict ⊕ String) × Desk
  | (some b, c) => (.inl (.answer (.bool b)), { w with cache := c })
  | (none, c) => (.inr k, { w with cache := c })

lemma look_of_key {i : Inquiry} {k : String} (h : i.key = .ok k) (w : Desk) :
    look i w = ofGet k w (w.cache.get k w.now) := by
  unfold look Memory.look
  rw [show key i.value i.question i.provider i.model = .ok k from h]
  change (memory.find k >>= _) w = _
  have hfind : memory.find k w =
    ((w.cache.get k w.now).1, { w with cache := (w.cache.get k w.now).2 }) := rfl
  rw [StateM.bind_apply, hfind]
  rcases w.cache.get k w.now with ⟨_ | b, c⟩ <;> rfl

lemma looked_look (i : Inquiry) (w : Desk) : Looked i w (look i w).1 (look i w).2 := by
  rcases hkey : i.key with f | k
  · rw [look_of_refused hkey]
    exact .refused hkey
  · have hholds : ∀ e, w.Holds i e ↔
        w.cache.entries.lookup k = some e ∧ w.cache.isExpired e w.now = false := by
      intro e
      unfold Holds
      rw [hkey]
      exact ⟨fun ⟨_, heq, h⟩ => Except.ok.inj heq ▸ h, fun h => ⟨k, rfl, h⟩⟩
    rw [look_of_key hkey]
    unfold Cache.get
    rcases hlookup : w.cache.entries.lookup k with _ | e
    · refine .missed hkey (fun e he => ?_) rfl (List.Subset.refl _)
      simp [(hholds e).mp he] at hlookup
    · dsimp only
      split_ifs with hexpired
      · refine .missed hkey (fun e' he => ?_) rfl (List.filter_subset_self _)
        obtain ⟨hlookup', hlive⟩ := (hholds e').mp he
        obtain rfl := Option.some.inj (hlookup.symm.trans hlookup')
        exact absurd (hexpired.symm.trans hlive) nofun
      · exact .found ((hholds e).mpr ⟨hlookup, by simpa using hexpired⟩)

lemma look_of_holds {i : Inquiry} {w : Desk} {x : Entry} (h : w.Holds i x) :
    look i w = (.inl (.answer (.bool x.result)), w) := by
  obtain ⟨k, hkey, hlookup, hlive⟩ := h
  rw [look_of_key hkey]
  unfold Cache.get
  rw [hlookup]
  dsimp only
  rw [hlive]
  rfl

/-- A call as a whole. -/
def ask (judge : Judge Desk) (i : Inquiry) : StateM Desk Verdict :=
  (remembering memory i.provider i.model judge).ask i.value i.question

lemma ask_of_verdict {judge : Judge Desk} {i : Inquiry} {w w' : Desk} {v : Verdict}
    (h : look i w = (.inl v, w')) : ask judge i w = (v, w') := by
  unfold ask remembering
  dsimp only
  rw [StateM.bind_apply, show memory.look i.provider i.model i.value i.question w = _ from h]
  rfl

lemma ask_of_key {judge : Judge Desk} {i : Inquiry} {w w' : Desk} {k : String}
    (h : look i w = (.inr k, w')) : ask judge i w =
      settle k (judge.ask i.value i.question w').1 (judge.ask i.value i.question w').2 := by
  unfold ask remembering
  dsimp only
  rw [StateM.bind_apply, show memory.look i.provider i.model i.value i.question w = _ from h]
  rfl

lemma Looked.now_eq {i : Inquiry} {w w' : Desk} {r : Verdict ⊕ String} (h : Looked i w r w') :
    w'.now = w.now := by
  cases h <;> rfl

lemma Looked.cache {i : Inquiry} {w w' : Desk} {r : Verdict ⊕ String} (h : Looked i w r w') :
    w'.cache.ttl = w.cache.ttl ∧ w'.cache.entries ⊆ w.cache.entries := by
  cases h with
  | refused hkey | found h => exact ⟨rfl, List.Subset.refl _⟩
  | missed hkey hnone httl hentries => exact ⟨httl, hentries⟩

lemma settle_of_no_answer {v : Verdict} (hv : ∀ a, v ≠ .answer a) (k : String) (w : Desk) :
    settle k v w = (v, w) := by
  cases v with
  | answer a => exact absurd rfl (hv a)
  | failed f => rfl
  | stalled limit => rfl

@[simp] lemma settle_fst (k : String) (v : Verdict) (w : Desk) : (settle k v w).1 = v := by
  cases v <;> rfl

end Desk

/-! ### Calls and their interleavings -/

/-- Calls under way, and what they share. -/
structure State (ι : Type) where
  desk : Desk
  stage : ι → Stage

/-- A step of a call, or something else that happens to the desk. -/
inductive Event (ι : Type) where
  | tick
  | clear
  | look (call : ι)
  | ask (call : ι)
  | judge (call : ι) (verdict : Verdict)
  | settle (call : ι)

/-- A step that was taken. -/
structure Move (ι : Type) where
  before : State ι
  event : Event ι
  after : State ι

variable {ι : Type}

/-- The call that takes the step. -/
def Event.call? : Event ι → Option ι
  | .tick | .clear => none
  | .look c | .ask c | .judge c _ | .settle c => some c

/-- No call has begun, and nothing is remembered. -/
def State.start (ttl now : Double) : State ι := ⟨⟨{ ttl }, now⟩, fun _ => .fresh⟩

/-- Where a call stands after its look. -/
def Stage.ofLook : Verdict ⊕ String → Stage
  | .inl v => .ended v
  | .inr k => .missed k

section

variable [DecidableEq ι]

namespace State

/-- A call has come to a stage and left the desk so. -/
def set (s : State ι) (c : ι) (g : Stage) (w : Desk) : State ι := ⟨w, Function.update s.stage c g⟩

@[simp] lemma set_desk (s : State ι) (c : ι) (g : Stage) (w : Desk) : (s.set c g w).desk = w := rfl

@[simp] lemma set_stage_self (s : State ι) (c : ι) (g : Stage) (w : Desk) :
    (s.set c g w).stage c = g := Function.update_self ..

lemma set_stage_of_ne (s : State ι) {c d : ι} (h : d ≠ c) (g : Stage) (w : Desk) :
    (s.set c g w).stage d = s.stage d := Function.update_of_ne h ..

@[simp] lemma set_set (s : State ι) (c : ι) (g g' : Stage) (w w' : Desk) :
    (s.set c g w).set c g' w' = s.set c g' w' := by
  unfold set
  rw [Function.update_idem]

end State

variable (asked : ι → Inquiry)

/-- What can happen next. The judge behind a call may come to any verdict. -/
inductive Step (s : State ι) : Event ι → State ι → Prop
  | tick {t : Double} (h : Double.le s.desk.now t = true) :
    Step s .tick { s with desk := { s.desk with now := t } }
  | clear : Step s .clear { s with desk := { s.desk with cache := s.desk.cache.clear } }
  | look {c : ι} (h : s.stage c = .fresh) :
    Step s (.look c)
      (s.set c (.ofLook (Desk.look (asked c) s.desk).1) (Desk.look (asked c) s.desk).2)
  | ask {c : ι} {k : String} (h : s.stage c = .missed k) :
    Step s (.ask c) (s.set c (.asking k) s.desk)
  | judge {c : ι} {k : String} (v : Verdict) (h : s.stage c = .asking k) :
    Step s (.judge c v) (s.set c (.judged k v) s.desk)
  | settle {c : ι} {k : String} {v : Verdict} (h : s.stage c = .judged k v) :
    Step s (.settle c)
      (s.set c (.ended (Desk.settle k v s.desk).1) (Desk.settle k v s.desk).2)

/-- An interleaving, with its steps in their order. -/
inductive Run (s₀ : State ι) : List (Move ι) → State ι → Prop
  | nil : Run s₀ [] s₀
  | snoc {moves : List (Move ι)} {s s' : State ι} {e : Event ι} (hrun : Run s₀ moves s)
      (hstep : Step asked s e s') : Run s₀ (moves ++ [⟨s, e, s'⟩]) s'

end

/-! ### What a step does -/

/-- The step writes an answer under a key. -/
structure Writes (m : Move ι) (c : ι) (k : String) (a : Value) : Prop where
  event : m.event = .settle c
  before : m.before.stage c = .judged k (.answer a)
  after : m.after.stage c = .ended (.answer a)
  cache : m.after.desk.cache = m.before.desk.cache.set k a.truthy m.before.desk.now

section

variable [DecidableEq ι] {asked : ι → Inquiry} {s s' : State ι} {e : Event ι}

lemma Step.stage_of_ne (h : Step asked s e s') {d : ι} (hd : e.call? ≠ some d) :
    s'.stage d = s.stage d := by
  cases h with
  | tick h => rfl
  | clear => rfl
  | look h | ask h | judge v h | settle h =>
    exact s.set_stage_of_ne (fun heq => hd (congrArg some heq.symm)) _ _

/-- A call that is over takes no step. -/
lemma Step.not_ended (h : Step asked s e s') {c : ι} (hc : e.call? = some c) (v : Verdict) :
    s.stage c ≠ .ended v := by
  cases h with
  | tick h | clear => cases hc
  | look h | ask h | judge v h | settle h =>
    obtain rfl := Option.some.inj hc
    rw [h]
    nofun

/-- The clock goes on and the time that is set stays, and what is in the cache was there before
or is written by the step. -/
lemma Step.desk (h : Step asked s e s') (hs : Double.le s.desk.now s.desk.now = true) :
    Double.le s.desk.now s'.desk.now = true ∧ s'.desk.cache.ttl = s.desk.cache.ttl ∧
      (s'.desk.cache.entries ⊆ s.desk.cache.entries ∨ ∃ c k a, Writes ⟨s, e, s'⟩ c k a) := by
  cases h with
  | tick h => exact ⟨h, rfl, .inl (List.Subset.refl _)⟩
  | clear => exact ⟨hs, rfl, .inl (List.nil_subset _)⟩
  | @look c h =>
    have hlook := Desk.looked_look (asked c) s.desk
    exact ⟨by rwa [State.set_desk, hlook.now_eq], hlook.cache.1, .inl hlook.cache.2⟩
  | ask h | judge v h => exact ⟨hs, rfl, .inl (List.Subset.refl _)⟩
  | @settle c k v h =>
    by_cases hv : ∃ a, v = .answer a
    · obtain ⟨a, rfl⟩ := hv
      exact ⟨hs, rfl, .inr ⟨c, k, a, rfl, h, State.set_stage_self .., rfl⟩⟩
    · rw [Desk.settle_of_no_answer (fun a heq => hv ⟨a, heq⟩)]
      exact ⟨hs, rfl, .inl (List.Subset.refl _)⟩

/-- A call that has found nothing can run to its end, with time passing only while the judge behind
it is at work. -/
lemma exists_run_missed {c : ι} {w : Desk} {k : String} {moves : List (Move ι)}
    (hrun : Run asked s moves (s.set c (.missed k) w)) (v : Verdict) {now : Double}
    (hnow : Double.le w.now now = true) :
    ∃ moves, Run asked s moves (s.set c (.ended (Desk.settle k v ⟨w.cache, now⟩).1)
      (Desk.settle k v ⟨w.cache, now⟩).2) := by
  have hrun := hrun.snoc (.ask (State.set_stage_self ..))
  rw [State.set_set] at hrun
  have hrun := hrun.snoc (.judge v (State.set_stage_self ..))
  rw [State.set_set] at hrun
  have htick : Step asked (s.set c (.judged k v) w) .tick
      (s.set c (.judged k v) ⟨w.cache, now⟩) := .tick hnow
  have hrun := (hrun.snoc htick).snoc (.settle (State.set_stage_self ..))
  rw [State.set_set] at hrun
  exact ⟨_, hrun⟩

/-- A call that runs by itself is an interleaving, if the judge behind it leaves the cache alone
and does not set the clock back. -/
theorem exists_run_ask {c : ι} (hc : s.stage c = .fresh)
    (hs : Double.le s.desk.now s.desk.now = true) (judge : Judge Desk)
    (hcache : ∀ v q w, (judge.ask v q w).2.cache = w.cache)
    (hclock : ∀ v q w, Double.le w.now w.now = true →
      Double.le w.now (judge.ask v q w).2.now = true) :
    ∃ moves, Run asked s moves (s.set c (.ended (Desk.ask judge (asked c) s.desk).1)
      (Desk.ask judge (asked c) s.desk).2) := by
  have hstep : Step asked s _ _ := .look hc
  have hlooked := Desk.looked_look (asked c) s.desk
  rcases hlook : Desk.look (asked c) s.desk with ⟨v | k, w⟩ <;> rw [hlook] at hstep hlooked
  · rw [Desk.ask_of_verdict hlook]
    exact ⟨_, .snoc .nil hstep⟩
  · rw [Desk.ask_of_key hlook]
    have hkeeps := hcache (asked c).value (asked c).question w
    have hgoes := hclock (asked c).value (asked c).question w (by rwa [hlooked.now_eq])
    generalize judge.ask (asked c).value (asked c).question w = r at hkeeps hgoes ⊢
    obtain ⟨v, cache, now⟩ := r
    obtain rfl : cache = w.cache := hkeeps
    exact exists_run_missed (Run.nil.snoc hstep) v hgoes

end

/-! ### What an interleaving keeps -/

section

variable (asked : ι → Inquiry)

/-- The entry was written, under its key, by a call that the judge behind it had answered. -/
structure Origin (moves : List (Move ι)) (k : String) (x : Entry) (c : ι) (a : Value)
    (answering writing : Move ι) : Prop where
  order : [answering, writing].Sublist moves
  answered : answering.event = .judge c (.answer a)
  key : (asked c).key = .ok k
  writes : Writes writing c k a
  entry : x = ⟨a.truthy, writing.before.desk.now⟩

/-- A call gives back what it read: what another call, with the same key, had been answered and had
written not too long before. The cache keeps the truth of an answer, which for a yes or no is the
answer itself. -/
structure Recalls (ttl : Double) (moves : List (Move ι)) (c : ι) (r : Value) (d : ι) (a : Value)
    (answering writing reading : Move ι) : Prop where
  order : [answering, writing, reading].Sublist moves
  answered : answering.event = .judge d (.answer a)
  writes : ∃ k, (asked d).key = .ok k ∧ (asked c).key = .ok k ∧ Writes writing d k a
  reads : reading.event = .look c
  result : r = .bool a.truthy
  clock : Double.le writing.before.desk.now reading.before.desk.now = true
  age : Double.lt ttl (Double.sub reading.before.desk.now writing.before.desk.now) = false

/-- The answer was given to the call, or it is recalled. -/
def Given (ttl : Double) (moves : List (Move ι)) (c : ι) (r : Value) : Prop :=
  (∃ m ∈ moves, m.event = .judge c (.answer r)) ∨
    ∃ d a answering writing reading, Recalls asked ttl moves c r d a answering writing reading

/-- What is known of a call at each stage. -/
def Course (ttl : Double) (moves : List (Move ι)) (c : ι) : Stage → Prop
  | .fresh => ∀ m ∈ moves, m.event.call? ≠ some c
  | .missed k | .asking k => (asked c).key = .ok k
  | .judged k v => (asked c).key = .ok k ∧ ∃ m ∈ moves, m.event = .judge c v
  | .ended v => ∀ r, v = .answer r → Given asked ttl moves c r

/-- What holds of an interleaving at any point. -/
structure Kept (ttl : Double) (moves : List (Move ι)) (s : State ι) : Prop where
  time : s.desk.cache.ttl = ttl
  clock : Double.le s.desk.now s.desk.now = true
  entries : ∀ k x, (k, x) ∈ s.desk.cache.entries → Double.le x.storedAt s.desk.now = true ∧
    ∃ c a answering writing, Origin asked moves k x c a answering writing
  course : ∀ c, Course asked ttl moves c (s.stage c)
  writers : ∀ m ∈ moves, m.after.desk.cache.entries ⊆ m.before.desk.cache.entries ∨
    ∃ c a, m.event = .settle c ∧ s.stage c = .ended (.answer a)
  found : ∀ m ∈ moves, ∀ c x, m.event = .look c → m.before.desk.Holds (asked c) x →
    s.stage c = .ended (.answer (.bool x.result)) ∧ ∀ m' ∈ moves, m'.event ≠ .ask c

lemma kept_start (ttl : Double) {t : Double} (ht : Double.le t t = true) :
    Kept asked ttl [] (.start ttl t) where
  time := rfl
  clock := ht
  entries _ _ hx := absurd hx List.not_mem_nil
  course _ _ hm := absurd hm List.not_mem_nil
  writers _ hm := absurd hm List.not_mem_nil
  found _ hm := absurd hm List.not_mem_nil

variable {asked} {ttl : Double} {moves : List (Move ι)} {s s' : State ι} {e : Event ι} {m : Move ι}

lemma Origin.snoc {k : String} {x : Entry} {c : ι} {a : Value} {answering writing : Move ι}
    (h : Origin asked moves k x c a answering writing) :
    Origin asked (moves ++ [m]) k x c a answering writing :=
  { h with order := h.order.trans (List.sublist_append_left ..) }

lemma Given.snoc {c : ι} {r : Value} (h : Given asked ttl moves c r) :
    Given asked ttl (moves ++ [m]) c r := by
  rcases h with ⟨m, hm, heq⟩ | ⟨d, a, answering, writing, reading, h⟩
  · exact .inl ⟨m, List.mem_append_left _ hm, heq⟩
  · exact .inr ⟨d, a, answering, writing, reading,
      { h with order := h.order.trans (List.sublist_append_left ..) }⟩

/-- A step that the call does not take changes nothing about it. -/
lemma Course.snoc {c : ι} {g : Stage} (h : Course asked ttl moves c g)
    (hm : m.event.call? ≠ some c) : Course asked ttl (moves ++ [m]) c g := by
  cases g with
  | fresh => exact List.forall_mem_append.mpr ⟨h, List.forall_mem_singleton.mpr hm⟩
  | missed k | asking k => exact h
  | judged k v =>
    obtain ⟨hkey, n, hn, heq⟩ := h
    exact ⟨hkey, n, List.mem_append_left _ hn, heq⟩
  | ended v => exact fun r hr => (h r hr).snoc

/-- A call that finds an entry recalls it. -/
lemma Kept.recalls (h : Kept asked ttl moves s) {c : ι} {x : Entry}
    (hx : s.desk.Holds (asked c) x) :
    Given asked ttl (moves ++ [⟨s, .look c, s'⟩]) c (.bool x.result) := by
  obtain ⟨k, hkey, hlookup, hlive⟩ := hx
  obtain ⟨before, after, hentries, -⟩ := List.lookup_eq_some_iff.mp hlookup
  obtain ⟨hclock, d, a, answering, writing, horigin⟩ :=
    h.entries k x (by rw [hentries]; exact List.mem_append_right _ List.mem_cons_self)
  obtain ⟨horder, hanswered, hkey', hwrites, rfl⟩ := horigin
  exact .inr ⟨d, a, answering, writing, ⟨s, .look c, s'⟩,
    { order := horder.append (List.Sublist.refl _)
      answered := hanswered
      writes := ⟨k, hkey', hkey, hwrites⟩
      reads := rfl
      result := rfl
      clock := hclock
      age := by rw [← h.time]; exact hlive }⟩

/-- A look leads a call to where its result says. -/
lemma Kept.course_of_looked (h : Kept asked ttl moves s) {c : ι} {r : Verdict ⊕ String} {w : Desk}
    (hlook : Desk.Looked (asked c) s.desk r w) :
    Course asked ttl (moves ++ [⟨s, .look c, s'⟩]) c (.ofLook r) := by
  cases hlook with
  | refused hkey => exact nofun
  | found hx =>
    rintro _ ⟨⟩
    exact h.recalls hx
  | missed hkey hnone httl hentries => exact hkey

variable [DecidableEq ι]

/-- A step of the call itself leads from one stage to the next. -/
lemma Kept.course_of_step (h : Kept asked ttl moves s) (hstep : Step asked s e s') {c : ι}
    (hc : e.call? = some c) : Course asked ttl (moves ++ [⟨s, e, s'⟩]) c (s'.stage c) := by
  have hcourse := h.course c
  cases hstep with
  | tick | clear => cases hc
  | look hstage =>
    obtain rfl := Option.some.inj hc
    rw [State.set_stage_self]
    exact h.course_of_looked (Desk.looked_look _ _)
  | ask hstage =>
    obtain rfl := Option.some.inj hc
    rw [hstage] at hcourse
    rw [State.set_stage_self]
    exact hcourse
  | judge v hstage =>
    obtain rfl := Option.some.inj hc
    rw [hstage] at hcourse
    rw [State.set_stage_self]
    exact ⟨hcourse, _, List.mem_append_right _ (List.mem_singleton_self _), rfl⟩
  | settle hstage =>
    obtain rfl := Option.some.inj hc
    rw [hstage] at hcourse
    rw [State.set_stage_self, Desk.settle_fst]
    obtain ⟨-, m, hm, heq⟩ := hcourse
    rintro r rfl
    exact .inl ⟨m, List.mem_append_left _ hm, heq⟩

/-- What an entry comes from once a step has been taken. -/
lemma Kept.origin_of_step (h : Kept asked ttl moves s) (hstep : Step asked s e s')
    {k : String} {x : Entry} (hx : (k, x) ∈ s'.desk.cache.entries) :
    Double.le x.storedAt s'.desk.now = true ∧
      ∃ c a answering writing, Origin asked (moves ++ [⟨s, e, s'⟩]) k x c a answering writing := by
  obtain ⟨hclock, -, hcache⟩ := hstep.desk h.clock
  have hold (hx : (k, x) ∈ s.desk.cache.entries) : Double.le x.storedAt s'.desk.now = true ∧
      ∃ c a answering writing,
        Origin asked (moves ++ [⟨s, e, s'⟩]) k x c a answering writing := by
    obtain ⟨hle, c, a, answering, writing, horigin⟩ := h.entries k x hx
    exact ⟨Double.le_trans hle hclock, c, a, answering, writing, horigin.snoc⟩
  rcases hcache with hsub | ⟨c, k', a, hwrites⟩
  · exact hold (hsub hx)
  · rw [hwrites.cache, Cache.set] at hx
    rcases List.mem_append.mp hx with hx | hx
    · exact hold (List.mem_of_mem_filter hx)
    · obtain ⟨rfl, rfl⟩ := Prod.mk.inj (List.mem_singleton.mp hx)
      have hcourse := h.course c
      rw [hwrites.before] at hcourse
      obtain ⟨hkey, m, hm, hanswered⟩ := hcourse
      exact ⟨hclock, c, a, m, ⟨s, e, s'⟩,
        { order := (List.singleton_sublist.mpr hm).append (List.Sublist.refl _)
          answered := hanswered
          key := hkey
          writes := hwrites
          entry := rfl }⟩

/-- A call that looks while there is an entry that is not too old is over then, and has asked no
judge. -/
lemma Kept.found_of_step (h : Kept asked ttl moves s) {c : ι} (hstep : Step asked s (.look c) s')
    {x : Entry} (hx : s.desk.Holds (asked c) x) :
    s'.stage c = .ended (.answer (.bool x.result)) ∧
      ∀ m ∈ moves ++ [⟨s, .look c, s'⟩], m.event ≠ .ask c := by
  cases hstep with
  | look hstage =>
    have hcourse := h.course c
    rw [hstage] at hcourse
    rw [State.set_stage_self, Desk.look_of_holds hx]
    refine ⟨rfl, List.forall_mem_append.mpr ⟨fun m hm heq => hcourse m hm ?_, by simp⟩⟩
    rw [heq]
    rfl

/-- **What an interleaving keeps, each of its steps keeps.** -/
lemma Kept.step (h : Kept asked ttl moves s) (hstep : Step asked s e s') :
    Kept asked ttl (moves ++ [⟨s, e, s'⟩]) s' := by
  obtain ⟨hclock, htime, hcache⟩ := hstep.desk h.clock
  have hstays {c : ι} {v : Verdict} (hc : s.stage c = .ended v) :
      e.call? ≠ some c ∧ s'.stage c = .ended v := by
    have hne : e.call? ≠ some c := fun heq => hstep.not_ended heq v hc
    exact ⟨hne, (hstep.stage_of_ne hne).trans hc⟩
  refine ⟨htime.trans h.time, Double.le_right hclock, fun k x hx => h.origin_of_step hstep hx,
    fun c => ?_, List.forall_mem_append.mpr ⟨fun m hm => ?_, List.forall_mem_singleton.mpr ?_⟩,
    List.forall_mem_append.mpr ⟨fun m hm c x hlook hx => ?_,
      List.forall_mem_singleton.mpr fun c x hlook hx => ?_⟩⟩
  · by_cases hc : e.call? = some c
    · exact h.course_of_step hstep hc
    · rw [hstep.stage_of_ne hc]
      exact (h.course c).snoc hc
  · exact (h.writers m hm).imp_right fun ⟨c, a, heq, hc⟩ => ⟨c, a, heq, (hstays hc).2⟩
  · exact hcache.imp_right fun ⟨c, _, a, hwrites⟩ => ⟨c, a, hwrites.event, hwrites.after⟩
  · obtain ⟨hc, hask⟩ := h.found m hm c x hlook hx
    refine ⟨(hstays hc).2, List.forall_mem_append.mpr ⟨hask, List.forall_mem_singleton.mpr ?_⟩⟩
    rintro rfl
    exact (hstays hc).1 rfl
  · obtain rfl : e = .look c := hlook
    exact h.found_of_step hstep hx

lemma Run.kept {t : Double} (ht : Double.le t t = true)
    (hrun : Run asked (.start ttl t) moves s) : Kept asked ttl moves s := by
  induction hrun with
  | nil => exact kept_start asked ttl ht
  | snoc hrun hstep ih => exact ih.step hstep

/-- **Calls that share a cache are never mixed up.** However the steps of any calls are interleaved,
if the digest tells the payloads of what they ask apart:

* an answer that a call gives was given to it by the judge behind it, or else to another call for
  the same inquiry (`Inquiry.Same`), which wrote it to the cache before this call looked there, and
  no longer before than is remembered;
* no step of a call that gives no answer adds anything to the cache;
* a call that looks while an entry for its inquiry is there, and not too old, gives the answer in
  that, and never asks the judge behind it. -/
theorem calls_kept_apart {t : Double} (hkeys : ∀ c, (asked c).value.KeysDiffer)
    (hdigest : ∀ c d x y, (asked c).payload = .ok x → (asked d).payload = .ok y →
      Digest.ofText x = Digest.ofText y → x = y)
    (ht : Double.le t t = true) (hrun : Run asked (.start ttl t) moves s) :
    (∀ c r, s.stage c = .ended (.answer r) → (∃ m ∈ moves, m.event = .judge c (.answer r)) ∨
      ∃ d a answering writing reading, (asked d).Same (asked c) ∧
        Recalls asked ttl moves c r d a answering writing reading) ∧
    (∀ c v, s.stage c = .ended v → (∀ a, v ≠ .answer a) → ∀ m ∈ moves, m.event.call? = some c →
      m.after.desk.cache.entries ⊆ m.before.desk.cache.entries) ∧
    (∀ c x, ∀ m ∈ moves, m.event = .look c → m.before.desk.Holds (asked c) x →
      s.stage c = .ended (.answer (.bool x.result)) ∧ ∀ m' ∈ moves, m'.event ≠ .ask c) := by
  have h := hrun.kept ht
  refine ⟨fun c r hc => ?_, fun c v hc hv m hm hcall => ?_, fun c x m hm => h.found m hm c x⟩
  · have hcourse := h.course c
    rw [hc] at hcourse
    rcases hcourse r rfl with hown | ⟨d, a, answering, writing, reading, hrecalls⟩
    · exact .inl hown
    · obtain ⟨k, hd, hc, -⟩ := hrecalls.writes
      have hsame := Inquiry.key_eq_ok_iff (hkeys d) (hkeys c) (hdigest d c)
        (Inquiry.payload_of_key hc).1 hd
      exact .inr ⟨d, a, answering, writing, reading, hsame.mp hc, hrecalls⟩
  · rcases h.writers m hm with hsub | ⟨d, a, heq, hd⟩
    · exact hsub
    · rw [heq] at hcall
      obtain rfl : d = c := Option.some.inj hcall
      exact absurd (Stage.ended.inj (hc.symm.trans hd)) (hv a)

end

/-- Two calls for one inquiry, written in two ways. -/
def sampleCalls : Bool → Inquiry
  | false => sampleInquiry
  | true => reorderedInquiry

lemma exists_payload_sampleCalls : ∃ x, ∀ c, (sampleCalls c).payload = .ok x := by
  obtain ⟨x, hx⟩ := (Inquiry.exists_payload_iff (i := sampleInquiry) rfl).mpr (by decide +kernel)
  refine ⟨x, fun c => ?_⟩
  cases c with
  | false => exact hx
  | true =>
    exact (Inquiry.payload_eq_ok_iff rfl rfl Inquiry.keysDiffer_sample
      Inquiry.keysDiffer_reordered hx).mpr Inquiry.same_reordered

def sampleStart : State Bool := .start (.ofInt 300) (.zero false)

/-- A yes was written at the start. -/
def sampleDesk (k : String) (now : Double) : Desk :=
  ⟨{ ttl := .ofInt 300, entries := [(k, ⟨true, .zero false⟩)] }, now⟩

/-- The first call comes to a yes, and the second looks ten seconds later. -/
lemma exists_run_sampleCalls : ∃ moves s, Run sampleCalls sampleStart moves s ∧
    s.stage true = .ended (.answer (.bool true)) ∧
      ∀ m ∈ moves, m.event ≠ .judge true (.answer (.bool true)) := by
  obtain ⟨x, hx⟩ := exists_payload_sampleCalls
  have hkey (c : Bool) : (sampleCalls c).key = .ok (Digest.ofText x) :=
    Inquiry.key_of_payload (by cases c <;> rfl) (hx c)
  generalize Digest.ofText x = k at hkey
  have hlook : Desk.look (sampleCalls false) sampleStart.desk = (.inr k, sampleStart.desk) :=
    Desk.look_of_key (hkey false) _
  have hask : Desk.ask ⟨fun _ _ => pure (.answer (.bool true))⟩ (sampleCalls false)
      sampleStart.desk = (.answer (.bool true), sampleDesk k (.zero false)) :=
    Desk.ask_of_key hlook
  obtain ⟨moves, hrun⟩ : ∃ moves, Run sampleCalls sampleStart moves (sampleStart.set false _ _) :=
    exists_run_ask rfl (by decide +kernel) ⟨fun _ _ => pure (.answer (.bool true))⟩
      (fun _ _ _ => rfl) (fun _ _ _ h => h)
  rw [hask] at hrun
  have hfresh := (hrun.kept (by decide +kernel)).course true
  have hholds : (sampleDesk k (.ofInt 10)).Holds (sampleCalls true) ⟨true, .zero false⟩ :=
    ⟨k, hkey true, by simp [sampleDesk], show TimeScale.lt (Double.ofInt 300)
      (TimeScale.sub (Double.ofInt 10) (.zero false)) = false by decide +kernel⟩
  have htick : Step sampleCalls (sampleStart.set false (.ended (.answer (.bool true)))
      (sampleDesk k (.zero false))) .tick (sampleStart.set false (.ended (.answer (.bool true)))
        (sampleDesk k (.ofInt 10))) :=
    .tick (show Double.le (.zero false) (.ofInt 10) = true by decide +kernel)
  have hrun := (hrun.snoc htick).snoc (.look (c := true) rfl)
  refine ⟨_, _, hrun, ?_, ?_⟩
  · rw [State.set_stage_self, State.set_desk, Desk.look_of_holds hholds]
    rfl
  · refine List.forall_mem_append.mpr ⟨List.forall_mem_append.mpr ⟨fun m hm heq => ?_, by simp⟩,
      by simp⟩
    exact hfresh m hm (by rw [heq]; rfl)

theorem calls_kept_apart_reordered : ∃ moves s, Run sampleCalls sampleStart moves s ∧
    s.stage true = .ended (.answer (.bool true)) ∧
      ∃ d a answering writing reading, (sampleCalls d).Same (sampleCalls true) ∧
        Recalls sampleCalls (.ofInt 300) moves true (.bool true) d a answering writing reading := by
  obtain ⟨moves, s, hrun, hstage, hnone⟩ := exists_run_sampleCalls
  obtain ⟨x, hx⟩ := exists_payload_sampleCalls
  have hsame (c : Bool) {y : String} (hy : (sampleCalls c).payload = .ok y) : y = x :=
    Except.ok.inj (hy.symm.trans (hx c))
  obtain ⟨hgiven, -, -⟩ := calls_kept_apart
    (fun c => by cases c; exacts [Inquiry.keysDiffer_sample, Inquiry.keysDiffer_reordered])
    (fun c d y z hy hz _ => (hsame c hy).trans (hsame d hz).symm) (by decide +kernel) hrun
  refine ⟨moves, s, hrun, hstage, (hgiven true _ hstage).resolve_left ?_⟩
  rintro ⟨m, hm, heq⟩
  exact hnone m hm heq

end Judgment

end Stencil
