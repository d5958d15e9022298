import Stencil.Proofs.Suite.Report
import Stencil.Proofs.Value.Written

/-!
The counters of a report in XML against its cases.

A report is read back as elements; those named `testcase`, wherever they are, are its cases
(`Item.cases`). Each test has one, with a failure or an error in it as its status says, and a suite
that could not be run has one of its own (`Outcome.cases_element`). The counters come from a summary
that was made before: they agree with the cases where that counts the tests (`IsCounted`), which is
so of every run (`run_timed`). Only the case of a suite that could not be run is in no total
(`run_cases`).
-/

namespace Stencil

/-! ### Elements -/

namespace Xml

mutual

/-- An element and all elements inside it. -/
def Item.elements : Item → List Item
  | .char _ => []
  | .element name attributes content => .element name attributes content :: elementsIn content

def elementsIn : List Item → List Item
  | [] => []
  | i :: is => i.elements ++ elementsIn is

end

namespace Item

def isNamed (name : String) : Item → Bool
  | .char _ => false
  | .element n _ _ => n == name

def attribute? (key : String) : Item → Option String
  | .char _ => none
  | .element _ attributes _ => attributes.lookup key

/-- There is an element of the name directly inside the element. -/
def hasChild (name : String) : Item → Bool
  | .char _ => false
  | .element _ _ content => content.any (isNamed name)

/-- The elements for cases, wherever they are. -/
def cases (root : Item) : List Item := root.elements.filter (isNamed "testcase")

end Item

lemma elementsIn_append (xs ys : List Item) :
    elementsIn (xs ++ ys) = elementsIn xs ++ elementsIn ys := by
  induction xs with
  | nil => rfl
  | cons x xs ih => rw [List.cons_append, elementsIn, elementsIn, ih, List.append_assoc]

lemma elementsIn_map_char (cs : List Char) : elementsIn (cs.map .char) = [] := by
  induction cs with
  | nil => rfl
  | cons c cs ih => exact ih

lemma any_isNamed_map_char (name : String) (cs : List Char) :
    (cs.map Item.char).any (Item.isNamed name) = false := by
  rw [List.any_map]
  exact List.any_eq_false.mpr fun _ _ => nofun

end Xml

namespace Suite

open Xml (Item)

variable {σ : Type}

/-! ### The element of an outcome -/

lemma elementsIn_onLines (indent last : String) (items : List Item) :
    Xml.elementsIn (onLines indent items last) = Xml.elementsIn items := by
  have hitems : Xml.elementsIn (items.flatMap fun i => chars ("\n" ++ indent) ++ [i]) =
      Xml.elementsIn items := by
    induction items with
    | nil => rfl
    | cons i is ih =>
      rw [List.flatMap_cons, Xml.elementsIn_append, Xml.elementsIn_append, ih, chars,
        Xml.elementsIn_map_char]
      simp [Xml.elementsIn]
  rw [onLines, Xml.elementsIn_append, hitems, chars, Xml.elementsIn_map_char, List.append_nil]

lemma any_isNamed_onLines (name indent last : String) (items : List Item) :
    (onLines indent items last).any (Item.isNamed name) = items.any (Item.isNamed name) := by
  have hitems : (items.flatMap fun i => chars ("\n" ++ indent) ++ [i]).any (Item.isNamed name) =
      items.any (Item.isNamed name) := by
    induction items with
    | nil => rfl
    | cons i is ih =>
      rw [List.flatMap_cons, List.any_append, List.any_append, ih, chars,
        Xml.any_isNamed_map_char, List.any_cons]
      simp
  rw [onLines, List.any_append, hitems, chars, Xml.any_isNamed_map_char, Bool.or_false]

lemma TestResult.hasChild_failure (t : TestResult) :
    t.element.hasChild "failure" = (t.status == .fail) := by
  rw [element, Item.hasChild, any_isNamed_onLines, problems]
  cases t.status <;> rfl

lemma TestResult.hasChild_error (t : TestResult) :
    t.element.hasChild "error" = (t.status == .error) := by
  rw [element, Item.hasChild, any_isNamed_onLines, problems]
  cases t.status <;> rfl

/-- There is no case among elements that hold only characters. -/
lemma filter_elementsIn_data {name : String} (h : name ≠ "testcase") (as : List (String × String))
    (s : String) : (Xml.elementsIn [.element name as (Xml.data s)]).filter
      (Item.isNamed "testcase") = [] := by
  simp [Xml.elementsIn, Item.elements, Xml.data, Xml.elementsIn_map_char, Item.isNamed, h]

/-- A test's element is one case, with no other inside. -/
lemma TestResult.cases_element (t : TestResult) : t.element.cases = [t.element] := by
  have hproblems : (Xml.elementsIn t.problems).filter (Item.isNamed "testcase") = [] := by
    unfold problems
    cases t.status with
    | pass => rfl
    | fail => exact filter_elementsIn_data (by decide) _ _
    | error => exact filter_elementsIn_data (by decide) _ _
  rw [element, Item.cases, Item.elements, List.filter_cons_of_pos (by rfl), elementsIn_onLines,
    hproblems]

/-- The case for a suite that could not be run is one, with an error in it. -/
lemma errorCases_cases {o : Outcome} {c : Item} (h : c ∈ o.errorCases) :
    c.cases = [c] ∧ c.hasChild "failure" = false ∧ c.hasChild "error" = true := by
  obtain ⟨e, -, rfl⟩ := List.mem_map.mp h
  refine ⟨?_, ?_, ?_⟩
  · have herror : (Xml.elementsIn [errorItem e]).filter (Item.isNamed "testcase") = [] :=
      filter_elementsIn_data (by decide) _ _
    rw [Item.cases, Item.elements, List.filter_cons_of_pos (by rfl), elementsIn_onLines, herror]
  · rw [Item.hasChild, any_isNamed_onLines]
    rfl
  · rw [Item.hasChild, any_isNamed_onLines]
    rfl

lemma filter_elementsIn {items : List Item} (h : ∀ i ∈ items, i.cases = [i]) :
    (Xml.elementsIn items).filter (Item.isNamed "testcase") = items := by
  induction items with
  | nil => rfl
  | cons i is ih =>
    obtain ⟨hi, his⟩ := List.forall_mem_cons.mp h
    rw [Xml.elementsIn, List.filter_append, ← Item.cases, hi, ih his, List.singleton_append]

lemma Outcome.cases_element (o : Outcome) :
    o.element.cases = o.errorCases ++ o.tests.map TestResult.element := by
  rw [element, Item.cases, Item.elements, List.filter_cons_of_neg (by simp [Item.isNamed]),
    elementsIn_onLines]
  refine filter_elementsIn fun i hi => ?_
  rcases List.mem_append.mp hi with hi | hi
  · exact (errorCases_cases hi).1
  · obtain ⟨t, -, rfl⟩ := List.mem_map.mp hi
    exact t.cases_element

/-- What an outcome must be like for the counters of its report: its summary counts its tests. -/
structure Outcome.IsCounted (o : Outcome) : Prop where
  total : o.summary.total = o.tests.length
  failed : o.summary.failed = o.tests.countP (·.status == .fail)
  errored : o.summary.errored = o.tests.countP (·.status == .error)

lemma Outcome.IsCounted.failures {o : Outcome} (h : o.IsCounted) :
    o.element.cases.countP (·.hasChild "failure") = o.summary.failed := by
  have herror : o.errorCases.countP (·.hasChild "failure") = 0 :=
    List.countP_eq_zero.mpr fun c hc => by simp [(errorCases_cases hc).2.1]
  rw [o.cases_element, List.countP_append, herror, List.countP_map, h.failed, Nat.zero_add]
  exact List.countP_congr fun t _ => by simp [t.hasChild_failure]

lemma Outcome.IsCounted.errors {o : Outcome} (h : o.IsCounted) :
    o.element.cases.countP (·.hasChild "error") = o.summary.errored + o.errorCases.length := by
  have herror : o.errorCases.countP (·.hasChild "error") = o.errorCases.length :=
    List.countP_eq_length.mpr fun c hc => (errorCases_cases hc).2.2
  rw [o.cases_element, List.countP_append, herror, List.countP_map, h.errored, Nat.add_comm]
  congr 1
  exact List.countP_congr fun t _ => by simp [t.hasChild_error]

lemma Outcome.not_failure_and_error {o : Outcome} {c : Item} (h : c ∈ o.element.cases) :
    ¬ (c.hasChild "failure" = true ∧ c.hasChild "error" = true) := by
  rw [o.cases_element] at h
  rcases List.mem_append.mp h with h | h
  · simp [(errorCases_cases h).2.1]
  · obtain ⟨t, -, rfl⟩ := List.mem_map.mp h
    rw [t.hasChild_failure, t.hasChild_error]
    cases t.status <;> decide

/-! ### The findings of a run -/

lemma operator_findingOf (operator : String) (check : Check) :
    (findingOf operator check).operator = operator := by
  cases check <;> rfl

/-- An expectation that fails has an operator; without one it is an error. -/
lemma Assertion.isNamed_of_check {a : Assertion} {s : Subject σ} {w : σ} {f : Finding}
    (h : (a.check s w).1 = some f) : f.status = .fail → f.IsNamed := by
  unfold Assertion.check at h
  cases hop : Operator.ofWord? a.operator with
  | none =>
    rw [hop] at h
    obtain rfl := Option.some.inj h
    exact nofun
  | some op =>
    rw [hop] at h
    obtain ⟨check, -, rfl⟩ := Option.map_eq_some_iff.mp h
    exact fun _ => .inl (by rw [operator_findingOf, hop]; rfl)

lemma isNamed_of_checkAll {s : Subject σ} {as : List Assertion} {w : σ} {fs : List Finding}
    (h : (checkAll s as w).1 = some fs) : ∀ f ∈ fs, f.status = .fail → f.IsNamed := by
  induction as generalizing w fs with
  | nil =>
    obtain rfl := Option.some.inj h
    exact nofun
  | cons a as ih =>
    rw [checkAll, StateM.bind_apply] at h
    rcases hcheck : a.check s w with ⟨_ | f, w₁⟩
    · rw [hcheck] at h
      cases h
    · rw [hcheck] at h
      obtain ⟨gs, hgs, rfl⟩ := Option.map_eq_some_iff.mp h
      exact List.forall_mem_cons.mpr
        ⟨Assertion.isNamed_of_check (congrArg Prod.fst hcheck), ih hgs⟩

namespace Run

variable {r : Run σ} {t : Test} {c c' : Dataset.Shelf × σ}

lemma isNamed_of_check {s : Subject σ} {as : List Assertion} {fs : List Finding}
    (h : comesTo (check s as) c = (.ok fs, c')) : ∀ f ∈ fs, f.status = .fail → f.IsNamed := by
  rw [comesTo_check] at h
  rcases hcheck : checkAll s as c.2 with ⟨_ | gs, w⟩
  · rw [hcheck] at h
    cases h
  · rw [hcheck] at h
    obtain ⟨rfl, -⟩ := result_inj h
    exact isNamed_of_checkAll (congrArg Prod.fst hcheck)

lemma isNamed_of_completion {as : List Assertion} {text : String} {fs : List Finding}
    {done : Option String} (h : comesTo (r.completion t as text) c = (.ok (fs, done), c')) :
    ∀ f ∈ fs, f.status = .fail → f.IsNamed := by
  unfold completion at h
  cases hp : r.bench.provider with
  | none =>
    rw [hp] at h
    obtain ⟨rfl, -⟩ := Prod.mk.inj (result_inj h).1
    exact List.forall_mem_singleton.mpr nofun
  | some p =>
    rw [hp] at h
    obtain ⟨x, c₁, hx, h⟩ := comesTo_bind_ok.mp h
    rcases comesTo_complete r p text c with ⟨a, w, -, hcomplete⟩ | ⟨-, hfailed⟩
    · obtain ⟨rfl, rfl⟩ := result_inj (hx.symm.trans hcomplete)
      obtain ⟨u, c₂, -, h⟩ := comesTo_bind_ok.mp h
      obtain ⟨gs, c₃, hcheck, h⟩ := comesTo_bind_ok.mp h
      obtain ⟨rfl, -⟩ := Prod.mk.inj (result_inj h).1
      exact isNamed_of_check hcheck
    · obtain ⟨f, rfl, hf⟩ := hfailed x c₁ hx
      obtain ⟨gs, c₂, hcheck, h⟩ := comesTo_bind_ok.mp h
      obtain ⟨rfl, -⟩ := Prod.mk.inj (result_inj h).1
      refine List.forall_mem_cons.mpr ⟨fun hfail => ?_, isNamed_of_check hcheck⟩
      rw [hf] at hfail
      cases hfail

lemma isNamed_of_completionFor {text : String} {second : List Finding × Option String}
    (h : comesTo (r.completionFor t text) c = (.ok second, c')) :
    ∀ f ∈ second.1, f.status = .fail → f.IsNamed := by
  unfold completionFor at h
  split at h
  · obtain ⟨rfl, -⟩ := result_inj h
    exact nofun
  · exact isNamed_of_completion h

/-- The failures in the result of a test have operators. -/
lemma namesFailures_of_test {tr : TestResult} (h : comesTo (r.test t) c = (.ok tr, c')) :
    tr.NamesFailures := by
  rw [comesTo_test] at h
  rcases hsteps : comesTo (r.steps t) c with ⟨f | tr', c₁⟩
  · rw [hsteps] at h
    cases f with
    | endless => cases h
    | _ =>
      obtain ⟨rfl, -⟩ := result_inj h
      exact nofun
  · rw [hsteps] at h
    obtain ⟨rfl, -⟩ := result_inj h
    rw [steps_eq] at hsteps
    obtain ⟨_, _, -, hrun⟩ := comesTo_bind_ok.mp hsteps
    obtain ⟨_, _, -, hrun⟩ := comesTo_bind_ok.mp hrun
    obtain ⟨_, _, -, hrun⟩ := comesTo_bind_ok.mp hrun
    obtain ⟨first, _, hfirst, hrun⟩ := comesTo_bind_ok.mp hrun
    obtain ⟨second, _, hsecond, hrun⟩ := comesTo_bind_ok.mp hrun
    obtain ⟨rfl, -⟩ := result_inj hrun
    exact List.forall_mem_append.mpr ⟨isNamed_of_check hfirst, isNamed_of_completionFor hsecond⟩

lemma namesFailures_of_tests {ts : List Test} {trs : List TestResult}
    (h : comesTo (r.tests ts) c = (.ok trs, c')) : ∀ tr ∈ trs, tr.NamesFailures := by
  induction ts generalizing c c' trs with
  | nil =>
    obtain ⟨rfl, -⟩ := result_inj h
    exact nofun
  | cons t ts ih =>
    obtain ⟨tr, c₁, htr, h⟩ := comesTo_bind_ok.mp h
    obtain ⟨us, c₂, hus, h⟩ := comesTo_bind_ok.mp h
    obtain ⟨rfl, -⟩ := result_inj h
    exact List.forall_mem_cons.mpr ⟨namesFailures_of_test htr, ih hus⟩

end Run

/-! ### The outcome of a run -/

/-- What a run comes to: the suite could not be run at all, or its tests have results. -/
lemma outcome_of_run {b : Bench σ} {o : RunOptions} {path : String} {s : Suite} {w w' : σ}
    {outcome : Outcome} (h : run b o path s w = (.ok outcome, w')) :
    (∃ e, e ≠ "" ∧ outcome = .failed s.name e 0) ∨
      ∃ ts, (∀ t ∈ ts, t.NamesFailures) ∧ outcome = .ofTests s.name ts 0 := by
  rw [run_eq_match] at h
  split at h
  · cases h
  · obtain ⟨rfl, -⟩ := result_inj h
    exact .inl ⟨_, by simp, rfl⟩
  · rename_i template _
    split at h
    · cases h
    · dsimp only at h
      rcases hran : comesTo ((b.runOf o path s template w).tests (selected o.filter s.tests))
          ({ directory := (promptDirectory b.workingDirectory path).text }, (b.ready w).2) with
        ⟨f | trs, shelf, w₁⟩
      · rw [hran] at h
        cases h
      · rw [hran] at h
        obtain ⟨rfl, -⟩ := result_inj h
        exact .inr ⟨trs, Run.namesFailures_of_tests hran, rfl⟩

/-- The outcome before times were measured. -/
def TestResult.untimed (t : TestResult) : TestResult := { t with milliseconds := 0 }

def Outcome.untimed (o : Outcome) : Outcome :=
  { o with
    tests := o.tests.map TestResult.untimed
    summary := { o.summary with milliseconds := 0 } }

lemma countP_untimed (p : Status → Bool) (ts : List TestResult) :
    (ts.map TestResult.untimed).countP (fun t => p t.status) = ts.countP fun t => p t.status := by
  rw [List.countP_map]
  rfl

/-- What a run comes to, whatever times are measured: tests are counted, failures have operators,
and a suite that could not be run says why. -/
lemma run_timed {b : Bench σ} {o : RunOptions} {path : String} {s : Suite} {w w' : σ}
    {outcome : Outcome} (h : run b o path s w = (.ok outcome.untimed, w')) :
    outcome.IsCounted ∧ (∀ t ∈ outcome.tests, t.NamesFailures) ∧
      outcome.errorCases.length = if outcome.error.isSome then 1 else 0 := by
  obtain ⟨name, status, tests, ⟨total, passed, failed, errored, ms⟩, error⟩ := outcome
  rcases outcome_of_run h with ⟨e, he, houtcome⟩ | ⟨ts, hnamed, houtcome⟩
  · obtain ⟨-, -, htests, hsummary, rfl⟩ := Outcome.mk.inj houtcome
    obtain ⟨rfl, rfl, rfl, rfl, -⟩ := Summary.mk.inj hsummary
    obtain rfl := List.map_eq_nil_iff.mp htests
    have hgiven : given? (some e) = some e := by simp [given?, he]
    exact ⟨⟨rfl, rfl, rfl⟩, nofun, by rw [Outcome.errorCases, hgiven]; rfl⟩
  · obtain ⟨-, -, htests, hsummary, rfl⟩ := Outcome.mk.inj houtcome
    have htests : tests.map TestResult.untimed = ts := htests
    subst htests
    obtain ⟨rfl, rfl, rfl, rfl, -⟩ := Summary.mk.inj hsummary
    refine ⟨⟨List.length_map _, countP_untimed (· == .fail) tests,
      countP_untimed (· == .error) tests⟩, fun t ht => ?_, rfl⟩
    exact hnamed t.untimed (List.mem_map_of_mem ht)

/-- **The counters of a report match its cases**, but that no test counts the case for a suite that
could not be run. -/
theorem run_cases {b : Bench σ} {o : RunOptions} {path : String} {s : Suite} {w w' : σ}
    {outcome : Outcome} (h : run b o path s w = (.ok outcome.untimed, w'))
    (htimes : ∀ ms ∈ outcome.times, ms.natAbs < limitMilliseconds) :
    ∃ text root tests, outcome.junit = .ok text ∧ Xml.tree text = some root ∧
      root.isNamed "testsuite" = true ∧
      root.attribute? "tests" = some (Number.natText tests) ∧
      root.cases.length = tests + (if outcome.error.isSome then 1 else 0) ∧
      root.attribute? "failures" =
        some (Number.natText (root.cases.countP (·.hasChild "failure"))) ∧
      root.attribute? "errors" = some (Number.natText (root.cases.countP (·.hasChild "error"))) ∧
      ∀ c ∈ root.cases, ¬ (c.hasChild "failure" = true ∧ c.hasChild "error" = true) := by
  obtain ⟨hcounted, hnamed, herror⟩ := run_timed h
  obtain ⟨text, hjunit⟩ := (junit_isOk_iff outcome).mpr htimes
  refine ⟨text, outcome.element, outcome.summary.total, hjunit, tree_junit hnamed hjunit, rfl, rfl,
    ?_, ?_, ?_, fun c hc => Outcome.not_failure_and_error hc⟩
  · rw [outcome.cases_element, List.length_append, List.length_map, hcounted.total, herror,
      Nat.add_comm]
  · rw [hcounted.failures]
    rfl
  · rw [hcounted.errors]
    rfl

/-- A greeting on a disk, and nothing else. -/
def greetingBench : Bench Unit :=
  let memory : Judgment.Memory Unit :=
    ⟨fun _ => ⟨.zero false, []⟩, fun _ w => w, fun _ => .zero false⟩
  { store := fun _ => ⟨fun _ => pure (.ok [])⟩
    memories := { own := memory, shared := memory }
    spare := memory
    disk :=
      ⟨fun _ => { entries := [⟨["p", "prompt.echo"], Files.Tree.encode "Hello"⟩] }, fun _ w => w⟩
    workingDirectory := []
    time := "" }

/-- One test that passes, one that fails, and one whose expectation cannot be checked. -/
def mixedSuite : Suite where
  name := "greetings"
  config := {}
  tests :=
    let expects (name : String) (a : Assertion) : Test :=
      ⟨name, some [], none, none, some [a], none⟩
    [expects "greets" ⟨"contains", .text "Hello"⟩, expects "leaves" ⟨"contains", .text "Bye"⟩,
     expects "is kind" ⟨"llm_judge", .text "Is it kind?"⟩]

def mixedOutcome : Outcome :=
  .ofTests "greetings"
    [{ name := "greets"
       status := .pass
       findings := [⟨"contains", .pass, "Hello", none, none⟩]
       milliseconds := 2
       rendered := "Hello" },
     { name := "leaves"
       status := .fail
       findings := [⟨"contains", .fail, "Bye", "Hello", "Expected output to contain \"Bye\""⟩]
       milliseconds := 3
       rendered := "Hello" },
     { name := "is kind"
       status := .error
       findings := [⟨"llm_judge", .error, none, none,
         "AI provider not configured; cannot run llm_judge assertion"⟩]
       milliseconds := 5
       rendered := "Hello" }] 11

/-- The three cases of the suite are counted, one of them as failed and one as an error. -/
theorem run_cases_mixed :
    run greetingBench {} "p/eval/tests/a.eval" mixedSuite () = (.ok mixedOutcome.untimed, ()) ∧
    ∃ text root tests, mixedOutcome.junit = .ok text ∧ Xml.tree text = some root ∧
      root.isNamed "testsuite" = true ∧
      root.attribute? "tests" = some (Number.natText tests) ∧
      root.cases.length = tests + 0 ∧
      root.attribute? "failures" =
        some (Number.natText (root.cases.countP (·.hasChild "failure"))) ∧
      root.attribute? "errors" = some (Number.natText (root.cases.countP (·.hasChild "error"))) ∧
      ∀ c ∈ root.cases, ¬ (c.hasChild "failure" = true ∧ c.hasChild "error" = true) := by
  have hrun : (run greetingBench {} "p/eval/tests/a.eval" mixedSuite ()).run =
      (.ok mixedOutcome.untimed, ()) := by
    decide +kernel
  exact ⟨hrun, run_cases hrun (by decide +kernel)⟩

end Suite

end Stencil
