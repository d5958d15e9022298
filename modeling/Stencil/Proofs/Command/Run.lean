import Stencil.Proofs.Command.Launch
import Stencil.Proofs.Suite.Run

/-!
The exit code of the command that runs suites.

The code is zero exactly if every file found holds a suite that passes, each in the state that the
one before it left (`exitCode_eq_zero_iff`): no failure is lost between an expectation and the end
of the program.
-/

namespace Stencil.Command

open Suite

variable {σ α : Type}

/-! ### Writing -/

namespace OnlyWrites

lemma printLine (s : String) : OnlyWrites (printLine s : Act σ Unit) := write _

lemma showRan {reporter : Reporter} {shown : String} {ran : Ran}
    (h : ∀ o, ran = .ok o → ∃ text, o.report reporter = .ok text) :
    OnlyWrites (showRan reporter shown ran : Act σ Unit) := by
  cases ran with
  | error m => exact writeError _
  | ok o =>
    obtain ⟨text, htext⟩ := h o rfl
    intro c
    unfold Command.showRan
    dsimp only
    rw [htext, comesTo_bind]
    show ∃ screen, comesTo (if (reporter == Reporter.console) = true then _ else _) c = _
    split
    · exact bind (printLine _) (write _) c
    · exact write _ c

lemma showSummary (outcomes : List Outcome) : OnlyWrites (showSummary outcomes : Act σ Unit) :=
  bind (printLine _) (bind (printLine _) (printLine _))

end OnlyWrites

/-! ### Running the files -/

/-- Files pass in turn, each in the state that the one before it left. -/
inductive FilesPass (b : Bench σ) (o : RunOptions) : List String → σ → σ → Prop
  | nil {w : σ} : FilesPass b o [] w w
  | cons {path : String} {paths : List String} {w w₁ w₂ : σ} (first : FilePasses b o path w w₁)
    (rest : FilesPass b o paths w₁ w₂) : FilesPass b o (path :: paths) w w₂

/-- What running the file of a suite comes to, with those behind it. -/
lemma comesTo_runSuites_cons (b : Bench σ) (o : RunOptions) (path : String) (paths : List String)
    (c : Screen × σ) :
    comesTo (runSuites b o (path :: paths)) c = match Suite.runFile b o path c.2 with
      | (.ok outcome, w) =>
        comesTo (do return (path, .ok outcome) :: (← runSuites b o paths)) (c.1, w)
      | (.error (.error e), w) =>
        comesTo (do return (path, .error e.message) :: (← runSuites b o paths)) (c.1, w)
      | (.error f, w) => (.error (.failed f), c.1, w) := by
  rw [runSuites, comesTo_bind, comesTo_within]
  dsimp only
  rcases Suite.runFile b o path c.2 with ⟨f | outcome, w⟩
  · cases f <;> rfl
  · rfl

/-- The runs of files are all passed exactly if the files pass. -/
lemma runSuites_pass_iff {b : Bench σ} {o : RunOptions} {paths : List String} {w w' : σ}
    (screen : Screen) (hload : ∀ w, (b.ready w).1.2 = .ok ()) :
    (∃ all screen', comesTo (runSuites b o paths) (screen, w) = (.ok all, screen', w') ∧
      ∀ e ∈ all, Ran.passed e.2 = true) ↔ FilesPass b o paths w w' := by
  induction paths generalizing w with
  | nil =>
    constructor
    · rintro ⟨all, screen', h, -⟩
      obtain ⟨-, rfl⟩ := Prod.mk.inj (Prod.mk.inj h).2
      exact .nil
    · rintro ⟨⟩
      exact ⟨[], screen, rfl, nofun⟩
  | cons path paths ih =>
    rw [comesTo_runSuites_cons]
    constructor
    · rintro ⟨all, screen', h, hpass⟩
      rcases hrun : Suite.runFile b o path w with ⟨f | outcome, w₁⟩
      · rw [hrun] at h
        cases f with
        | error e =>
          obtain ⟨ran, c₁, -, h⟩ := comesTo_bind_ok.mp h
          obtain ⟨rfl, -⟩ := result_inj h
          cases hpass _ List.mem_cons_self
        | _ => cases h
      · rw [hrun] at h
        obtain ⟨ran, c₁, hran, h⟩ := comesTo_bind_ok.mp h
        obtain ⟨hall, hc⟩ := Prod.mk.inj h
        obtain rfl := Except.ok.inj hall
        obtain rfl : c₁ = (screen', w') := hc
        obtain ⟨hfirst, hrest⟩ := List.forall_mem_cons.mp hpass
        exact .cons ((runFile_passes_iff (hload w)).mp ⟨outcome, hrun, eq_of_beq hfirst⟩)
          (ih.mp ⟨ran, _, hran, hrest⟩)
    · rintro (_ | ⟨first, rest⟩)
      obtain ⟨outcome, hrun, hfirst⟩ := (runFile_passes_iff (hload w)).mpr first
      obtain ⟨ran, screen', hran, hrest⟩ := ih.mpr rest
      rw [hrun]
      refine ⟨(path, .ok outcome) :: ran, screen', ?_, List.forall_mem_cons.mpr
        ⟨beq_iff_eq.mpr hfirst, hrest⟩⟩
      exact comesTo_bind_ok.mpr ⟨ran, _, hran, rfl⟩

/-- A run of files ends with an outcome or a message for each that was run. -/
lemma exists_outcome_of_runSuites {b : Bench σ} {o : RunOptions} {paths : List String}
    {c c' : Screen × σ} {all : List (String × Ran)}
    (h : comesTo (runSuites b o paths) c = (.ok all, c')) {path : String} {outcome : Outcome}
    (hmem : (path, .ok outcome) ∈ all) : ∃ w, (Suite.runFile b o path w).1 = .ok outcome := by
  induction paths generalizing c c' all with
  | nil =>
    obtain ⟨rfl, -⟩ := result_inj h
    cases hmem
  | cons p ps ih =>
    rw [comesTo_runSuites_cons] at h
    rcases hrun : Suite.runFile b o p c.2 with ⟨f | outcome', w⟩
    · rw [hrun] at h
      cases f with
      | error e =>
        obtain ⟨ran, c₁, hran, h⟩ := comesTo_bind_ok.mp h
        obtain ⟨rfl, -⟩ := result_inj h
        rcases List.mem_cons.mp hmem with heq | hmem
        · cases heq
        · exact ih hran hmem
      | _ => cases h
    · rw [hrun] at h
      obtain ⟨ran, c₁, hran, h⟩ := comesTo_bind_ok.mp h
      obtain ⟨rfl, -⟩ := result_inj h
      rcases List.mem_cons.mp hmem with heq | hmem
      · obtain ⟨rfl, houtcome⟩ := Prod.mk.inj heq
        exact ⟨c.2, by rw [hrun, Except.ok.inj houtcome]⟩
      · exact ih hran hmem

/-! ### The end of the command -/

lemma exitCode_conclude {h : Host σ} {reporter : Reporter} {options : RunOptions}
    {all : List (String × Ran)} {c : Screen × σ} {screen : Screen}
    (hprint : ∀ path outcome, (path, .ok outcome) ∈ all →
      ∃ text, outcome.report reporter = .ok text) :
    (endingOf (comesTo (conclude h reporter options all) c).1 screen).exitCode =
      if all.all fun e => Ran.passed e.2 then succeeded else failedCode := by
  have hshow : OnlyWrites (all.forM fun e =>
      showRan reporter (shownPath h.workingDirectory e.1) e.2 : Act σ Unit) :=
    .forM fun e he => .showRan fun o ho => hprint e.1 o (ho ▸ he)
  obtain ⟨screen₁, hshow⟩ := hshow.exists_comesTo _ c
  rw [conclude, hshow]
  dsimp only
  obtain ⟨screen₂, hsummary⟩ := (OnlyWrites.whenever (OnlyWrites.showSummary _)).exists_comesTo _ _
  rw [hsummary]
  obtain ⟨screen₃, hrecorded⟩ := (OnlyWrites.whenever (OnlyWrites.printLine _)).exists_comesTo _ _
  rw [hrecorded]
  cases all.all fun e => Ran.passed e.2 <;> rfl

/-! ### The call of the command -/

/-- A call of the command that runs suites, with arguments that can be read, and a completion
service and plugins that can be imported. -/
structure Call (h : Host σ) (args : List String) (w : σ) extends Launch h args w "eval" where
  parsed : Parsed
  reporter : Reporter
  files : List String
  provider : Option (Completion.Provider σ)
  plugins : List (Plugin σ)
  parsed_read : readArguments runForm.known true rest = .ok parsed
  parsed_plain : parsed.has Form.helpSwitch.name = false
  parsed_words : parsed.words.drop 1 = []
  reporter_known : reporterOf parsed = .ok reporter
  files_found : findSuites (h.disk.read w) h.workingDirectory parsed.words.head? = .ok files
  provider_imported : providerOf h parsed = .ok provider
  plugins_imported : pluginsOf h parsed = .ok plugins

namespace Call

variable {h : Host σ} {args : List String} {w : σ}

/-- What is asked of the runs. -/
def options (c : Call h args w) : RunOptions := optionsOf c.session c.parsed

/-- What the suites are run with. -/
def bench (c : Call h args w) : Bench σ := benchOf h c.settings c.provider c.plugins

lemma comesTo_runFiles (c : Call h args w) (screen : Screen) :
    comesTo (runFiles h c.session c.rest) (screen, w) =
      comesTo (if c.files.isEmpty then do
          printLine "No .eval files found."
          printLine (tagged "dim" "Create one in eval/tests/ within a prompt directory.")
        else runFound h c.session c.parsed c.reporter c.files) (screen, w) := by
  simp only [runFiles, Form.read_eq_pure c.parsed_read, Form.helpIfAsked_eq_pure c.parsed_plain,
    c.reporter_known, Form.require_ok, c.parsed_words, Form.noMore_nil, pure_bind]
  rw [comesTo_bind, comesTo_tree]
  dsimp only
  rw [c.files_found, Form.require_ok, pure_bind]

lemma exists_comesTo_runFound (c : Call h args w) (screen : Screen) :
    ∃ screen', comesTo (runFound h c.session c.parsed c.reporter c.files) (screen, w) =
      comesTo (runSuites c.bench c.options c.files >>= conclude h c.reporter c.options)
        (screen', w) := by
  rw [runFound, c.provider_imported, c.plugins_imported]
  exact (OnlyWrites.whenever (OnlyWrites.printLine _)).exists_comesTo _ _

end Call

lemma stop_of_runSuites {b : Bench σ} {o : RunOptions} {paths : List String} {c c' : Screen × σ}
    {stop : Stop} (h : comesTo (runSuites b o paths) c = (.error stop, c')) :
    ∃ f, stop = .failed f := by
  induction paths generalizing c c' with
  | nil => cases h
  | cons path paths ih =>
    have hrest {ran : Ran} {w : σ} (h : comesTo (do
        return (path, ran) :: (← runSuites b o paths)) (c.1, w) = (.error stop, c')) :
        ∃ f, stop = .failed f := by
      rw [comesTo_bind] at h
      rcases hran : comesTo (runSuites b o paths) (c.1, w) with ⟨stop' | all, c₁⟩
      · rw [hran] at h
        obtain rfl := Except.error.inj (Prod.mk.inj h).1
        exact ih hran
      · rw [hran] at h
        cases h
    rw [comesTo_runSuites_cons] at h
    rcases hrun : Suite.runFile b o path c.2 with ⟨f | outcome, w⟩
    · rw [hrun] at h
      cases f with
      | error e => exact hrest h
      | _ => exact ⟨_, (Except.error.inj (Prod.mk.inj h).1).symm⟩
    · rw [hrun] at h
      exact hrest h

variable {h : Host σ} {args : List String} {w : σ}

/-- The code of the files that were found, run and shown. -/
lemma exitCode_runFound {c : Call h args w} {screen shown : Screen}
    (hload : ∀ w, (c.bench.ready w).1.2 = .ok ())
    (hprint : ∀ path w outcome, (runFile c.bench c.options path w).1 = .ok outcome →
      ∃ text, outcome.report c.reporter = .ok text) :
    (endingOf (comesTo (runFound h c.session c.parsed c.reporter c.files) (screen, w)).1
        shown).exitCode = 0 ↔
      ∃ w', FilesPass c.bench c.options c.files w w' := by
  obtain ⟨screen', hfound⟩ := c.exists_comesTo_runFound screen
  rw [hfound, comesTo_bind]
  rcases hruns : comesTo (runSuites c.bench c.options c.files) (screen', w) with
    ⟨stop | all, screen'', w'⟩
  · obtain ⟨f, rfl⟩ := stop_of_runSuites hruns
    refine iff_of_false nofun ?_
    rintro ⟨w', hpass⟩
    obtain ⟨all, _, hall, -⟩ := (runSuites_pass_iff screen' hload).mpr hpass
    cases hruns.symm.trans hall
  · dsimp only
    rw [exitCode_conclude fun path outcome hmem =>
      (exists_outcome_of_runSuites hruns hmem).elim fun w hw => hprint path w outcome hw]
    constructor
    · intro hcode
      split_ifs at hcode with hall
      · have hpassed : ∀ e ∈ all, Ran.passed e.2 = true := List.all_eq_true.mp hall
        exact ⟨w', (runSuites_pass_iff screen' hload).mp ⟨all, screen'', hruns, hpassed⟩⟩
      · cases hcode
    · rintro ⟨w₁, hpass⟩
      obtain ⟨all', screen₁, hall', hpassed⟩ :=
        (runSuites_pass_iff screen' hload).mpr hpass
      obtain rfl := Except.ok.inj (Prod.mk.inj (hruns.symm.trans hall')).1
      exact if_pos (List.all_eq_true.mpr hpassed)

/-- The program ends with code zero exactly if all files that were found pass, and every outcome
counts the tests that were run: no failure is lost on the way to the exit code. -/
theorem exitCode_eq_zero_iff (c : Call h args w)
    (hload : ∀ w, (c.bench.engine.loadPlugins c.plugins w).1.2 = .ok ())
    (hprint : ∀ path w outcome, (runFile c.bench c.options path w).1 = .ok outcome →
      ∃ text, outcome.report c.reporter = .ok text) :
    ((run h args w).1.exitCode = 0 ↔ ∃ w', FilesPass c.bench c.options c.files w w') ∧
      ∀ path w₁ w₂ outcome, runFile c.bench c.options path w₁ = (.ok outcome, w₂) →
        ∃ s, load (h.disk.read w₁) path = .ok s ∧ outcome.Counts c.options s := by
  have hready (w : σ) : (c.bench.ready w).1.2 = .ok () := hload _
  refine ⟨?_, fun path w₁ w₂ outcome hrun => runFile_counts (hready w₁) hrun⟩
  rw [run_eq_endingOf, c.comesTo_program rfl, c.comesTo_runFiles]
  cases hfiles : c.files with
  | nil => exact iff_of_true rfl ⟨w, .nil⟩
  | cons path paths =>
    rw [← hfiles, if_neg (by simp [hfiles])]
    exact exitCode_runFound hready hprint

/-! ### A suite that passes -/

/-- A template, and a suite of one test that it passes. -/
def greetingTree : Files.Tree where
  entries :=
    [⟨["greeting", "prompt.echo"], Files.Tree.encode "Hello \x7b\x7bname\x7d\x7d!"⟩,
     ⟨["greeting", "eval", "tests", "a.eval"], Files.Tree.encode
       ("suite: greetings\ntests:\n  - name: greets by name\n    given: \x7bname: Ada\x7d\n" ++
         "    expect_render:\n      - contains: Ada\n")⟩]

def greetingCall : Call (filesAlone greetingTree) ["eval", "greeting/eval/tests/a"] () where
  outer := { words := ["eval", "greeting/eval/tests/a"] }
  rest := ["greeting/eval/tests/a"]
  environment := []
  settings := {}
  parsed := { words := ["greeting/eval/tests/a"] }
  reporter := .console
  files := ["/greeting/eval/tests/a.eval"]
  provider := none
  plugins := []
  outer_read := by decide +kernel
  outer_plain := rfl
  outer_words := rfl
  environment_read := rfl
  settings_read := rfl
  parsed_read := by decide +kernel
  parsed_plain := rfl
  parsed_words := rfl
  reporter_known := rfl
  files_found := rfl
  provider_imported := rfl
  plugins_imported := rfl

/-- The suite passes, and the program ends with code zero. -/
theorem exitCode_eq_zero_iff_greeting :
    (∃ w', FilesPass greetingCall.bench greetingCall.options greetingCall.files () w') ∧
      (run (filesAlone greetingTree) ["eval", "greeting/eval/tests/a"] ()).1.exitCode = 0 := by
  have hcode : (run (filesAlone greetingTree) ["eval", "greeting/eval/tests/a"] ()).1.exitCode =
      0 := by
    decide +kernel
  have hload (w : Unit) : (greetingCall.bench.engine.loadPlugins greetingCall.plugins w).1.2 =
      .ok () := rfl
  exact ⟨(exitCode_eq_zero_iff greetingCall hload fun _ _ _ _ => ⟨_, rfl⟩).1.mp hcode, hcode⟩

end Stencil.Command
