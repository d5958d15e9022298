import Stencil.Proofs.Number.Order
import Stencil.Proofs.Render
import Stencil.Proofs.Suite.Run
import Stencil.Proofs.Xml.Reader
import Stencil.Suite.Report

/-!
Reports in XML, read back.

A report is written line by line; it reads as one element (`Outcome.element`), in which names and
messages are those of the outcome (`tree_junit`). Numbers need no care between quotes
(`IsNumeral.quoteAttribute`), the operators of failures are words (`Finding.IsNamed.plain`), and
everything else is escaped. So a report is a document unless a text that it shows has a character
that no document may have, or a time is too long to be shown (`junit_isDocument_iff`).
-/

namespace Stencil.Suite

open Text (escapeXml quoteAttribute)
open Xml (Item Reads Closed)

/-! ### Elements -/

/-- The characters of a text, as they are. -/
def chars (s : String) : List Item := s.toList.map .char

/-- Items on lines of their own, and what stands in front of the tag that ends them. -/
def onLines (indent : String) (items : List Item) (last : String) : List Item :=
  (items.flatMap fun i => chars ("\n" ++ indent) ++ [i]) ++ chars ("\n" ++ last)

/-- Milliseconds as seconds. -/
def secondsText (ms : Int) : String := Number.fixedText 3 (Double.ofRatio (ms < 0) ms.natAbs 1000)

/-- Each line below what stands before. -/
def below (ls : List String) : List Char := ls.flatMap fun l => '\n' :: l.toList

/-- The lines about a finding. -/
def Finding.lines (f : Finding) : List String :=
  ("      [" ++ f.operator ++ "] " ++ (given? f.message).getD "failed") ::
    (((given? f.expected).toList.map fun s => "        expected: " ++ s) ++
      ((given? f.actual).toList.map fun s => "        actual: " ++ s))

def TestResult.failures (t : TestResult) : List Finding := t.findings.filter (·.status == .fail)

/-- What is the matter with a test in a line. -/
def TestResult.problemMessage (t : TestResult) : String :=
  match t.status with
  | .pass => ""
  | .fail => joinedMessages "failed" t.failures
  | .error =>
    (given? t.error).getD (joinedMessages "errored" (t.findings.filter (·.status == .error)))

/-- What is written about findings inside an element, line by line. -/
def accountOf (fs : List Finding) : String :=
  String.ofList (below (fs.flatMap Finding.lines) ++ "\n    ".toList)

def errorItem (message : String) : Item :=
  .element "error" [("message", message)] (Xml.data message)

def TestResult.problems (t : TestResult) : List Item :=
  match t.status with
  | .pass => []
  | .fail => [.element "failure" [("message", t.problemMessage)] (Xml.data (accountOf t.failures))]
  | .error => [errorItem t.problemMessage]

def TestResult.element (t : TestResult) : Item :=
  .element "testcase" [("name", t.name), ("time", secondsText t.milliseconds)]
    (onLines "    " t.problems "  ")

/-- The case for a suite that could not be run. -/
def Outcome.errorCases (o : Outcome) : List Item :=
  (given? o.error).toList.map fun e =>
    .element "testcase" [("name", o.name)] (onLines "    " [errorItem e] "  ")

def Outcome.element (o : Outcome) : Item :=
  .element "testsuite"
    [("name", o.name), ("tests", Number.natText o.summary.total),
      ("failures", Number.natText o.summary.failed),
      ("errors", Number.natText (o.summary.errored + o.errorCases.length)),
      ("time", secondsText o.summary.milliseconds)]
    (onLines "  " (o.errorCases ++ o.tests.map TestResult.element) "")

/-! ### Times -/

/-- Times from this many milliseconds on are too long to be shown. -/
def limitMilliseconds : Nat := 1000 * Double.limitInt

lemma isFinite_seconds_iff (ms : Int) :
    (Double.ofRatio (ms < 0) ms.natAbs 1000).isFinite = true ↔ ms.natAbs < limitMilliseconds := by
  have hlimit : (Double.ofRatio (ms < 0) ms.natAbs 1000).isFinite = false ↔
      limitMilliseconds ≤ ms.natAbs :=
    Double.isFinite_ofRatio_iff (by decide) (by decide +kernel) (by decide +kernel)
      (by decide +kernel) ms
  rw [← Bool.not_eq_false, hlimit, not_le]

/-- A time is shown as seconds unless it is too long. -/
lemma shownSeconds_eq_ok_iff {ms : Int} {text : String} :
    shownSeconds ms = .ok text ↔ ms.natAbs < limitMilliseconds ∧ text = secondsText ms := by
  rw [← isFinite_seconds_iff, shownSeconds, secondsText]
  cases Double.ofRatio (ms < 0) ms.natAbs 1000 with
  | finite s m e h => simp [Double.isFinite, eq_comm]
  | infinite s => simp [Double.isFinite]
  | nan => simp [Double.isFinite]

/-- What numbers are made of. -/
def IsNumeral (s : String) : Prop := ∀ c ∈ s.toList, c.isDigit = true ∨ c = '.' ∨ c = '-'

lemma isNumeral_natText (n : Nat) : IsNumeral (Number.natText n) := by
  intro c hc
  rw [Number.natText, String.toList_ofList] at hc
  exact .inl (Nat.isDigit_of_mem_toDigits (by decide) (by decide) hc)

lemma isNumeral_fixedText {x : Double} (h : x.isFinite = true) (places : Nat) :
    IsNumeral (Number.fixedText places x) := by
  cases x with
  | nan => cases h
  | infinite s => cases h
  | finite s m e hc =>
    intro c hin
    unfold Number.fixedText at hin
    dsimp only at hin
    rw [String.toList_ofList] at hin
    generalize hn : (if 0 ≤ e then _ else _ : Nat) = n at hin
    generalize hds : List.replicate (places + 1 - (Nat.toDigits 10 n).length) '0' ++
      Nat.toDigits 10 n = ds at hin
    have hdigit (d : Char) (hd : d ∈ ds) : d.isDigit = true := by
      rw [← hds] at hd
      rcases List.mem_append.mp hd with hd | hd
      · rw [List.eq_of_mem_replicate hd]
        rfl
      · exact Nat.isDigit_of_mem_toDigits (by decide) (by decide) hd
    have hbody {c : Char} (hc : c ∈ if places = 0 then ds.take (ds.length - places)
        else ds.take (ds.length - places) ++ '.' :: ds.drop (ds.length - places)) :
        c.isDigit = true ∨ c = '.' := by
      split at hc
      · exact .inl (hdigit c (List.mem_of_mem_take hc))
      · rcases List.mem_append.mp hc with hc | hc
        · exact .inl (hdigit c (List.mem_of_mem_take hc))
        · rcases List.mem_cons.mp hc with rfl | hc
          · exact .inr rfl
          · exact .inl (hdigit c (List.mem_of_mem_drop hc))
    split at hin
    · rcases List.mem_cons.mp hin with rfl | hin
      · exact .inr (.inr rfl)
      · exact (hbody hin).imp_right .inl
    · exact (hbody hin).imp_right .inl

lemma isNumeral_secondsText {ms : Int} (h : ms.natAbs < limitMilliseconds) :
    IsNumeral (secondsText ms) :=
  isNumeral_fixedText ((isFinite_seconds_iff ms).mpr h) 3

/-- A number is spelled by itself between quotes. -/
lemma IsNumeral.quoteAttribute {s : String} (h : IsNumeral s) :
    quoteAttribute s = "\"" ++ s ++ "\"" := by
  have hne (c : Char) (hc : c ∈ s.toList) {d : Char}
      (hd : ¬ (d.isDigit = true ∨ d = '.' ∨ d = '-')) : c ≠ d := by
    rintro rfl
    exact hd (h c hc)
  have hkept (c : Char) (hc : c ∈ s.toList) : Text.attributeChar c = [c] := by
    have hamp := hne c hc (d := '&') (by decide)
    have hlt := hne c hc (d := '<') (by decide)
    have hgt := hne c hc (d := '>') (by decide)
    have hnewline := hne c hc (d := '\n') (by decide)
    have hreturn := hne c hc (d := '\r') (by decide)
    have htab := hne c hc (d := '\t') (by decide)
    simp [Text.attributeChar, Text.xmlChar]
  have hwritten : s.toList.flatMap Text.attributeChar = s.toList :=
    (List.flatMap_congr hkept).trans (List.flatMap_singleton' _)
  have hquote : s.toList.contains '"' = false := by
    have hmem : '"' ∉ s.toList := fun hmem => hne _ hmem (d := '"') (by decide) rfl
    simpa using hmem
  unfold Text.quoteAttribute
  dsimp only
  rw [hwritten, hquote, String.ofList_toList]
  rfl

/-! ### Lines -/

lemma below_append (ls ms : List String) : below (ls ++ ms) = below ls ++ below ms :=
  List.flatMap_append

lemma below_cons (l : String) (ls : List String) : below (l :: ls) = '\n' :: l.toList ++ below ls :=
  List.flatMap_cons

lemma toList_intercalate_newline (l : String) (ls : List String) :
    ("\n".intercalate (l :: ls)).toList = l.toList ++ below ls := by
  rw [String.toList_intercalate, List.map_cons]
  induction ls generalizing l with
  | nil => simp [below, List.intercalate_singleton]
  | cons m ls ih =>
    rw [List.map_cons, List.intercalate_cons_cons, ih, below_cons]
    simp

/-! ### Content -/

lemma closed_chars {s : String} (h : s.toList.flatMap Text.xmlChar = s.toList)
    (hreturn : NoReturn s.toList) : Closed s.toList (chars s) := by
  have hclosed := Xml.closed_flatMap_xmlChar hreturn
  rwa [h] at hclosed

/-- The operator is one that expectations have, or that of completions themselves. -/
def Finding.IsNamed (f : Finding) : Prop :=
  (Operator.ofWord? f.operator).isSome = true ∨ f.operator = Run.callOperator

/-- Every failure in the test is named by an operator. -/
def TestResult.NamesFailures (t : TestResult) : Prop :=
  ∀ f ∈ t.findings, f.status = .fail → f.IsNamed

/-- Operators are words that XML shows as they are. -/
lemma Finding.IsNamed.plain {f : Finding} (h : f.IsNamed) :
    escapeXml f.operator = f.operator ∧ Xml.IsText f.operator := by
  have hword (op : Operator) : escapeXml op.word = op.word ∧ Xml.IsText op.word := by
    cases op <;> exact ⟨by decide, by decide⟩
  rcases h with h | h
  · obtain ⟨op, hop⟩ := Option.isSome_iff_exists.mp h
    have hsame : op.word = f.operator := by simpa using List.find?_some hop
    exact hsame ▸ hword op
  · rw [h]
    exact ⟨by decide, by decide⟩

lemma TestResult.NamesFailures.isNamed {t : TestResult} (h : t.NamesFailures) {f : Finding}
    (hf : f ∈ t.failures) : f.IsNamed := by
  obtain ⟨hmem, hfail⟩ := List.mem_filter.mp hf
  exact h f hmem (by simpa using hfail)

lemma escapeXml_append (s t : String) : escapeXml (s ++ t) = escapeXml s ++ escapeXml t := by
  simp [escapeXml, String.ofList_append]

/-- The lines about a finding are escaped as a whole. -/
lemma Finding.xmlLines_eq {f : Finding} (h : escapeXml f.operator = f.operator) :
    f.xmlLines = f.lines.map escapeXml := by
  have hopen : escapeXml "      [" = "      [" := by decide
  have hclose : escapeXml "] " = "] " := by decide
  have hexpected : escapeXml "        expected: " = "        expected: " := by decide
  have hactual : escapeXml "        actual: " = "        actual: " := by decide
  simp only [xmlLines, lines, List.map_cons, List.map_append, List.map_map, Function.comp_def,
    escapeXml_append, hopen, hclose, hexpected, hactual, h]

lemma below_map_escapeXml (ls : List String) :
    below (ls.map escapeXml) = (below ls).flatMap Text.xmlChar := by
  induction ls with
  | nil => rfl
  | cons l ls ih =>
    rw [List.map_cons, below_cons, below_cons, List.flatMap_append, ih]
    simp [escapeXml, Text.xmlChar]

/-- A tag with one attribute, as it is written. -/
lemma startTag_single (name key value : String) : Xml.startTag name [(key, value)] =
    "<" ++ name ++ " " ++ key ++ "=" ++ quoteAttribute value ++ ">" := by
  simp [Xml.startTag, Xml.attributeText, String.append_assoc]

lemma errorElement_eq (message : String) : errorElement message =
    "    " ++ (Xml.startTag "error" [("message", message)] ++ escapeXml message ++
      Xml.endTag "error") := by
  have hstart : "    <error message=" = "    " ++ ("<" ++ "error" ++ " " ++ "message" ++ "=") := by
    decide
  have hend : "</error>" = Xml.endTag "error" := by decide
  unfold errorElement
  rw [startTag_single, ← hend]
  simp only [← String.append_assoc] at hstart ⊢
  rw [hstart]

lemma isTag_message {name : String} (h : Xml.isName name = true) :
    Xml.isTag name ["message"] = true := by
  have hkeys : (["message"].all Xml.isName && decide ["message"].Nodup) = true := by decide
  rw [Xml.isTag, h, Bool.and_assoc, hkeys]
  rfl

lemma closed_errorElement (message : String) :
    Closed (errorElement message).toList (chars "    " ++ [errorItem message]) := by
  have hindent : Closed "    ".toList (chars "    ") := closed_chars (by decide) (by decide)
  rw [errorElement_eq, String.toList_append, String.toList_append, String.toList_append]
  exact hindent.append
    ((Xml.reads_escapeXml message).element (isTag_message (by decide)))

lemma toList_escapeXml_accountOf {fs : List Finding}
    (h : ∀ f ∈ fs, escapeXml f.operator = f.operator) :
    (escapeXml (accountOf fs)).toList = below (fs.flatMap Finding.xmlLines) ++ "\n    ".toList := by
  have hlast : "\n    ".toList.flatMap Text.xmlChar = "\n    ".toList := by decide
  have hlines : fs.flatMap Finding.xmlLines = (fs.flatMap Finding.lines).map escapeXml := by
    rw [List.map_flatMap]
    exact List.flatMap_congr fun f hf => Finding.xmlLines_eq (h f hf)
  unfold accountOf escapeXml
  simp only [String.toList_ofList]
  rw [List.flatMap_append, hlast, hlines, below_map_escapeXml]

/-- The element of a test with failures is written around the lines about them. -/
lemma closed_failureLines (message : String) {fs : List Finding}
    (h : ∀ f ∈ fs, escapeXml f.operator = f.operator) :
    Closed (below (["    <failure message=" ++ quoteAttribute message ++ ">"] ++
      fs.flatMap Finding.xmlLines ++ ["    </failure>"]))
      (chars "\n    " ++
        [.element "failure" [("message", message)] (Xml.data (accountOf fs))]) := by
  have hindent : Closed "\n    ".toList (chars "\n    ") := closed_chars (by decide) (by decide)
  have hstart : "    <failure message=" ++ quoteAttribute message ++ ">" =
      "    " ++ Xml.startTag "failure" [("message", message)] := by
    have hopen : "    <failure message=" =
      "    " ++ ("<" ++ "failure" ++ " " ++ "message" ++ "=") := by decide
    rw [startTag_single]
    simp only [← String.append_assoc] at hopen ⊢
    rw [hopen]
  have hend : "    </failure>" = "    " ++ Xml.endTag "failure" := by decide
  have helement : Closed ((Xml.startTag "failure" [("message", message)]).toList ++
      (escapeXml (accountOf fs)).toList ++ (Xml.endTag "failure").toList)
      [.element "failure" [("message", message)] (Xml.data (accountOf fs))] :=
    (Xml.reads_escapeXml (accountOf fs)).element (isTag_message (by decide))
  rw [toList_escapeXml_accountOf h] at helement
  rw [hstart, hend]
  simpa [below] using hindent.append helement

lemma closed_problemLines {t : TestResult} (h : t.NamesFailures) :
    Closed (below t.problemLines ++ "\n  ".toList) (onLines "    " t.problems "  ") := by
  have hlast : Closed "\n  ".toList (chars "\n  ") := closed_chars (by decide) (by decide)
  have hnewline : Closed ['\n'] [.char '\n'] := closed_chars (s := "\n") (by decide) (by decide)
  unfold TestResult.problemLines TestResult.problems TestResult.problemMessage
  cases hstatus : t.status with
  | pass => exact hlast
  | fail =>
    simpa [onLines, TestResult.failures] using
      (closed_failureLines (joinedMessages "failed" t.failures) fun f hf =>
        (h.isNamed hf).plain.1).append hlast
  | error =>
    simpa [below, onLines, chars] using (hnewline.append (closed_errorElement _)).append hlast

lemma closed_xmlLines {t : TestResult} {ls : List String} (hnamed : t.NamesFailures)
    (h : t.xmlLines = .ok ls) : Closed (below ls) (chars "\n  " ++ [t.element]) := by
  obtain ⟨seconds, hseconds, h⟩ := Except.bind_eq_ok.mp h
  obtain rfl := Except.ok.inj h
  obtain ⟨hlt, rfl⟩ := shownSeconds_eq_ok_iff.mp hseconds
  have hindent : Closed "\n  ".toList (chars "\n  ") := closed_chars (by decide) (by decide)
  have htag : Xml.isTag "testcase" ["name", "time"] = true := by decide
  have helement : Closed ((Xml.startTag "testcase"
      [("name", t.name), ("time", secondsText t.milliseconds)]).toList ++
      (below t.problemLines ++ "\n  ".toList) ++ (Xml.endTag "testcase").toList) [t.element] :=
    (closed_problemLines hnamed).reads.element htag
  have hstart : (Xml.startTag "testcase"
      [("name", t.name), ("time", secondsText t.milliseconds)]).toList =
      ("<testcase name=" ++ quoteAttribute t.name ++ " time=\"" ++ secondsText t.milliseconds ++
        "\">").toList := by
    simp [Xml.startTag, Xml.attributeText, (isNumeral_secondsText hlt).quoteAttribute]
  have hclosed := hindent.append helement
  rw [hstart] at hclosed
  simpa [below, Xml.endTag] using hclosed

/-- The elements of tests, each on a line of its own. -/
lemma closed_testLines {ts : List TestResult} {ls : List String}
    (hnamed : ∀ t ∈ ts, t.NamesFailures) (h : testLines ts = .ok ls) :
    Closed (below ls) (ts.flatMap fun t => chars "\n  " ++ [t.element]) := by
  induction ts generalizing ls with
  | nil =>
    obtain rfl := Except.ok.inj h
    exact .nil
  | cons t ts ih =>
    obtain ⟨ht, hts⟩ := List.forall_mem_cons.mp hnamed
    obtain ⟨first, hfirst, h⟩ := Except.bind_eq_ok.mp h
    obtain ⟨rest, hrest, h⟩ := Except.bind_eq_ok.mp h
    obtain rfl := Except.ok.inj h
    rw [below_append, List.flatMap_cons]
    exact (closed_xmlLines ht hfirst).append (ih hts hrest)

lemma closed_errorLines (o : Outcome) :
    Closed (below o.errorLines) (o.errorCases.flatMap fun i => chars "\n  " ++ [i]) := by
  unfold Outcome.errorLines Outcome.errorCases
  cases given? o.error with
  | none => exact .nil
  | some e =>
    have hindent : Closed "\n  ".toList (chars "\n  ") := closed_chars (by decide) (by decide)
    have hnewline : Closed ['\n'] [.char '\n'] :=
      closed_chars (s := "\n") (by decide) (by decide)
    have htag : Xml.isTag "testcase" ["name"] = true := by decide
    have helement : Closed ((Xml.startTag "testcase" [("name", o.name)]).toList ++
        (['\n'] ++ (errorElement e).toList ++ "\n  ".toList) ++ (Xml.endTag "testcase").toList) _ :=
      ((hnewline.append (closed_errorElement e)).append hindent).reads.element htag
    rw [startTag_single] at helement
    simpa [below, onLines, chars, Xml.endTag] using hindent.append helement

lemma onLines_eq (items : List Item) :
    onLines "  " items "" = (items.flatMap fun i => chars "\n  " ++ [i]) ++ chars "\n" := by
  have hindent : "\n" ++ "  " = "\n  " := by decide
  have hlast : "\n" ++ "" = "\n" := by decide
  rw [onLines, hindent, hlast]

/-- A report reads back as the element that it is about. -/
lemma tree_junit {o : Outcome} {text : String} (hnamed : ∀ t ∈ o.tests, t.NamesFailures)
    (h : o.junit = .ok text) : Xml.tree text = some o.element := by
  obtain ⟨seconds, hseconds, h⟩ := Except.bind_eq_ok.mp h
  obtain ⟨cases, hcases, h⟩ := Except.bind_eq_ok.mp h
  obtain rfl := Except.ok.inj h
  obtain ⟨hlt, rfl⟩ := shownSeconds_eq_ok_iff.mp hseconds
  have hlast : Closed ['\n'] (chars "\n") := closed_chars (s := "\n") (by decide) (by decide)
  have hcontent := ((closed_errorLines o).append (closed_testLines hnamed hcases)).append hlast
  have hcount : (if (given? o.error).isSome then 1 else 0) = o.errorCases.length := by
    unfold Outcome.errorCases
    cases given? o.error <;> rfl
  have htag : Xml.isTag "testsuite" ["name", "tests", "failures", "errors", "time"] = true := by
    decide
  have helement : o.element = .element "testsuite"
      [("name", o.name), ("tests", Number.natText o.summary.total),
        ("failures", Number.natText o.summary.failed),
        ("errors", Number.natText (o.summary.errored + o.errorCases.length)),
        ("time", secondsText o.summary.milliseconds)]
      ((o.errorCases.flatMap fun i => chars "\n  " ++ [i]) ++
        (o.tests.flatMap fun t => chars "\n  " ++ [t.element]) ++ chars "\n") := by
    rw [Outcome.element, onLines_eq, List.flatMap_append, List.flatMap_map]
  rw [helement]
  refine hcontent.reads.document htag ?_
  simp only [List.cons_append, List.nil_append, toList_intercalate_newline, hcount]
  rw [below_cons, below_append, below_append]
  simp [Xml.startTag, Xml.attributeText, Xml.endTag, Xml.declaration, below,
    (isNumeral_secondsText hlt).quoteAttribute, (isNumeral_natText _).quoteAttribute]

/-! ### Texts that are shown -/

def Finding.shown (f : Finding) : List String :=
  (given? f.message).toList ++ ((given? f.expected).toList ++ (given? f.actual).toList)

/-- The texts that say what is the matter with a test. -/
def TestResult.problemTexts (t : TestResult) : List String :=
  match t.status with
  | .pass => []
  | .fail => t.failures.flatMap Finding.shown
  | .error => [t.problemMessage]

/-- The texts of a test's that its element shows. -/
def TestResult.shown (t : TestResult) : List String := t.name :: t.problemTexts

/-- The texts of an outcome's that its report shows. -/
def Outcome.shown (o : Outcome) : List String :=
  o.name :: ((given? o.error).toList ++ o.tests.flatMap TestResult.shown)

/-- The times of an outcome. -/
def Outcome.times (o : Outcome) : List Int :=
  o.summary.milliseconds :: o.tests.map (·.milliseconds)

open Xml (IsText)

lemma isText_joinedMessages {fs : List Finding} (h : ∀ f ∈ fs, f.IsNamed) :
    IsText (joinedMessages "failed" fs) ↔ ∀ f ∈ fs, ∀ s ∈ (given? f.message).toList, IsText s := by
  have hsep : IsText "; " := by decide
  have hword : IsText (" " ++ "failed") := by decide
  rw [joinedMessages, Xml.isText_intercalate hsep, List.forall_mem_map]
  refine forall₂_congr fun f hf => ?_
  cases given? f.message with
  | none =>
    have hoperator := Xml.isText_append.mpr ⟨(h f hf).plain.2, hword⟩
    rw [← String.append_assoc] at hoperator
    exact iff_of_true hoperator nofun
  | some s => simp

lemma isText_xmlLines {f : Finding} (h : f.IsNamed) :
    (∀ l ∈ f.xmlLines, IsText l) ↔ ∀ s ∈ f.shown, IsText s := by
  have hopen : IsText "      [" := by decide
  have hclose : IsText "] " := by decide
  have hword : IsText "failed" := by decide
  have hexpected : IsText "        expected: " := by decide
  have hactual : IsText "        actual: " := by decide
  have hmessage : IsText ((given? f.message).getD "failed") ↔
      ∀ s ∈ (given? f.message).toList, IsText s := by
    cases given? f.message <;> simp [hword]
  unfold Finding.xmlLines Finding.shown
  rw [List.forall_mem_cons, List.forall_mem_append, List.forall_mem_append, List.forall_mem_append,
    List.forall_mem_map, List.forall_mem_map]
  simp only [Xml.isText_append, Xml.isText_escapeXml, hopen, hclose, hexpected, hactual, h.plain.2,
    true_and, hmessage]

lemma isText_errorElement (message : String) : IsText (errorElement message) ↔ IsText message := by
  have hopen : IsText "    <error message=" := by decide
  have hbracket : IsText ">" := by decide
  have hclose : IsText "</error>" := by decide
  unfold errorElement
  rw [Xml.isText_append, Xml.isText_append, Xml.isText_append, Xml.isText_append,
    Xml.isText_quoteAttribute, Xml.isText_escapeXml, and_iff_left hclose, and_iff_left hbracket,
    and_iff_right hopen, and_self_iff]

lemma isText_problemLines {t : TestResult} (h : t.NamesFailures) :
    (∀ l ∈ t.problemLines, IsText l) ↔ ∀ s ∈ t.problemTexts, IsText s := by
  unfold TestResult.problemLines TestResult.problemTexts TestResult.problemMessage
  cases t.status with
  | pass => exact iff_of_true nofun nofun
  | fail =>
    have hopen : IsText "    <failure message=" := by decide
    have hbracket : IsText ">" := by decide
    have hclose : IsText "    </failure>" := by decide
    have hnamed (f : Finding) (hf : f ∈ t.failures) : f.IsNamed := h.isNamed hf
    change (∀ l ∈ ["    <failure message=" ++ quoteAttribute (joinedMessages "failed" t.failures) ++
      ">"] ++ t.failures.flatMap Finding.xmlLines ++ ["    </failure>"], IsText l) ↔ _
    simp only [List.forall_mem_append, List.forall_mem_singleton, List.forall_mem_flatMap,
      Xml.isText_append, Xml.isText_quoteAttribute, hopen, hbracket, hclose, true_and, and_true,
      isText_joinedMessages hnamed]
    rw [forall₂_congr fun f hf => isText_xmlLines (hnamed f hf)]
    refine and_iff_right_of_imp fun hshown f hf s hs => hshown f hf s ?_
    exact List.mem_append_left _ hs
  | error =>
    dsimp only
    rw [List.forall_mem_singleton, List.forall_mem_singleton, isText_errorElement]

lemma IsNumeral.isText {s : String} (h : IsNumeral s) : IsText s := by
  refine List.all_eq_true.mpr fun c hc => ?_
  rcases h c hc with hdigit | rfl | rfl
  · simp only [Char.isDigit, Bool.and_eq_true, decide_eq_true_eq] at hdigit
    have hlow : 48 ≤ c.toNat := hdigit.1
    have hhigh : c.toNat ≤ 57 := hdigit.2
    simp [Xml.isCharacter]
    omega
  · decide
  · decide

lemma isText_testElement {t : TestResult} {ls : List String} (hnamed : t.NamesFailures)
    (h : t.xmlLines = .ok ls) : (∀ l ∈ ls, IsText l) ↔ ∀ s ∈ t.shown, IsText s := by
  obtain ⟨seconds, hseconds, h⟩ := Except.bind_eq_ok.mp h
  obtain rfl := Except.ok.inj h
  obtain ⟨hlt, rfl⟩ := shownSeconds_eq_ok_iff.mp hseconds
  have hopen : IsText "  <testcase name=" := by decide
  have htime : IsText " time=\"" := by decide
  have hbracket : IsText "\">" := by decide
  have hclose : IsText "  </testcase>" := by decide
  rw [List.forall_mem_append, List.forall_mem_append, List.forall_mem_singleton,
    List.forall_mem_singleton, and_iff_left hclose, isText_problemLines hnamed,
    Xml.isText_append, Xml.isText_append, Xml.isText_append, Xml.isText_append,
    Xml.isText_quoteAttribute, and_iff_left hbracket,
    and_iff_left (isNumeral_secondsText hlt).isText, and_iff_left htime, and_iff_right hopen,
    TestResult.shown, List.forall_mem_cons]

lemma isText_testLines {ts : List TestResult} {ls : List String}
    (hnamed : ∀ t ∈ ts, t.NamesFailures) (h : testLines ts = .ok ls) :
    (∀ l ∈ ls, IsText l) ↔ ∀ s ∈ ts.flatMap TestResult.shown, IsText s := by
  induction ts generalizing ls with
  | nil =>
    obtain rfl := Except.ok.inj h
    exact iff_of_true nofun nofun
  | cons t ts ih =>
    obtain ⟨ht, hts⟩ := List.forall_mem_cons.mp hnamed
    obtain ⟨first, hfirst, h⟩ := Except.bind_eq_ok.mp h
    obtain ⟨rest, hrest, h⟩ := Except.bind_eq_ok.mp h
    obtain rfl := Except.ok.inj h
    rw [List.forall_mem_append, List.flatMap_cons, List.forall_mem_append,
      isText_testElement ht hfirst, ih hts hrest]

lemma isText_errorLines {o : Outcome} (hname : IsText o.name) :
    (∀ l ∈ o.errorLines, IsText l) ↔ ∀ s ∈ (given? o.error).toList, IsText s := by
  unfold Outcome.errorLines
  cases given? o.error with
  | none => exact iff_of_true nofun nofun
  | some e =>
    have hopen : IsText "  <testcase name=" := by decide
    have hbracket : IsText ">" := by decide
    have hclose : IsText "  </testcase>" := by decide
    have hstart : IsText ("  <testcase name=" ++ quoteAttribute o.name ++ ">") :=
      Xml.isText_append.mpr
        ⟨Xml.isText_append.mpr ⟨hopen, Xml.isText_quoteAttribute.mpr hname⟩, hbracket⟩
    dsimp only
    rw [List.forall_mem_cons, List.forall_mem_cons, List.forall_mem_singleton, and_iff_right hstart,
      and_iff_left hclose, isText_errorElement, Option.toList_some, List.forall_mem_singleton]

/-- The start of a report shows its name, and numbers. -/
lemma isText_suiteLine (name : String) {tests failures errors time : String}
    (htests : IsNumeral tests) (hfailures : IsNumeral failures) (herrors : IsNumeral errors)
    (htime : IsNumeral time) :
    IsText ("<testsuite name=" ++ quoteAttribute name ++
      (" " ++ "tests" ++ "=\"" ++ tests ++ "\"") ++
      (" " ++ "failures" ++ "=\"" ++ failures ++ "\"") ++
      (" " ++ "errors" ++ "=\"" ++ errors ++ "\"") ++ " time=\"" ++ time ++ "\">") ↔
      IsText name := by
  have hopen : IsText "<testsuite name=" := by decide
  have hclose : IsText "\">" := by decide
  have hkey : IsText " time=\"" := by decide
  have hcount {key n : String} (hkey : IsText key) (hn : IsNumeral n) :
      IsText (" " ++ key ++ "=\"" ++ n ++ "\"") := by
    have hblank : IsText " " := by decide
    have hsign : IsText "=\"" := by decide
    have hquote : IsText "\"" := by decide
    simp only [Xml.isText_append]
    exact ⟨⟨⟨⟨hblank, hkey⟩, hsign⟩, hn.isText⟩, hquote⟩
  rw [Xml.isText_append, Xml.isText_append, Xml.isText_append, Xml.isText_append,
    Xml.isText_append, Xml.isText_append, Xml.isText_append, and_iff_left hclose,
    and_iff_left htime.isText, and_iff_left hkey, and_iff_left (hcount (by decide) herrors),
    and_iff_left (hcount (by decide) hfailures), and_iff_left (hcount (by decide) htests),
    and_iff_right hopen, Xml.isText_quoteAttribute]

lemma isText_junit {o : Outcome} {text : String} (hnamed : ∀ t ∈ o.tests, t.NamesFailures)
    (h : o.junit = .ok text) : IsText text ↔ ∀ s ∈ o.shown, IsText s := by
  obtain ⟨seconds, hseconds, h⟩ := Except.bind_eq_ok.mp h
  obtain ⟨cases, hcases, h⟩ := Except.bind_eq_ok.mp h
  obtain rfl := Except.ok.inj h
  obtain ⟨hlt, rfl⟩ := shownSeconds_eq_ok_iff.mp hseconds
  have hdeclaration : IsText "<?xml version=\"1.0\" encoding=\"UTF-8\"?>" := by decide
  have hclose : IsText "</testsuite>" := by decide
  have hstart := isText_suiteLine o.name (isNumeral_natText o.summary.total)
    (isNumeral_natText o.summary.failed)
    (isNumeral_natText (o.summary.errored + if (given? o.error).isSome then 1 else 0))
    (isNumeral_secondsText hlt)
  rw [Xml.isText_intercalate (by decide), List.forall_mem_append, List.forall_mem_append,
    List.forall_mem_append, List.forall_mem_cons, List.forall_mem_singleton,
    List.forall_mem_singleton, and_iff_right hdeclaration, and_iff_left hclose, hstart, and_assoc,
    Outcome.shown, List.forall_mem_cons, List.forall_mem_append, isText_testLines hnamed hcases]
  exact and_congr_right fun hname => and_congr_left' (isText_errorLines hname)

/-- The elements of tests are written exactly if no time is too long. -/
lemma testLines_isOk_iff (ts : List TestResult) :
    (∃ ls, testLines ts = .ok ls) ↔ ∀ t ∈ ts, t.milliseconds.natAbs < limitMilliseconds := by
  induction ts with
  | nil => exact iff_of_true ⟨[], rfl⟩ nofun
  | cons t ts ih =>
    rw [List.forall_mem_cons, ← ih]
    constructor
    · rintro ⟨ls, h⟩
      obtain ⟨first, hfirst, h⟩ := Except.bind_eq_ok.mp h
      obtain ⟨rest, hrest, -⟩ := Except.bind_eq_ok.mp h
      obtain ⟨seconds, hseconds, -⟩ := Except.bind_eq_ok.mp hfirst
      exact ⟨(shownSeconds_eq_ok_iff.mp hseconds).1, rest, hrest⟩
    · rintro ⟨hlt, rest, hrest⟩
      have hfirst : t.xmlLines = .ok _ :=
        Except.bind_eq_ok.mpr ⟨_, shownSeconds_eq_ok_iff.mpr ⟨hlt, rfl⟩, rfl⟩
      exact ⟨_, Except.bind_eq_ok.mpr ⟨_, hfirst, Except.bind_eq_ok.mpr ⟨_, hrest, rfl⟩⟩⟩

lemma junit_isOk_iff (o : Outcome) :
    (∃ text, o.junit = .ok text) ↔ ∀ ms ∈ o.times, ms.natAbs < limitMilliseconds := by
  rw [Outcome.times, List.forall_mem_cons, List.forall_mem_map, ← testLines_isOk_iff]
  constructor
  · rintro ⟨text, h⟩
    obtain ⟨seconds, hseconds, h⟩ := Except.bind_eq_ok.mp h
    obtain ⟨ls, hls, -⟩ := Except.bind_eq_ok.mp h
    exact ⟨(shownSeconds_eq_ok_iff.mp hseconds).1, ls, hls⟩
  · rintro ⟨hlt, ls, hls⟩
    exact ⟨_, Except.bind_eq_ok.mpr ⟨_, shownSeconds_eq_ok_iff.mpr ⟨hlt, rfl⟩,
      Except.bind_eq_ok.mpr ⟨ls, hls, rfl⟩⟩⟩

/-- **A report is a document** exactly if every text that it shows is made of characters that
documents have and its times can be shown; then its root is the outcome's element, whose names and
messages are the outcome's own. -/
theorem junit_isDocument_iff {o : Outcome} (hnamed : ∀ t ∈ o.tests, t.NamesFailures) (root : Item) :
    (∃ text, o.junit = .ok text ∧ Xml.IsDocument text root) ↔
      root = o.element ∧ (∀ s ∈ o.shown, IsText s) ∧
        ∀ ms ∈ o.times, ms.natAbs < limitMilliseconds := by
  constructor
  · rintro ⟨text, hjunit, hdocument⟩
    have hroot := (tree_junit hnamed hjunit).symm.trans hdocument.reads
    exact ⟨(Option.some.inj hroot).symm, (isText_junit hnamed hjunit).mp hdocument.characters,
      (junit_isOk_iff o).mp ⟨text, hjunit⟩⟩
  · rintro ⟨rfl, hshown, htimes⟩
    obtain ⟨text, hjunit⟩ := (junit_isOk_iff o).mpr htimes
    exact ⟨text, hjunit, (isText_junit hnamed hjunit).mpr hshown, tree_junit hnamed hjunit⟩

/-- A suite with one test, which finds a text where another is expected. -/
def mismatch (actual : String) : Outcome :=
  .ofTests "a \"b\" & 'c'"
    [{ name := "1 < 2"
       status := .fail
       findings := [⟨"equals", .fail, "b", actual, "Output does not match expected text"⟩]
       milliseconds := 3 }] 4

/-- Quotes, markup and line ends are read back; a text in the colour of a terminal is not. -/
theorem junit_isDocument_iff_mismatch :
    (∃ text, (mismatch "<b>\r\n]]>").junit = .ok text ∧
      Xml.IsDocument text (mismatch "<b>\r\n]]>").element) ∧
    ∀ root, ¬ ∃ text, (mismatch "b\x1b[0m").junit = .ok text ∧ Xml.IsDocument text root := by
  have hnamed (actual : String) : ∀ t ∈ (mismatch actual).tests, t.NamesFailures :=
    List.forall_mem_singleton.mpr (List.forall_mem_singleton.mpr fun _ => .inl rfl)
  constructor
  · exact (junit_isDocument_iff (hnamed _) _).mpr
      ⟨rfl, by decide +kernel, by decide +kernel⟩
  · intro root h
    have hshown := ((junit_isDocument_iff (hnamed _) root).mp h).2.1
    exact absurd hshown (by decide +kernel)

end Stencil.Suite
