import Mathlib.Data.List.Induction
import OvirtArt.PytestArt.TestLogger

set_option autoImplicit false

/-!
# The ledger of the log of the tests

`Ledger` says what of the logging decides which headers, footers and errors are printed.
Each hook is followed on it, up to a whole test.

The ledger is smaller than the state of the logger, and the hooks are shown to act on it alone.
-/

namespace OvirtArt.PytestArt

open OvirtArt.CoreApi

/-! ## What is printed -/

/-- The first line of a header with its number and its test, or the last line of a
footer in front of the errors. -/
inductive Mark
  | header (itnum : Nat) (team name : Text)
  | footer
  deriving DecidableEq

/-- What the line is in the ledger of a test, if anything. -/
def Line.mark : Line → Option Mark
  | .iteration itnum team name => some (.header itnum team name)
  | .result _ _ => some .footer
  | _ => none

/-- The record that a line ` ERR:` repeats. -/
def Line.repeated : Line → Option Line
  | .err _ rec => some rec
  | _ => none

/-- The headers and footers among lines. -/
def marks (lines : List Line) : List Mark := lines.filterMap Line.mark

/-- The records that the lines ` ERR:` repeat. -/
def errors (lines : List Line) : List Line := lines.filterMap Line.repeated

@[simp] theorem marks_append (lines more : List Line) :
    marks (lines ++ more) = marks lines ++ marks more := List.filterMap_append

@[simp] theorem errors_append (lines more : List Line) :
    errors (lines ++ more) = errors lines ++ errors more := List.filterMap_append

theorem marks_map_err (level : Nat) (recs : List Line) :
    marks (recs.map (.err level)) = [] := by
  unfold marks
  rw [List.filterMap_map]
  exact List.filterMap_eq_nil_iff.mpr fun _ _ => rfl

theorem errors_map_err (level : Nat) (recs : List Line) :
    errors (recs.map (.err level)) = recs := by
  unfold errors
  rw [List.filterMap_map]
  exact List.filterMap_some

/-- Lines that are neither of headers and footers nor of errors. -/
def Plain (lines : List Line) : Prop := marks lines = [] ∧ errors lines = []

theorem plain_of_forall {lines : List Line}
    (h : ∀ line ∈ lines, line.mark = none ∧ line.repeated = none) : Plain lines :=
  ⟨List.filterMap_eq_nil_iff.mpr fun line hline => (h line hline).1,
    List.filterMap_eq_nil_iff.mpr fun line hline => (h line hline).2⟩

theorem plain_detailLines (item : Item) : Plain (detailLines item) := by
  apply plain_of_forall
  intro line hline
  unfold detailLines at hline
  simp only [List.mem_append, List.mem_map] at hline
  obtain (⟨_, _, rfl⟩ | ⟨_, _, rfl⟩) | ⟨_, _, rfl⟩ := hline
  all_goals exact ⟨rfl, rfl⟩

theorem mem_bugzillaLines {value : BugzillaValue} {line : Line} (h : line ∈ value.lines) :
    ∃ url, line = .issue "bugzilla".toList url := by
  cases value with
  | bugs keys =>
    obtain ⟨key, _, rfl⟩ := List.mem_map.mp h
    exact ⟨_, rfl⟩
  | other value => exact ⟨value, List.mem_singleton.mp h⟩

theorem plain_issueLines (items : List Item) : Plain (items.flatMap issueLines) := by
  apply plain_of_forall
  intro line hline
  obtain ⟨item, _, hmem⟩ := List.mem_flatMap.mp hline
  unfold issueLines at hmem
  rcases List.mem_append.mp hmem with hbugzilla | hjira
  · obtain ⟨value, _, hvalue⟩ := List.mem_flatMap.mp hbugzilla
    obtain ⟨url, rfl⟩ := mem_bugzillaLines hvalue
    exact ⟨rfl, rfl⟩
  · obtain ⟨value, _, rfl⟩ := List.mem_map.mp hjira
    exact ⟨rfl, rfl⟩

/-! ## Tests -/

/-- The outcomes whose footer tells the errors. -/
def Outcome.Fails (outcome : Outcome) : Prop := outcome = .failed ∨ outcome = .error

instance (outcome : Outcome) : Decidable outcome.Fails := inferInstanceAs (Decidable (_ ∨ _))

/-- The record that a message sends to the flow logger, past the interface. -/
def Message.record : Message → Option Line
  | .flow level msg => some (.message level msg)
  | _ => none

/-- The records of a phase, in the order of the messages. -/
def Phase.records (phase : Phase) : List Line := phase.messages.filterMap Message.record

namespace Test

/-- The outcome that the test is reported with: of its call, if there is one. -/
def verdict (test : Test) : Outcome :=
  if test.setup.outcome = .passed then test.call.outcome else test.setup.outcome

/-- The setup or the call failed. -/
def Fails (test : Test) : Prop := test.verdict.Fails

instance (test : Test) : Decidable test.Fails := inferInstanceAs (Decidable (Outcome.Fails _))

/-- The records of the setup and of the call, if there is one. -/
def records (test : Test) : List Line :=
  if test.setup.outcome = .passed then test.setup.records ++ test.call.records
  else test.setup.records

/-- The errors to be printed under the test. -/
def ownErrors (test : Test) : List Line := if test.Fails then test.records else []

/-- The records of the teardown, unless they are thrown away with a footer. -/
def leftOver (test : Test) : List Line :=
  if test.teardown.outcome = .skipped then [] else test.teardown.records

/-- The header and the footer of a test with its number. -/
def ownMarks (test : Test) (itnum : Nat) : List Mark :=
  [.header itnum test.item.team (getTestName test.item), .footer]

/-- What is printed of headers and footers: a second footer if the teardown was skipped. -/
def marks (test : Test) (itnum : Nat) : List Mark :=
  test.ownMarks itnum ++ if test.teardown.outcome = .skipped then [.footer] else []

end Test

/-! ## The ledger -/

/-- What the filter does and holds back, the oldest first, the number of headers, the
test at hand, and what is printed. -/
structure Ledger where
  on : Bool
  held : List Line
  itnum : Nat
  item : Option Item
  marks : List Mark
  errors : List Line

/-- The ledger of a state of the logging. -/
def ARTLogging.ledger (logging : ARTLogging) : Ledger where
  on := logging.logFilter.on
  held := logging.logFilter.messages.reverse
  itnum := logging.itnum
  item := logging.currentItem
  marks := PytestArt.marks logging.console
  errors := PytestArt.errors logging.console

namespace Ledger

/-- A header. -/
def header (ledger : Ledger) (item : Item) : Ledger :=
  let itnum := ledger.itnum + 1
  let mark := Mark.header itnum item.team (getTestName item)
  { ledger with itnum := itnum, marks := ledger.marks ++ [mark] }

/-- A footer, which leaves nothing held back. -/
def footer (ledger : Ledger) (outcome : Outcome) : Ledger where
  on := ledger.on
  held := []
  itnum := ledger.itnum
  item := ledger.item
  marks := ledger.marks ++ [.footer]
  errors := if outcome.Fails then ledger.errors ++ ledger.held else ledger.errors

/-- A report. -/
def report (ledger : Ledger) (item : Item) : Report → Ledger
  | ⟨.setup, .passed⟩ => ledger
  | ⟨.setup, outcome⟩ => (ledger.header item).footer outcome
  | ⟨.call, outcome⟩ => ledger.footer outcome
  | ⟨.teardown, .skipped⟩ => ledger.footer .skipped
  | ⟨.teardown, _⟩ => ledger

/-- The records of a phase, and its report. -/
def phase (ledger : Ledger) (item : Item) (when : When) (phase : Phase) : Ledger :=
  { ledger with held := ledger.held ++ phase.records }.report item ⟨when, phase.outcome⟩

/-- The setup of a test, and its call if there is one. -/
def body (ledger : Ledger) (test : Test) : Ledger :=
  let ready := ledger.phase test.item .setup test.setup
  if test.setup.outcome = .passed then
    (ready.header test.item).phase test.item .call test.call
  else ready

/-- A test, from its setup to the report of its teardown. -/
def runTest (ledger : Ledger) (test : Test) : Ledger :=
  let ready := { ledger with on := true, item := some test.item }
  (ready.body test).phase test.item .teardown test.teardown

theorem on_report (ledger : Ledger) (item : Item) (report : Report) :
    (ledger.report item report).on = ledger.on := by
  obtain ⟨phase, outcome⟩ := report
  cases phase <;> cases outcome <;> rfl

theorem report_still_on {ledger : Ledger} (hon : ledger.on = true) (item : Item)
    (report : Report) :
    { ledger.report item report with on := true } = ledger.report item report := by
  have h := on_report ledger item report
  rw [hon] at h
  rw [← h]

theorem item_report (ledger : Ledger) (item : Item) (report : Report) :
    (ledger.report item report).item = ledger.item := by
  obtain ⟨phase, outcome⟩ := report
  cases phase <;> cases outcome <;> rfl

theorem on_phase (ledger : Ledger) (item : Item) (when : When) (phase : Phase) :
    (ledger.phase item when phase).on = ledger.on := on_report _ _ _

theorem item_phase (ledger : Ledger) (item : Item) (when : When) (phase : Phase) :
    (ledger.phase item when phase).item = ledger.item := item_report _ _ _

theorem on_body (ledger : Ledger) (test : Test) : (ledger.body test).on = ledger.on := by
  unfold body
  split
  case isTrue => exact (on_phase _ _ _ _).trans (on_phase _ _ _ _)
  case isFalse => exact on_phase _ _ _ _

theorem item_body (ledger : Ledger) (test : Test) : (ledger.body test).item = ledger.item := by
  unfold body
  split
  case isTrue => exact (item_phase _ _ _ _).trans (item_phase _ _ _ _)
  case isFalse => exact item_phase _ _ _ _

/-- A test is a header and a footer before its teardown. -/
theorem body_eq (ledger : Ledger) (test : Test) :
    ledger.body test =
      ({ ledger with held := ledger.held ++ test.records }.header test.item).footer
        test.verdict := by
  unfold body phase Test.verdict Test.records
  by_cases hpassed : test.setup.outcome = .passed
  · simp only [hpassed, if_true]
    rw [← List.append_assoc]
    rfl
  · simp only [hpassed, if_false]
    cases houtcome : test.setup.outcome with
    | passed => exact absurd houtcome hpassed
    | failed => rfl
    | error => rfl
    | skipped => rfl

/-! ### What a test changes -/

theorem held_body (ledger : Ledger) (test : Test) : (ledger.body test).held = [] := by
  rw [body_eq]
  rfl

/-- The ledger after a test, from the one before its teardown. -/
theorem runTest_of_skipped (ledger : Ledger) {test : Test}
    (h : test.teardown.outcome = .skipped) :
    ledger.runTest test =
      ({ ({ ledger with on := true, item := some test.item }.body test) with
        held := test.teardown.records }.footer .skipped) := by
  unfold runTest
  simp only [phase, h, report, held_body, List.nil_append]

theorem runTest_of_not_skipped (ledger : Ledger) {test : Test}
    (h : test.teardown.outcome ≠ .skipped) :
    ledger.runTest test =
      { ({ ledger with on := true, item := some test.item }.body test) with
        held := test.teardown.records } := by
  unfold runTest
  simp only [phase, held_body, List.nil_append]
  cases houtcome : test.teardown.outcome with
  | skipped => exact absurd houtcome h
  | passed => rfl
  | failed => rfl
  | error => rfl

theorem held_runTest (ledger : Ledger) (test : Test) :
    (ledger.runTest test).held = test.leftOver := by
  unfold Test.leftOver
  by_cases h : test.teardown.outcome = .skipped
  · rw [runTest_of_skipped ledger h, if_pos h]
    rfl
  · rw [runTest_of_not_skipped ledger h, if_neg h]

theorem itnum_runTest (ledger : Ledger) (test : Test) :
    (ledger.runTest test).itnum = ledger.itnum + 1 := by
  by_cases h : test.teardown.outcome = .skipped
  · rw [runTest_of_skipped ledger h, body_eq]
    rfl
  · rw [runTest_of_not_skipped ledger h, body_eq]
    rfl

theorem marks_runTest (ledger : Ledger) (test : Test) :
    (ledger.runTest test).marks = ledger.marks ++ test.marks (ledger.itnum + 1) := by
  unfold Test.marks
  by_cases h : test.teardown.outcome = .skipped
  · rw [runTest_of_skipped ledger h, body_eq, if_pos h]
    simp [footer, header, Test.ownMarks]
  · rw [runTest_of_not_skipped ledger h, body_eq, if_neg h]
    simp [footer, header, Test.ownMarks]

theorem errors_body (ledger : Ledger) (test : Test) :
    (ledger.body test).errors =
      ledger.errors ++ if test.Fails then ledger.held ++ test.records else [] := by
  have hiff : test.Fails ↔ test.verdict.Fails := Iff.rfl
  rw [body_eq]
  by_cases hfails : test.verdict.Fails
  · simp only [footer, hiff, hfails, if_true]
    rfl
  · simp only [footer, hiff, hfails, if_false, List.append_nil]
    rfl

theorem errors_runTest (ledger : Ledger) (test : Test) :
    (ledger.runTest test).errors =
      ledger.errors ++ if test.Fails then ledger.held ++ test.records else [] := by
  have hbody := errors_body { ledger with on := true, item := some test.item } test
  by_cases h : test.teardown.outcome = .skipped
  · rw [runTest_of_skipped ledger h]
    exact hbody
  · rw [runTest_of_not_skipped ledger h]
    exact hbody

end Ledger

/-! ## The hooks on the ledger -/

namespace ARTLogging

variable {logging : ARTLogging} {item : Item}

theorem ledger_toggle (status : Bool) :
    (logging.toggle status).ledger = { logging.ledger with on := status } := rfl

theorem flowLog_off (hoff : logging.ledger.on = false) (rec : Line) :
    logging.flowLog rec = { logging with console := logging.console ++ [rec] } := by
  unfold flowLog RecordingFilter.filter
  have h : logging.logFilter.on = false := hoff
  simp only [h, Bool.false_eq_true, if_false, if_true]

theorem flowLogAll_off (hoff : logging.ledger.on = false) (lines : List Line) :
    logging.flowLogAll lines = { logging with console := logging.console ++ lines } := by
  unfold flowLogAll
  induction lines generalizing logging with
  | nil => rw [List.append_nil]; rfl
  | cons line lines ih =>
    rw [List.foldl_cons, flowLog_off hoff]
    refine (ih ?_).trans ?_
    · exact hoff
    · rw [List.append_assoc]
      rfl

theorem ledger_flowLogAll (hoff : logging.ledger.on = false) (lines : List Line) :
    (logging.flowLogAll lines).ledger =
      { logging.ledger with
        marks := logging.ledger.marks ++ marks lines
        errors := logging.ledger.errors ++ errors lines } := by
  rw [flowLogAll_off hoff]
  unfold ledger
  simp only [marks_append, errors_append]

/-- Lines that are printed aside. -/
theorem ledger_flowLogAll_plain (hoff : logging.ledger.on = false) {lines : List Line}
    (h : Plain lines) : (logging.flowLogAll lines).ledger = logging.ledger := by
  rw [ledger_flowLogAll hoff, h.1, h.2, List.append_nil, List.append_nil]

theorem ledger_logHeaderDelimiter (hoff : logging.ledger.on = false) :
    logging.logHeaderDelimiter.ledger = logging.ledger := by
  unfold logHeaderDelimiter
  split
  case isTrue => exact @ledger_flowLogAll_plain logging hoff [.delimiter] ⟨rfl, rfl⟩
  case isFalse => rfl

theorem ledger_logIteration (hoff : logging.ledger.on = false) :
    (logging.logIteration item).ledger = logging.ledger.header item := by
  let counted : ARTLogging := { logging with itnum := logging.itnum + 1 }
  let first : Line := .iteration (logging.itnum + 1) item.team (getTestName item)
  have hfirst : (counted.flowLog first).ledger = logging.ledger.header item := by
    have herrors : errors [first] = [] := rfl
    refine (@ledger_flowLogAll counted hoff [first]).trans ?_
    rw [herrors, List.append_nil]
    rfl
  have hstill : (counted.flowLog first).ledger.on = false := by
    rw [hfirst]
    exact hoff
  exact (ledger_flowLogAll_plain hstill (plain_detailLines item)).trans hfirst

theorem ledger_logHeader (hoff : logging.ledger.on = false) :
    (logging.logHeader (some item)).ledger = logging.ledger.header item := by
  have hsame := ledger_logHeaderDelimiter hoff
  have hstill : logging.logHeaderDelimiter.ledger.on = false := by rw [hsame, hoff]
  unfold logHeader
  rw [ledger_logIteration hstill, hsame]

/-- The loop of a footer prints what is held back, the oldest record first. -/
theorem logErrors_off (level : Nat) (messages console : List Line) :
    logErrors level messages.length
        { logging with logFilter := ⟨messages, false⟩, console := console } =
      { logging with
        logFilter := ⟨[], false⟩
        console := console ++ messages.reverse.map (.err level) } := by
  induction messages using List.reverseRecOn generalizing console with
  | nil => simp [logErrors]
  | append_singleton messages rec ih =>
    have hnext : RecordingFilter.next ⟨messages ++ [rec], false⟩ =
        some (rec, ⟨messages, false⟩) := by
      simp [RecordingFilter.next]
    rw [List.length_append, List.length_singleton, logErrors]
    simp only [hnext]
    rw [flowLog_off rfl]
    refine (ih (console ++ [.err level rec])).trans ?_
    simp

theorem ledger_logIssues (hoff : logging.ledger.on = false) (report : Report) :
    (logging.logIssues report).ledger = logging.ledger := by
  unfold logIssues
  split
  case isTrue => exact ledger_flowLogAll_plain hoff (plain_issueLines _)
  case isFalse => rfl

theorem ledger_logRecorded (hoff : logging.ledger.on = false) (level : Nat) (report : Report) :
    (logging.logRecorded level report).ledger =
      { logging.ledger with
        held := []
        errors := if report.outcome.Fails then logging.ledger.errors ++ logging.ledger.held
          else logging.ledger.errors } := by
  unfold logRecorded
  by_cases hfails : report.outcome.Fails
  · have hcond : report.outcome = .failed ∨ report.outcome = .error := hfails
    have hon : logging.logFilter.on = false := hoff
    have hfilter : logging.logFilter = ⟨logging.logFilter.messages, false⟩ := by rw [← hon]
    have hprinted := @logErrors_off logging level logging.logFilter.messages logging.console
    rw [← hfilter] at hprinted
    rw [if_pos hcond, if_pos hfails, hprinted]
    unfold ledger
    rw [marks_append, errors_append, marks_map_err, errors_map_err, List.append_nil, hon]
    rfl
  · have hcond : ¬ (report.outcome = .failed ∨ report.outcome = .error) := hfails
    rw [if_neg hcond, if_neg hfails]
    rfl

theorem ledger_logFooter (hoff : logging.ledger.on = false) (level : Nat) (report : Report) :
    (logging.logFooter level report).ledger = logging.ledger.footer report.outcome := by
  have hissues := ledger_logIssues hoff report
  have hoffIssues : (logging.logIssues report).ledger.on = false := by rw [hissues, hoff]
  have hresult : ((logging.logIssues report).flowLog (.result level report.outcome)).ledger =
      { logging.ledger with marks := logging.ledger.marks ++ [.footer] } := by
    refine (ledger_flowLogAll hoffIssues [.result level report.outcome]).trans ?_
    simp [hissues, marks, errors, Line.mark, Line.repeated]
  unfold logFooter
  rw [ledger_logRecorded (by rw [hresult]; exact hoff), hresult]
  rfl

/-! ## Reports -/

/-- The header of the test at hand. -/
theorem ledger_logHeader_current (hoff : logging.ledger.on = false)
    (hitem : logging.ledger.item = some item) :
    (logging.logHeader logging.currentItem).ledger = logging.ledger.header item := by
  have hcurrent : logging.currentItem = some item := hitem
  rw [hcurrent]
  exact ledger_logHeader hoff

/-- A header and a footer at once, with other lines between them. -/
theorem ledger_headed_footer (hoff : logging.ledger.on = false)
    (hitem : logging.ledger.item = some item) {between : List Line} (hplain : Plain between)
    (level : Nat) (report : Report) :
    (((logging.logHeader logging.currentItem).flowLogAll between).logFooter level report).ledger =
      (logging.ledger.header item).footer report.outcome := by
  have hheader := ledger_logHeader_current hoff hitem
  have hoffHeader : (logging.logHeader logging.currentItem).ledger.on = false := by
    rw [hheader]
    exact hoff
  have hbetween := ledger_flowLogAll_plain hoffHeader hplain
  rw [ledger_logFooter (by rw [hbetween, hoffHeader]), hbetween, hheader]

theorem ledger_reportSetup (hitem : logging.ledger.item = some item) (outcome : Outcome) :
    (logging.pytestReportTeststatus ⟨.setup, outcome⟩).ledger =
      { logging.ledger.report item ⟨.setup, outcome⟩ with on := true } := by
  have hoff : (logging.toggle false).ledger.on = false := rfl
  have hheaded := @ledger_headed_footer (logging.toggle false) item hoff hitem
  cases outcome with
  | passed => rfl
  | failed =>
    have h := @hheaded [.setupNote] ⟨rfl, rfl⟩ levelError ⟨.setup, .failed⟩
    exact congrArg (fun ledger : Ledger => { ledger with on := true }) h
  | error =>
    have h := @hheaded [.setupNote] ⟨rfl, rfl⟩ levelError ⟨.setup, .error⟩
    exact congrArg (fun ledger : Ledger => { ledger with on := true }) h
  | skipped =>
    have h := @hheaded [] ⟨rfl, rfl⟩ levelWarn ⟨.setup, .skipped⟩
    exact congrArg (fun ledger : Ledger => { ledger with on := true }) h

theorem ledger_reportCall (item : Item) (outcome : Outcome) :
    (logging.pytestReportTeststatus ⟨.call, outcome⟩).ledger =
      { logging.ledger.report item ⟨.call, outcome⟩ with on := true } := by
  have hfooter := @ledger_logFooter (logging.toggle false) rfl (reportLevel outcome)
    ⟨.call, outcome⟩
  cases outcome
  all_goals exact congrArg (fun ledger : Ledger => { ledger with on := true }) hfooter

theorem ledger_reportTeardown (item : Item) (outcome : Outcome) :
    (logging.pytestReportTeststatus ⟨.teardown, outcome⟩).ledger =
      { logging.ledger.report item ⟨.teardown, outcome⟩ with on := true } := by
  cases outcome with
  | skipped =>
    have hfooter := @ledger_logFooter (logging.toggle false) rfl levelWarn
      ⟨.teardown, .skipped⟩
    exact congrArg (fun ledger : Ledger => { ledger with on := true }) hfooter
  | passed => rfl
  | failed => rfl
  | error => rfl

/-- A report does to the ledger what is said of it there. -/
theorem ledger_pytestReportTeststatus (hitem : logging.ledger.item = some item)
    (report : Report) :
    (logging.pytestReportTeststatus report).ledger =
      { logging.ledger.report item report with on := true } := by
  obtain ⟨phase, outcome⟩ := report
  cases phase with
  | setup => exact ledger_reportSetup hitem outcome
  | call => exact ledger_reportCall item outcome
  | teardown => exact ledger_reportTeardown item outcome

/-! ## A test -/

theorem ledger_stepDelimiter (hoff : logging.ledger.on = false) :
    logging.stepDelimiter.ledger = logging.ledger := by
  unfold stepDelimiter
  split
  case isTrue => exact @ledger_flowLogAll_plain logging hoff [.delimiter] ⟨rfl, rfl⟩
  case isFalse => rfl

/-- A step is printed at once. -/
theorem ledger_printFlowLogger (hon : logging.ledger.on = true) (logLevel : Nat)
    (logType msg : Text) :
    (logging.printFlowLogger logLevel logType msg).ledger = logging.ledger := by
  let off := logging.toggle false
  let counted := { off.stepDelimiter with stepId := off.stepDelimiter.stepId + 1 }
  let step : Line := .step logLevel logType (off.stepDelimiter.stepId + 1) msg
  have hcounted : counted.ledger = off.ledger := @ledger_stepDelimiter off rfl
  have hstep : (counted.flowLog step).ledger = counted.ledger :=
    @ledger_flowLogAll_plain counted (by rw [hcounted]; rfl) [step] ⟨rfl, rfl⟩
  calc (logging.printFlowLogger logLevel logType msg).ledger
      = { (counted.flowLog step).ledger with on := true } := rfl
    _ = { off.ledger with on := true } := by rw [hstep, hcounted]
    _ = { logging.ledger with on := logging.ledger.on } := by rw [hon]; rfl
    _ = logging.ledger := rfl

/-- A message on the flow logger itself is held back. -/
theorem ledger_issue (hon : logging.ledger.on = true) (message : Message) :
    (logging.issue message).ledger =
      { logging.ledger with held := logging.ledger.held ++ message.record.toList } := by
  have hstep : ∀ (logLevel : Nat) (logType msg : Text),
      (logging.printFlowLogger logLevel logType msg).ledger =
        { logging.ledger with held := logging.ledger.held ++ [] } := by
    intro logLevel logType msg
    rw [List.append_nil]
    exact ledger_printFlowLogger hon logLevel logType msg
  cases message with
  | flow level msg =>
    have h : logging.logFilter.on = true := hon
    simp [issue, flowLog, RecordingFilter.filter, h, ledger, Message.record]
  | step msg => exact hstep levelInfo "Step".toList msg
  | skip msg => exact hstep levelWarn "Skip".toList msg
  | setup msg => exact hstep levelInfo "Setup".toList msg
  | teardown msg => exact hstep levelInfo "Teardown".toList msg

theorem ledger_messages (hon : logging.ledger.on = true) (messages : List Message) :
    (messages.foldl issue logging).ledger =
      { logging.ledger with
        held := logging.ledger.held ++ messages.filterMap Message.record } := by
  induction messages generalizing logging with
  | nil => rw [List.foldl_nil, List.filterMap_nil, List.append_nil]
  | cons message messages ih =>
    have hissue := ledger_issue hon message
    rw [List.foldl_cons, ih (by rw [hissue]; exact hon), hissue]
    cases hrecord : message.record with
    | none => simp [hrecord]
    | some rec => simp [hrecord]

theorem ledger_phase (hon : logging.ledger.on = true) (hitem : logging.ledger.item = some item)
    (when : When) (phase : Phase) :
    (logging.phase when phase).ledger = logging.ledger.phase item when phase := by
  have hmessages := ledger_messages hon phase.messages
  have htold : (phase.messages.foldl issue logging).ledger.item = some item := by
    rw [hmessages]
    exact hitem
  unfold ARTLogging.phase
  rw [ledger_pytestReportTeststatus htold, hmessages]
  exact @Ledger.report_still_on
    { logging.ledger with held := logging.ledger.held ++ phase.records } hon item _

theorem ledger_pytestRuntestCall (hon : logging.ledger.on = true) :
    (logging.pytestRuntestCall item).ledger = logging.ledger.header item := by
  unfold pytestRuntestCall
  rw [ledger_toggle, ledger_logHeader rfl, ← hon]
  rfl

theorem ledger_runCall {test : Test} (hon : logging.ledger.on = true)
    (hitem : logging.ledger.item = some test.item) :
    (logging.runCall test).ledger =
      (logging.ledger.header test.item).phase test.item .call test.call := by
  have hcall := @ledger_pytestRuntestCall logging test.item hon
  unfold runCall
  rw [ledger_phase (by rw [hcall]; exact hon) (by rw [hcall]; exact hitem), hcall]

/-- A test does to the ledger what is said of it there. -/
theorem ledger_runTest (test : Test) :
    (logging.runTest test).ledger = logging.ledger.runTest test := by
  let ready := (logging.pytestRuntestSetup test.item).phase .setup test.setup
  let start : Ledger := { logging.ledger with on := true, item := some test.item }
  let called := if test.setup.outcome = .passed then ready.runCall test else ready
  have hready : ready.ledger = start.phase test.item .setup test.setup :=
    @ledger_phase (logging.pytestRuntestSetup test.item) test.item rfl rfl .setup test.setup
  have hbody : called.ledger = start.body test := by
    unfold Ledger.body
    by_cases hpassed : test.setup.outcome = .passed
    · simp only [called, hpassed, if_true]
      rw [ledger_runCall (by rw [hready, Ledger.on_phase]) (by rw [hready, Ledger.item_phase]),
        hready]
    · simp only [called, hpassed, if_false]
      exact hready
  have hon : called.ledger.on = true := by rw [hbody, Ledger.on_body]
  have hitem : called.ledger.item = some test.item := by rw [hbody, Ledger.item_body]
  calc (logging.runTest test).ledger
      = (called.phase .teardown test.teardown).ledger := rfl
    _ = called.ledger.phase test.item .teardown test.teardown :=
        ledger_phase hon hitem .teardown test.teardown
    _ = logging.ledger.runTest test := by rw [hbody]; rfl

end ARTLogging

end OvirtArt.PytestArt
