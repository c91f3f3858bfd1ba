import OvirtArt.CoreApi.PyText

set_option autoImplicit false

/-!
# `_pytest_art/testlogger.py`: the log of the tests

`ARTLogging` prints a header and a footer for each test on the flow log, from the hooks
that pytest calls.  What anybody else sends to the flow log is held back by a filter, and
is printed with the footer of a test that failed.

A message is its text: how arguments are formatted is left out, and so is the plain logger beside
the flow log.
-/

namespace OvirtArt.PytestArt

open OvirtArt.CoreApi

/-! ## Lines of the flow log -/

/-- The levels of `logging` that the module uses. -/
def levelInfo : Nat := 20
/-- The level of a warning. -/
def levelWarn : Nat := 30
/-- The level of an error. -/
def levelError : Nat := 40

/-- `report.outcome`. -/
inductive Outcome
  | passed
  | failed
  | error
  | skipped
  deriving DecidableEq

/-- The outcome as the log writes it. -/
def Outcome.text : Outcome → Text
  | .passed => "passed".toList
  | .failed => "failed".toList
  | .error => "error".toList
  | .skipped => "skipped".toList

/-- A value of the marker `bugzilla`: a dictionary by numbers of bugs, or another value. -/
inductive BugzillaValue
  | bugs (keys : List Text)
  | other (value : Text)
  deriving DecidableEq

/-- What is read of a test: the names, the description, the team, the parameter `storage`
and the values of the markers. -/
structure Item where
  name : Text
  clsName : Option Text
  moduleName : Text
  doc : Option Text
  team : Text
  storage : Option Text
  polarionIds : List Text
  bugzilla : List BugzillaValue
  jira : List Text
  deriving DecidableEq

/-- A record of the flow log, by what it is formatted from. -/
inductive Line
  | delimiter
  | iteration (itnum : Nat) (team name : Text)
  | description (line : Text)
  | storage (value : Text)
  | polarion (url : Text)
  | setupNote
  | issue (mname url : Text)
  | result (level : Nat) (outcome : Outcome)
  | err (level : Nat) (rec : Line)
  | step (level : Nat) (logType : Text) (stepId : Nat) (msg : Text)
  | message (level : Nat) (msg : Text)
  deriving DecidableEq

/-- `rec.getMessage()`. -/
def Line.getMessage : Line → Text
  | .delimiter => List.replicate 80 '='
  | .iteration itnum team name =>
    Text.ofNat '0' 3 itnum ++ ": ".toList ++ team ++ "/".toList ++ name
  | .description line => "    ".toList ++ line
  | .storage value => "STORAGE: ".toList ++ value
  | .polarion url => "  POLARION: ".toList ++ url
  | .setupNote => " NOTE: Test failed on setup phase!".toList
  | .issue mname url => "  ".toList ++ mname.upper ++ ": ".toList ++ url
  | .result _ outcome => "Result: ".toList ++ outcome.text.upper
  | .err _ rec => " ERR: ".toList ++ rec.getMessage
  | .step _ logType stepId msg =>
    "      Test ".toList ++ logType ++ "  ".toList ++ Text.ofNat ' ' 2 stepId ++
      ": ".toList ++ msg
  | .message _ msg => msg

/-- The level that the record is logged with. -/
def Line.level : Line → Nat
  | .setupNote => levelError
  | .result level _ => level
  | .err level _ => level
  | .step level _ _ _ => level
  | .message level _ => level
  | _ => levelInfo

/-! ## What is read of a test -/

/-- Where a bug is shown. -/
def bugzillaShowBugUrl : Text := "https://bugzilla.redhat.com/show_bug.cgi?id=".toList

/-- Where a work item is shown. -/
def polarionWiRhevmUrl : Text :=
  "https://polarion.engineering.redhat.com/polarion/#/project/RHEVM3/workitem?id=".toList

/-- Where an issue is shown. -/
def jiraShowIssueUrl : Text := "https://projects.engineering.redhat.com/browse/".toList

/-- `align_description`. -/
def alignDescription (doc : Option Text) : List Text :=
  match doc with
  | none => []
  | some doc => if doc.strip.isEmpty then [] else doc.strip.splitlines.map Text.strip

/-- `get_test_name`. -/
def getTestName (item : Item) : Text :=
  let name :=
    match item.clsName with
    | none => item.name
    | some cls => cls ++ ".".toList ++ item.name
  item.moduleName ++ ".".toList ++ name

/-- `get_desctription`. -/
def getDescription (item : Item) : List Text := alignDescription item.doc

/-- The lines that a value of the marker `bugzilla` gives. -/
def BugzillaValue.lines : BugzillaValue → List Line
  | .bugs keys => keys.map fun key => .issue "bugzilla".toList (bugzillaShowBugUrl ++ key)
  | .other value => [.issue "bugzilla".toList value]

/-- The possible issues why the test was skipped. -/
def issueLines (item : Item) : List Line :=
  item.bugzilla.flatMap BugzillaValue.lines ++
    item.jira.map fun value => .issue "jira".toList (jiraShowIssueUrl ++ value)

/-- The lines of a header after its first one. -/
def detailLines (item : Item) : List Line :=
  (getDescription item).map .description ++
    item.storage.toList.map (fun storage => .storage storage.upper) ++
    item.polarionIds.map fun value => .polarion (polarionWiRhevmUrl ++ value)

/-! ## The filter -/

/-- `RecordingFilter`: the records held back, the newest first, and whether it is on. -/
structure RecordingFilter where
  messages : List Line := []
  on : Bool := false
  deriving DecidableEq

namespace RecordingFilter

/-- `filter`: the filter afterwards, and whether the record is let through. -/
def filter (logFilter : RecordingFilter) (rec : Line) : RecordingFilter × Bool :=
  if logFilter.on then ({ logFilter with messages := rec :: logFilter.messages }, false)
  else (logFilter, true)

/-- Switches the recording on or off. -/
def toggle (logFilter : RecordingFilter) (status : Bool) : RecordingFilter :=
  { logFilter with on := status }

/-- `next`: the oldest record and the filter without it, unless there is none. -/
def next (logFilter : RecordingFilter) : Option (Line × RecordingFilter) :=
  match logFilter.messages.getLast? with
  | none => none
  | some rec => some (rec, { logFilter with messages := logFilter.messages.dropLast })

/-- Forgets what has been recorded. -/
def flush (logFilter : RecordingFilter) : RecordingFilter :=
  { logFilter with messages := [] }

end RecordingFilter

/-! ## The hooks -/

/-- The fields of `ARTLogging`, and what the flow logger has printed. -/
structure ARTLogging where
  logFilter : RecordingFilter := {}
  itnum : Nat := 0
  currentItem : Option Item := none
  stepId : Nat := 0
  logDelimiter : Bool := false
  console : List Line := []
  deriving DecidableEq

/-- `report.when`. -/
inductive When
  | setup
  | call
  | teardown
  deriving DecidableEq

/-- A report of pytest about a phase of a test. -/
structure Report where
  when : When
  outcome : Outcome
  deriving DecidableEq

namespace ARTLogging

/-- `self.log_filter.toggle`. -/
def toggle (logging : ARTLogging) (status : Bool) : ARTLogging :=
  { logging with logFilter := logging.logFilter.toggle status }

/-- `flow_logger.log`, which asks the filter. -/
def flowLog (logging : ARTLogging) (rec : Line) : ARTLogging :=
  let filtered := logging.logFilter.filter rec
  { logging with
    logFilter := filtered.1
    console := if filtered.2 then logging.console ++ [rec] else logging.console }

/-- A call of `flow_logger.log` for each of the lines. -/
def flowLogAll (logging : ARTLogging) (lines : List Line) : ARTLogging :=
  lines.foldl flowLog logging

/-- The delimiter in front of a header, unless there were steps before it. -/
def logHeaderDelimiter (logging : ARTLogging) : ARTLogging :=
  if logging.stepId = 0 then { logging.flowLog .delimiter with logDelimiter := true }
  else logging

/-- The lines of the header, with the next number. -/
def logIteration (logging : ARTLogging) (item : Item) : ARTLogging :=
  let itnum := logging.itnum + 1
  let first := Line.iteration itnum item.team (getTestName item)
  ({ logging with itnum := itnum }.flowLog first).flowLogAll (detailLines item)

/-- `_log_header`. -/
def logHeader (logging : ARTLogging) (item : Option Item) : ARTLogging :=
  match item with
  | none => logging
  | some item => logging.logHeaderDelimiter.logIteration item

/-- `for rec in self.log_filter`, for at most so many records. -/
def logErrors (level : Nat) : Nat → ARTLogging → ARTLogging
  | 0, logging => logging
  | records + 1, logging =>
    match logging.logFilter.next with
    | none => logging
    | some (rec, logFilter) =>
      let logging := { logging with logFilter := logFilter }.flowLog (.err level rec)
      logErrors level records logging

/-- The issues that a footer tells of.  A test has been set up before anything is reported
of it, so that there is an item. -/
def logIssues (logging : ARTLogging) (report : Report) : ARTLogging :=
  if report.outcome = .skipped then
    logging.flowLogAll (logging.currentItem.toList.flatMap issueLines)
  else logging

/-- What the filter holds back, printed if the test failed.  The filter is off here, and
the loop gets no more records than there are. -/
def logRecorded (logging : ARTLogging) (level : Nat) (report : Report) : ARTLogging :=
  if report.outcome = .failed ∨ report.outcome = .error then
    logging.logErrors level logging.logFilter.messages.length
  else { logging with logFilter := logging.logFilter.flush }

/-- `_log_footer`. -/
def logFooter (logging : ARTLogging) (level : Nat) (report : Report) : ARTLogging :=
  ((logging.logIssues report).flowLog (.result level report.outcome)).logRecorded level report

/-- The level of a footer. -/
def reportLevel : Outcome → Nat
  | .passed => levelInfo
  | .failed => levelError
  | .error => levelError
  | .skipped => levelWarn

/-- `pytest_runtest_setup`, up to the setup itself. -/
def pytestRuntestSetup (logging : ARTLogging) (item : Item) : ARTLogging :=
  { logging with currentItem := some item, stepId := 0 }.toggle true

/-- `pytest_runtest_call`. -/
def pytestRuntestCall (logging : ARTLogging) (item : Item) : ARTLogging :=
  ((logging.toggle false).logHeader (some item)).toggle true

/-- `pytest_runtest_teardown`, which says nothing on the flow log. -/
def pytestRuntestTeardown (logging : ARTLogging) (_ : Item) : ARTLogging := logging

/-- The first branch of a report: a setup that failed. -/
def reportFailedSetup (logging : ARTLogging) (level : Nat) (report : Report) : ARTLogging :=
  if report.when = .setup ∧ (report.outcome = .failed ∨ report.outcome = .error) then
    ((logging.logHeader logging.currentItem).flowLog .setupNote).logFooter level report
  else logging

/-- The second branch of a report: a phase that was skipped. -/
def reportSkipped (logging : ARTLogging) (level : Nat) (report : Report) : ARTLogging :=
  if report.outcome = .skipped then
    let logging :=
      if report.when = .setup then logging.logHeader logging.currentItem else logging
    if report.when ≠ .call then logging.logFooter level report else logging
  else logging

/-- The last branch of a report: the call. -/
def reportCall (logging : ARTLogging) (level : Nat) (report : Report) : ARTLogging :=
  if report.when = .call then logging.logFooter level report else logging

/-- `pytest_report_teststatus`. -/
def pytestReportTeststatus (logging : ARTLogging) (report : Report) : ARTLogging :=
  let level := reportLevel report.outcome
  let logging := (logging.toggle false).reportFailedSetup level report
  ((logging.reportSkipped level report).reportCall level report).toggle true

/-- The delimiter in front of the first step. -/
def stepDelimiter (logging : ARTLogging) : ARTLogging :=
  if logging.stepId = 0 ∧ logging.logDelimiter = false then logging.flowLog .delimiter
  else { logging with logDelimiter := false }

/-- `print_flow_logger`. -/
def printFlowLogger (logging : ARTLogging) (logLevel : Nat) (logType msg : Text) :
    ARTLogging :=
  let logging := (logging.toggle false).stepDelimiter
  let stepId := logging.stepId + 1
  ({ logging with stepId := stepId }.flowLog (.step logLevel logType stepId msg)).toggle true

/-- `log_teststep`. -/
def logTeststep (logging : ARTLogging) (msg : Text) : ARTLogging :=
  logging.printFlowLogger levelInfo "Step".toList msg

/-- `log_test_skip_step`. -/
def logTestSkipStep (logging : ARTLogging) (msg : Text) : ARTLogging :=
  logging.printFlowLogger levelWarn "Skip".toList msg

/-- `log_testsetup`. -/
def logTestsetup (logging : ARTLogging) (msg : Text) : ARTLogging :=
  logging.printFlowLogger levelInfo "Setup".toList msg

/-- `log_testteardown`. -/
def logTestteardown (logging : ARTLogging) (msg : Text) : ARTLogging :=
  logging.printFlowLogger levelInfo "Teardown".toList msg

end ARTLogging

/-! ## Tests -/

/-- What a test, or what it calls, tells while it runs: through the interface of the
flow, or as a message on the logger itself. -/
inductive Message
  | step (msg : Text)
  | skip (msg : Text)
  | setup (msg : Text)
  | teardown (msg : Text)
  | flow (level : Nat) (msg : Text)
  deriving DecidableEq

/-- A phase of a test: what is told in it, and how it ends. -/
structure Phase where
  messages : List Message
  outcome : Outcome
  deriving DecidableEq

/-- A test with its phases.  `call` is what happens if its setup passes. -/
structure Test where
  item : Item
  setup : Phase
  call : Phase
  teardown : Phase
  deriving DecidableEq

namespace ARTLogging

/-- What the logging makes of a message. -/
def issue (logging : ARTLogging) : Message → ARTLogging
  | .step msg => logging.logTeststep msg
  | .skip msg => logging.logTestSkipStep msg
  | .setup msg => logging.logTestsetup msg
  | .teardown msg => logging.logTestteardown msg
  | .flow level msg => logging.flowLog (.message level msg)

/-- What is told in a phase, and then its report. -/
def phase (logging : ARTLogging) (when : When) (phase : Phase) : ARTLogging :=
  (phase.messages.foldl issue logging).pytestReportTeststatus ⟨when, phase.outcome⟩

/-- The call of a test. -/
def runCall (logging : ARTLogging) (test : Test) : ARTLogging :=
  (logging.pytestRuntestCall test.item).phase .call test.call

/-- The hooks for a test, in the order of pytest. -/
def runTest (logging : ARTLogging) (test : Test) : ARTLogging :=
  let ready := (logging.pytestRuntestSetup test.item).phase .setup test.setup
  let called := if test.setup.outcome = .passed then ready.runCall test else ready
  (called.pytestRuntestTeardown test.item).phase .teardown test.teardown

/-- A test, and what is printed while it runs. -/
def printed (logging : ARTLogging) (test : Test) : ARTLogging × List Line :=
  let logging := { logging with console := [] }.runTest test
  (logging, logging.console)

end ARTLogging

end OvirtArt.PytestArt
