import OvirtArt.Foundation.Transcripts
import OvirtArt.PytestArt.TestLoggerLedger

set_option autoImplicit false

/-!
# Sessions of tests on the flow log

What is printed over a session: a header and a footer for each test, and under a test
that failed its own errors.

A session is any list of tests with the outcomes of their phases.  The exact conditions name the
hooks that pytest does not call.
-/

namespace OvirtArt.PytestArt

open OvirtArt.CoreApi OvirtArt.Foundation

/-- What is printed while each of the tests runs, with a new `ARTLogging`. -/
def session (tests : List Test) : List (List Line) := transcript ARTLogging.printed {} tests

namespace ARTLogging

variable (logging : ARTLogging) (test : Test)

theorem ledger_printed :
    (logging.printed test).1.ledger = { logging with console := [] }.ledger.runTest test :=
  ledger_runTest test

theorem marks_printed :
    marks (logging.printed test).2 = test.marks (logging.itnum + 1) := by
  have h := congrArg Ledger.marks (logging.ledger_printed test)
  exact h.trans (Ledger.marks_runTest _ _)

theorem itnum_printed : (logging.printed test).1.itnum = logging.itnum + 1 := by
  have h := congrArg Ledger.itnum (logging.ledger_printed test)
  exact h.trans (Ledger.itnum_runTest _ _)

theorem errors_printed :
    errors (logging.printed test).2 =
      if test.Fails then logging.ledger.held ++ test.records else [] := by
  have h := congrArg Ledger.errors (logging.ledger_printed test)
  exact h.trans (Ledger.errors_runTest _ _)

theorem held_printed : (logging.printed test).1.ledger.held = test.leftOver := by
  rw [ledger_printed, Ledger.held_runTest]

/-- The errors under a test are its own exactly if it does not fail on something that is
held back from before. -/
theorem errors_printed_iff :
    errors (logging.printed test).2 = test.ownErrors ↔
      (test.Fails → logging.ledger.held = []) := by
  rw [errors_printed]
  unfold Test.ownErrors
  by_cases hfails : test.Fails
  · rw [if_pos hfails, if_pos hfails, List.append_left_eq_self]
    exact ⟨fun h _ => h, fun h => h hfails⟩
  · rw [if_neg hfails, if_neg hfails]
    exact iff_of_true rfl fun h => absurd h hfails

end ARTLogging

/-! ## Errors -/

/-- Under each test that failed are the records of its setup and its call, in their order,
and nothing else; under the others is nothing. -/
def OwnErrors (tests : List Test) : Prop := (session tests).map errors = tests.map Test.ownErrors

/-- Each test has under it its own errors exactly if no test leaves records of its teardown
to a next test that fails. -/
theorem own_errors_iff (tests : List Test) :
    OwnErrors tests ↔ tests.IsChain fun test next => next.Fails → test.leftOver = [] := by
  have h := transcript_map_eq_iff errors Test.ownErrors
    (fun logging : ARTLogging => logging.ledger.held) Test.leftOver
    (fun held test => test.Fails → held = [])
    ARTLogging.errors_printed_iff ARTLogging.held_printed {} tests
  refine h.trans (and_iff_right ?_)
  intro test _ _
  rfl

/-- A test for the counterexamples, without description and markers. -/
def bareItem (name : Text) : Item where
  name := name
  clsName := none
  moduleName := "tests".toList
  doc := none
  team := "network".toList
  storage := none
  polarionIds := []
  bugzilla := []
  jira := []

/-- A test that passes, but whose teardown sends a message, and a test that fails. -/
theorem error_of_other_test : ¬ ∀ tests : List Test, OwnErrors tests := by
  intro hall
  have h := hall
    [⟨bareItem "test_first".toList, ⟨[], .passed⟩, ⟨[], .passed⟩,
        ⟨[.flow levelError "Failed to remove element".toList], .passed⟩⟩,
      ⟨bareItem "test_second".toList, ⟨[], .passed⟩, ⟨[], .failed⟩, ⟨[], .passed⟩⟩]
  revert h
  unfold OwnErrors
  decide

/-! ## Headers and footers -/

/-- A header with the number of the test and then a footer, for one test after the other. -/
def OneHeaderOneFooter (tests : List Test) : Prop :=
  marks (session tests).flatten = tests.zipIdx.flatMap fun test => test.1.ownMarks (test.2 + 1)

theorem marks_session (tests : List Test) :
    marks (session tests).flatten =
      tests.zipIdx.flatMap fun test => test.1.marks (test.2 + 1) := by
  have h := transcript_map_numbered marks ARTLogging.itnum
    (fun itnum test => test.marks (itnum + 1))
    ARTLogging.marks_printed ARTLogging.itnum_printed {} tests
  unfold marks at h ⊢
  rw [List.filterMap_flatten, List.flatMap_def]
  exact congrArg List.flatten h

/-- The marks of some tests are one header and one footer each exactly if no teardown was
skipped: a second footer would stand in the place of the next header. -/
theorem flatMap_marks_iff (tests : List Test) (start : Nat) :
    (tests.zipIdx start).flatMap (fun test => test.1.marks (test.2 + 1)) =
        (tests.zipIdx start).flatMap (fun test => test.1.ownMarks (test.2 + 1)) ↔
      ∀ test ∈ tests, test.teardown.outcome ≠ .skipped := by
  induction tests generalizing start with
  | nil => exact iff_of_true rfl (by simp)
  | cons test tests ih =>
    rw [List.zipIdx_cons, List.flatMap_cons, List.flatMap_cons, List.forall_mem_cons, ← ih]
    unfold Test.marks
    rw [List.append_assoc, List.append_right_inj]
    by_cases hskipped : test.teardown.outcome = .skipped
    · rw [if_pos hskipped]
      refine iff_of_false (fun h => ?_) fun h => h.1 hskipped
      cases tests with
      | nil => cases h
      | cons next rest => cases h
    · rw [if_neg hskipped, List.nil_append]
      exact (and_iff_right hskipped).symm

/-- Each test has one header and then one footer, with its number in the header, exactly if
no teardown was skipped. -/
theorem one_header_one_footer_iff (tests : List Test) :
    OneHeaderOneFooter tests ↔ ∀ test ∈ tests, test.teardown.outcome ≠ .skipped := by
  unfold OneHeaderOneFooter
  rw [marks_session]
  exact flatMap_marks_iff tests 0

/-- A test that passes, and whose teardown is skipped: it has two footers. -/
theorem two_footers_of_skipped : ¬ ∀ tests : List Test, OneHeaderOneFooter tests := by
  intro hall
  have h := hall [⟨bareItem "test_first".toList, ⟨[], .passed⟩, ⟨[], .passed⟩, ⟨[], .skipped⟩⟩]
  revert h
  unfold OneHeaderOneFooter
  decide

end OvirtArt.PytestArt
