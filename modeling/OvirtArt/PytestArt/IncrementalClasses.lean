import Mathlib.Data.List.Induction
import Mathlib.Data.List.Nodup
import OvirtArt.CoreApi.PyText
import OvirtArt.Foundation.Histories

set_option autoImplicit false

/-!
# Incremental classes in `pytest_customization/_pytest_art/marks.py`

After each phase of a test of an incremental class that ends with an exception, the class remembers
the test, and from then on expects its tests to fail.  A skip is such an exception, and so is the
expected failure itself.

A session is a list of classes with their tests, and each test has the outcomes of its three
phases.  What pytest does beyond calling the hooks, and its reports, are left out.
-/

namespace OvirtArt.PytestArt.IncrementalClasses

open OvirtArt.CoreApi OvirtArt.Foundation

/-- How a phase of a test ends by itself. -/
inductive PhaseOutcome where
  | passed
  | failed
  | skipped
  deriving DecidableEq, Repr

/-- The exception that ended a phase. -/
inductive ExcInfo where
  | failure
  /-- `pytest.skip` -/
  | skip
  /-- `pytest.xfail` -/
  | xfail (reason : Text)
  deriving DecidableEq, Repr

/-- A test, with its keywords and the outcomes of its phases. -/
structure Item where
  name : Text
  keywords : List Text
  setup : PhaseOutcome
  call : PhaseOutcome
  teardown : PhaseOutcome
  deriving DecidableEq, Repr

/-! ## The source -/

/-- `"incremental" in item.keywords`. -/
def Item.incremental (item : Item) : Bool := item.keywords.contains "incremental".toList

/-- `"previous test failed (%s)" % previousfailed.name`. -/
def xfailReason (name : Text) : Text := "previous test failed (".toList ++ name ++ ")".toList

/-- `pytest_runtest_makereport`: what `_previousfailed` of the parent is afterwards. -/
def pytestRuntestMakereport (item : Item) (excinfo : Option ExcInfo)
    (previousfailed : Option Item) : Option Item :=
  if item.incremental then
    match excinfo with
    | some _ => some item
    | none => previousfailed
  else previousfailed

/-- `pytest_runtest_setup`: what it raises. -/
def pytestRuntestSetup (item : Item) (previousfailed : Option Item) : Option ExcInfo :=
  if item.incremental then
    match previousfailed with
    | some previousfailed => some (.xfail (xfailReason previousfailed.name))
    | none => none
  else none

/-! ## The order of the hooks -/

/-- The exception of a phase. -/
def PhaseOutcome.excinfo : PhaseOutcome → Option ExcInfo
  | .passed => none
  | .failed => some .failure
  | .skipped => some .skip

/-- The setup phase, which begins with `pytest_runtest_setup`. -/
def setupPhase (item : Item) (previousfailed : Option Item) : Option ExcInfo :=
  match pytestRuntestSetup item previousfailed with
  | some raised => some raised
  | none => item.setup.excinfo

/-- The phases of a test: the call only after a setup without an exception, the teardown in any
case, and `pytest_runtest_makereport` after each of them. -/
def runtestprotocol (previousfailed : Option Item) (item : Item) : Option Item :=
  let setup := setupPhase item previousfailed
  let afterSetup := pytestRuntestMakereport item setup previousfailed
  let afterCall := match setup with
    | some _ => afterSetup
    | none => pytestRuntestMakereport item item.call.excinfo afterSetup
  pytestRuntestMakereport item item.teardown.excinfo afterCall

/-- `_previousfailed` of the class once these tests have run. -/
def recorded (tests : List Item) : Option Item := tests.foldl runtestprotocol none

/-! ## What is asked of them -/

/-- The tests of an incremental class, in their order. -/
structure IncrementalClass where
  tests : List Item
  incremental : ∀ item ∈ tests, item.incremental = true
  names_nodup : (tests.map Item.name).Nodup

/-- All phases of the test pass. -/
def Item.Passes (item : Item) : Prop :=
  item.setup = .passed ∧ item.call = .passed ∧ item.teardown = .passed

/-- A phase fails that is run where the test is not expected to fail. -/
def Item.HasFailure (item : Item) : Prop :=
  item.setup = .failed ∨ (item.setup = .passed ∧ item.call = .failed) ∨ item.teardown = .failed

/-- After these tests the test is turned into an expected failure, for this reason. -/
def TurnedInto (before : List Item) (item : Item) (reason : Text) : Prop :=
  pytestRuntestSetup item (recorded before) = some (.xfail reason)

/-- A phase of the test fails after these tests; of a test that is turned into an expected failure
only the teardown is run. -/
def FailsAfter (before : List Item) (item : Item) : Prop :=
  if (recorded before).isSome then item.teardown = .failed else item.HasFailure

/-- The test is one of these, and a phase of it failed. -/
def FailedAmong (before : List Item) (earlier : Item) : Prop :=
  ∃ front rest, before = front ++ earlier :: rest ∧ FailsAfter front earlier

/-- The test is turned exactly if an earlier test failed, and the reason names such a test. -/
structure TurnedRight (before : List Item) (item : Item) : Prop where
  turned : (∃ reason, TurnedInto before item reason) ↔ ∃ earlier, FailedAmong before earlier
  named : ∀ reason, TurnedInto before item reason →
    ∃ earlier, FailedAmong before earlier ∧ reason = xfailReason earlier.name

/-- What the last test before another one has to do: if it is the first that does not pass, a phase
of it fails, and after one that did not pass, its teardown fails. -/
structure FailsOpenly (front : List Item) (last : Item) : Prop where
  first : (∀ item ∈ front, item.Passes) → ¬ last.Passes → last.HasFailure
  later : (¬ ∀ item ∈ front, item.Passes) → last.teardown = .failed

/-! ## One test -/

section

variable {item last earlier : Item} {previousfailed : Option Item} {before front : List Item}
  {outcome : PhaseOutcome}

theorem excinfo_eq_none_iff : outcome.excinfo = none ↔ outcome = .passed := by
  cases outcome with
  | passed => exact iff_of_true rfl rfl
  | failed => exact iff_of_false nofun nofun
  | skipped => exact iff_of_false nofun nofun

theorem makereport_of_some {raised : ExcInfo} (h : item.incremental = true) :
    pytestRuntestMakereport item (some raised) previousfailed = some item :=
  if_pos h

theorem makereport_of_none :
    pytestRuntestMakereport item none previousfailed = previousfailed := by
  unfold pytestRuntestMakereport
  split
  · rfl
  · rfl

/-- A test that is recorded stays recorded in the phases that follow. -/
theorem makereport_self (excinfo : Option ExcInfo) :
    pytestRuntestMakereport item excinfo (some item) = some item := by
  unfold pytestRuntestMakereport
  split
  · cases excinfo with
    | none => rfl
    | some raised => rfl
  · rfl

/-- After a test that was recorded, a test is turned, and is recorded itself. -/
theorem runtestprotocol_of_some (h : item.incremental = true) :
    runtestprotocol (some earlier) item = some item := by
  have hsetup : setupPhase item (some earlier) = some (.xfail (xfailReason earlier.name)) := by
    unfold setupPhase pytestRuntestSetup
    rw [if_pos h]
  unfold runtestprotocol
  rw [hsetup]
  dsimp only
  rw [makereport_of_some h, makereport_self]

/-- Before anything is recorded, a test is recorded exactly if one of its phases does not pass. -/
theorem runtestprotocol_of_none (h : item.incremental = true) :
    runtestprotocol none item = none ∧ item.Passes ∨
      runtestprotocol none item = some item ∧ ¬ item.Passes := by
  have hsetup : setupPhase item none = item.setup.excinfo := by
    unfold setupPhase pytestRuntestSetup
    rw [if_pos h]
  unfold runtestprotocol Item.Passes
  rw [hsetup, ← excinfo_eq_none_iff, ← excinfo_eq_none_iff, ← excinfo_eq_none_iff]
  cases item.setup.excinfo with
  | some raised =>
    dsimp only
    rw [makereport_of_some h, makereport_self]
    exact Or.inr ⟨rfl, fun hpasses => nomatch hpasses.1⟩
  | none =>
    dsimp only
    rw [makereport_of_none]
    cases item.call.excinfo with
    | some raised =>
      rw [makereport_of_some h, makereport_self]
      exact Or.inr ⟨rfl, fun hpasses => nomatch hpasses.2.1⟩
    | none =>
      rw [makereport_of_none]
      cases item.teardown.excinfo with
      | some raised =>
        rw [makereport_of_some h]
        exact Or.inr ⟨rfl, fun hpasses => nomatch hpasses.2.2⟩
      | none =>
        rw [makereport_of_none]
        exact Or.inl ⟨rfl, rfl, rfl, rfl⟩

theorem not_hasFailure_of_passes (h : item.Passes) : ¬ item.HasFailure := by
  obtain ⟨hsetup, hcall, hteardown⟩ := h
  unfold Item.HasFailure
  rw [hsetup, hcall, hteardown]
  intro hfails
  obtain hfails | hfails | hfails := hfails
  · exact nomatch hfails
  · exact nomatch hfails.2
  · exact nomatch hfails

/-! ## The tests of a class -/

theorem recorded_concat : recorded (front ++ [last]) = runtestprotocol (recorded front) last := by
  unfold recorded
  rw [List.foldl_append, List.foldl_cons, List.foldl_nil]

/-- Nothing is recorded exactly while all tests pass, and what is recorded is the last test. -/
theorem recorded_cases (h : ∀ item ∈ before, item.incremental = true) :
    recorded before = none ∧ (∀ item ∈ before, item.Passes) ∨
      (∃ front last, before = front ++ [last] ∧ recorded before = some last) ∧
        ¬ ∀ item ∈ before, item.Passes := by
  induction before using List.reverseRecOn with
  | nil => exact Or.inl ⟨rfl, fun _ hmem => absurd hmem List.not_mem_nil⟩
  | append_singleton front last ih =>
    obtain ⟨hfront, hlast⟩ := List.forall_mem_append.mp h
    have hlast := hlast last (List.mem_singleton_self last)
    rw [recorded_concat, List.forall_mem_append, List.forall_mem_singleton]
    cases ih hfront with
    | inl hnone =>
      rw [hnone.1]
      cases runtestprotocol_of_none hlast with
      | inl hpasses => exact Or.inl ⟨hpasses.1, hnone.2, hpasses.2⟩
      | inr hnot => exact Or.inr ⟨⟨front, last, rfl, hnot.1⟩, fun hall => hnot.2 hall.2⟩
    | inr hsome =>
      obtain ⟨⟨_, previous, _, hprevious⟩, hnot⟩ := hsome
      rw [hprevious, runtestprotocol_of_some hlast]
      exact Or.inr ⟨⟨front, last, rfl, rfl⟩, fun hall => hnot hall.1⟩

theorem recorded_eq_none_iff (h : ∀ item ∈ before, item.incremental = true) :
    recorded before = none ↔ ∀ item ∈ before, item.Passes := by
  cases recorded_cases h with
  | inl hnone => exact iff_of_true hnone.1 hnone.2
  | inr hsome =>
    obtain ⟨⟨_, last, _, hlast⟩, hnot⟩ := hsome
    refine iff_of_false (fun hnone => ?_) hnot
    exact nomatch hlast.symm.trans hnone

theorem failsAfter_of_all_pass (h : ∀ item ∈ front, item.incremental = true)
    (hpass : ∀ item ∈ front, item.Passes) : FailsAfter front last ↔ last.HasFailure := by
  unfold FailsAfter
  rw [(recorded_eq_none_iff h).mpr hpass]
  exact Iff.rfl

theorem failsAfter_of_not_all_pass (h : ∀ item ∈ front, item.incremental = true)
    (hpass : ¬ ∀ item ∈ front, item.Passes) :
    FailsAfter front last ↔ last.teardown = .failed := by
  have hsome : (recorded front).isSome = true :=
    Option.isSome_iff_ne_none.mpr (mt (recorded_eq_none_iff h).mp hpass)
  unfold FailsAfter
  rw [if_pos hsome]

/-- Among tests that pass, none failed. -/
theorem not_failedAmong_of_all_pass (h : ∀ item ∈ before, item.incremental = true)
    (hpass : ∀ item ∈ before, item.Passes) : ¬ FailedAmong before earlier := by
  intro ⟨front, rest, hbefore, hfails⟩
  subst hbefore
  obtain ⟨hfront, _⟩ := List.forall_mem_append.mp h
  obtain ⟨hpassfront, hrest⟩ := List.forall_mem_append.mp hpass
  have hfailure := (failsAfter_of_all_pass hfront hpassfront).mp hfails
  exact not_hasFailure_of_passes (hrest earlier List.mem_cons_self) hfailure

theorem turnedInto_iff {reason : Text} (h : item.incremental = true) :
    TurnedInto before item reason ↔
      ∃ previous, recorded before = some previous ∧ reason = xfailReason previous.name := by
  unfold TurnedInto pytestRuntestSetup
  rw [if_pos h]
  cases recorded before with
  | none => exact iff_of_false nofun fun ⟨_, hsome, _⟩ => nomatch hsome
  | some previous =>
    constructor
    · intro hreason
      exact ⟨previous, rfl, (ExcInfo.xfail.inj (Option.some.inj hreason)).symm⟩
    · intro ⟨other, hother, hreason⟩
      rw [hreason, Option.some.inj hother]

theorem xfailReason_inj {name other : Text} (h : xfailReason name = xfailReason other) :
    name = other :=
  List.append_cancel_left (List.append_cancel_right h)

/-- Of two splits of tests with different names at tests of one name, the places are the same. -/
theorem split_unique {rest : List Item} (hnodup : ((front ++ [last]).map Item.name).Nodup)
    {other : List Item} (hsplit : front ++ [last] = other ++ earlier :: rest)
    (hname : last.name = earlier.name) : other = front ∧ earlier = last := by
  cases List.eq_nil_or_concat rest with
  | inl hnil =>
    rw [hnil] at hsplit
    obtain ⟨hfront, hlast⟩ := List.append_inj' hsplit rfl
    exact ⟨hfront.symm, (List.singleton_inj.mp hlast).symm⟩
  | inr hconcat =>
    obtain ⟨more, final, rfl⟩ := hconcat
    have hassoc : other ++ earlier :: more.concat final =
        (other ++ earlier :: more) ++ [final] := by simp
    rw [hassoc] at hsplit
    obtain ⟨hfront, hlast⟩ := List.append_inj' hsplit rfl
    have hmem : last.name ∈ front.map Item.name := by
      rw [hname, hfront]
      exact List.mem_map_of_mem (List.mem_append_right _ List.mem_cons_self)
    rw [List.map_append, List.map_singleton] at hnodup
    exact absurd (List.mem_singleton_self _) (List.disjoint_of_nodup_append hnodup hmem)

/-- A test that is not the first is turned right exactly if the one before it fails openly. -/
theorem turnedRight_concat_iff (hitem : item.incremental = true)
    (h : ∀ item ∈ front ++ [last], item.incremental = true)
    (hnodup : ((front ++ [last]).map Item.name).Nodup) :
    TurnedRight (front ++ [last]) item ↔ FailsOpenly front last := by
  obtain ⟨hfront, hlast⟩ := List.forall_mem_append.mp h
  have hlast := hlast last (List.mem_singleton_self last)
  cases recorded_cases h with
  | inl hnone =>
    obtain ⟨hnone, hpass⟩ := hnone
    obtain ⟨hpassfront, hpasslast⟩ := List.forall_mem_append.mp hpass
    have hnot (reason : Text) : ¬ TurnedInto (front ++ [last]) item reason := by
      rw [turnedInto_iff hitem, hnone]
      exact fun ⟨_, hsome, _⟩ => nomatch hsome
    apply iff_of_true
    · refine ⟨iff_of_false (fun ⟨reason, hreason⟩ => hnot reason hreason) ?_,
        fun reason hreason => absurd hreason (hnot reason)⟩
      exact fun ⟨earlier, hearlier⟩ => not_failedAmong_of_all_pass h hpass hearlier
    · exact ⟨fun _ hnot => absurd (hpasslast last (List.mem_singleton_self last)) hnot,
        fun hnot => absurd hpassfront hnot⟩
  | inr hsome =>
    obtain ⟨⟨others, previous, hsplit, hprevious⟩, hnot⟩ := hsome
    obtain ⟨_, hlasts⟩ := List.append_inj' hsplit rfl
    obtain rfl := List.singleton_inj.mp hlasts
    have hturned : TurnedInto (front ++ [last]) item (xfailReason last.name) :=
      (turnedInto_iff hitem).mpr ⟨last, hprevious, rfl⟩
    have hopen : FailsOpenly front last ↔ FailsAfter front last := by
      by_cases hpass : ∀ item ∈ front, item.Passes
      · rw [failsAfter_of_all_pass hfront hpass]
        constructor
        · intro hopenly
          apply hopenly.first hpass
          intro hpasslast
          exact hnot (List.forall_mem_append.mpr
            ⟨hpass, List.forall_mem_singleton.mpr hpasslast⟩)
        · intro hfailure
          exact ⟨fun _ _ => hfailure, absurd hpass⟩
      · rw [failsAfter_of_not_all_pass hfront hpass]
        exact ⟨fun hopenly => hopenly.later hpass, fun hfailed =>
          ⟨fun hall => absurd hall hpass, fun _ => hfailed⟩⟩
    rw [hopen]
    constructor
    · intro hright
      obtain ⟨earlier, ⟨other, rest, hother, hfails⟩, hreason⟩ := hright.named _ hturned
      obtain ⟨rfl, rfl⟩ := split_unique hnodup hother (xfailReason_inj hreason)
      exact hfails
    · intro hfails
      have hamong : FailedAmong (front ++ [last]) last := ⟨front, [], rfl, hfails⟩
      refine ⟨iff_of_true ⟨_, hturned⟩ ⟨last, hamong⟩, fun reason hreason => ?_⟩
      obtain ⟨previous, hsome, hreason⟩ := (turnedInto_iff hitem).mp hreason
      obtain rfl := Option.some.inj (hprevious.symm.trans hsome)
      exact ⟨last, hamong, hreason⟩

theorem turnedRight_nil (h : item.incremental = true) : TurnedRight [] item := by
  have hnot (reason : Text) : ¬ TurnedInto [] item reason := by
    rw [turnedInto_iff h]
    exact fun ⟨_, hsome, _⟩ => nomatch hsome
  refine ⟨iff_of_false (fun ⟨reason, hreason⟩ => hnot reason hreason) ?_,
    fun reason hreason => absurd hreason (hnot reason)⟩
  intro ⟨earlier, front, rest, hnil, _⟩
  exact List.append_ne_nil_of_right_ne_nil front (List.cons_ne_nil earlier rest) hnil.symm

end

/-- The tests of a class are turned right exactly if each test that is followed by another fails
openly. -/
theorem incremental_class_iff (tested : IncrementalClass) :
    AtEach TurnedRight tested.tests ↔
      AtEach (fun before _ => ∀ front last, before = front ++ [last] → FailsOpenly front last)
        tested.tests := by
  refine forall_congr' fun before => forall_congr' fun item => forall_congr' fun rest =>
    forall_congr' fun htests => ?_
  have hincremental := tested.incremental
  have hnodup := tested.names_nodup
  rw [htests] at hincremental hnodup
  obtain ⟨hbefore, hitem⟩ := List.forall_mem_append.mp hincremental
  have hitem := hitem item List.mem_cons_self
  cases List.eq_nil_or_concat before with
  | inl hnil =>
    rw [hnil]
    refine iff_of_true (turnedRight_nil hitem) fun front last hsplit => ?_
    exact absurd hsplit.symm (List.append_ne_nil_of_right_ne_nil _ (List.cons_ne_nil _ _))
  | inr hconcat =>
    obtain ⟨front, last, hconcat⟩ := hconcat
    rw [List.concat_eq_append] at hconcat
    subst hconcat
    rw [List.map_append] at hnodup
    rw [turnedRight_concat_iff hitem hbefore (List.Nodup.of_append_left hnodup)]
    constructor
    · intro h other final hsplit
      obtain ⟨rfl, hfinal⟩ := List.append_inj' hsplit rfl
      rwa [← List.singleton_inj.mp hfinal]
    · intro h
      exact h front last rfl

/-! ## A test that is skipped -/

/-- A test of an incremental class that passes, and one that is skipped. -/
def passing : Item where
  name := "test_02".toList
  keywords := ["incremental".toList]
  setup := .passed
  call := .passed
  teardown := .passed

/-- A test that skips itself. -/
def skipping : Item := { passing with name := "test_01".toList, call := .skipped }

/-- The second of two tests, of which the first is skipped. -/
def skipFirst : IncrementalClass where
  tests := [skipping, passing]
  incremental := by decide
  names_nodup := by decide

/-- The second test is turned into an expected failure, though nothing failed. -/
theorem skip_hides_next_test :
    TurnedInto [skipping] passing (xfailReason "test_01".toList) ∧
      ¬ skipping.HasFailure ∧ ¬ AtEach TurnedRight skipFirst.tests := by
  have hfailure : ¬ skipping.HasFailure := by
    intro h
    obtain h | h | h := h
    · exact absurd h (by decide)
    · exact absurd h.2 (by decide)
    · exact absurd h (by decide)
  refine ⟨by unfold TurnedInto; decide, hfailure, fun h => ?_⟩
  have hopen := (incremental_class_iff skipFirst).mp h [skipping] passing [] rfl [] skipping rfl
  refine hfailure (hopen.first (fun _ hmem => absurd hmem List.not_mem_nil) ?_)
  exact fun hpasses => absurd hpasses.2.1 (by decide)

end OvirtArt.PytestArt.IncrementalClasses
