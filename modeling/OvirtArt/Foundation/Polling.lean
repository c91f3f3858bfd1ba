import Mathlib.Init

set_option autoImplicit false

/-!
# Polling

A loop polls a bounded number of times.  A poll ends it with a value, ends it with an exception
or has it wait for the next one.  The first poll that does not wait decides.

Time is the number of polls.  The rules turn a loop into a statement on the stream of verdicts.
-/

namespace OvirtArt.Foundation

variable {ε β : Type}

/-- What follows from a poll. -/
inductive Verdict (ε β : Type) where
  | wait
  | stop (value : β)
  | raise (e : ε)

/-- The outcome of at most `rounds` polls, and the number of polls. -/
def poll (timedOut : β) : Nat → (Nat → Verdict ε β) → Except ε β × Nat
  | 0, _ => (.ok timedOut, 0)
  | rounds + 1, verdicts =>
    match verdicts 0 with
    | .wait =>
      let (outcome, polls) := poll timedOut rounds fun i => verdicts (i + 1)
      (outcome, polls + 1)
    | .stop value => (.ok value, 1)
    | .raise e => (.error e, 1)

section

variable {timedOut value : β} {rounds : Nat} {verdicts : Nat → Verdict ε β}

theorem poll_of_wait (h : verdicts 0 = .wait) :
    poll timedOut (rounds + 1) verdicts =
      ((poll timedOut rounds fun i => verdicts (i + 1)).1,
        (poll timedOut rounds fun i => verdicts (i + 1)).2 + 1) := by
  rw [poll, h]

theorem poll_of_stop (h : verdicts 0 = .stop value) :
    poll timedOut (rounds + 1) verdicts = (.ok value, 1) := by
  rw [poll, h]

theorem poll_of_raise {e : ε} (h : verdicts 0 = .raise e) :
    poll timedOut (rounds + 1) verdicts = (.error e, 1) := by
  rw [poll, h]

/-- The polls before this one have all waited. -/
def WaitsUntil (verdicts : Nat → Verdict ε β) (i : Nat) : Prop :=
  ∀ j < i, verdicts j = .wait

theorem waitsUntil_zero : WaitsUntil verdicts 0 := fun _ hj => absurd hj (Nat.not_lt_zero _)

theorem waitsUntil_succ_iff {i : Nat} :
    WaitsUntil verdicts (i + 1) ↔
      verdicts 0 = .wait ∧ WaitsUntil (fun j => verdicts (j + 1)) i := by
  unfold WaitsUntil
  rw [Nat.forall_lt_succ_left]

theorem polls_le : (poll timedOut rounds verdicts).2 ≤ rounds := by
  induction rounds generalizing verdicts with
  | zero => exact Nat.le_refl 0
  | succ rounds ih =>
    cases hfirst : verdicts 0 with
    | wait =>
      rw [poll_of_wait hfirst]
      exact Nat.succ_le_succ ih
    | stop value =>
      rw [poll_of_stop hfirst]
      exact Nat.succ_le_succ (Nat.zero_le _)
    | raise e =>
      rw [poll_of_raise hfirst]
      exact Nat.succ_le_succ (Nat.zero_le _)

/-- The loop ends without an exception exactly if no poll that it reaches raises one. -/
theorem poll_returns_iff :
    (∃ value, (poll timedOut rounds verdicts).1 = .ok value) ↔
      ∀ i < rounds, WaitsUntil verdicts i → ∀ e, verdicts i ≠ .raise e := by
  induction rounds generalizing verdicts with
  | zero => exact iff_of_true ⟨timedOut, rfl⟩ fun i hi => absurd hi (Nat.not_lt_zero i)
  | succ rounds ih =>
    rw [Nat.forall_lt_succ_left]
    simp only [waitsUntil_succ_iff]
    cases hfirst : verdicts 0 with
    | wait =>
      rw [poll_of_wait hfirst]
      refine ih.trans ⟨fun h => ⟨fun _ _ hraise => ?_, fun i hi hwaits => ?_⟩, fun h => ?_⟩
      · cases hraise
      · exact h i hi hwaits.2
      · exact fun i hi hwaits => h.2 i hi ⟨rfl, hwaits⟩
    | stop value =>
      rw [poll_of_stop hfirst]
      refine iff_of_true ⟨value, rfl⟩ ⟨fun _ _ hraise => ?_, fun i _ hwaits => ?_⟩
      · cases hraise
      · cases hwaits.1
    | raise e =>
      rw [poll_of_raise hfirst]
      refine iff_of_false ?_ fun h => h.1 waitsUntil_zero e rfl
      rintro ⟨value, hvalue⟩
      cases hvalue

/-- A value other than that of a timeout is that of the poll that is reached and has it. -/
theorem poll_eq_ok_iff (hvalue : value ≠ timedOut) :
    (poll timedOut rounds verdicts).1 = .ok value ↔
      ∃ i < rounds, WaitsUntil verdicts i ∧ verdicts i = .stop value := by
  induction rounds generalizing verdicts with
  | zero =>
    refine iff_of_false (fun h => hvalue (Except.ok.inj h).symm) ?_
    rintro ⟨i, hi, _⟩
    exact absurd hi (Nat.not_lt_zero i)
  | succ rounds ih =>
    rw [Nat.exists_lt_succ_left]
    simp only [waitsUntil_succ_iff]
    cases hfirst : verdicts 0 with
    | wait =>
      rw [poll_of_wait hfirst]
      refine ih.trans ⟨?_, ?_⟩
      · rintro ⟨i, hi, hwaits, hstop⟩
        exact Or.inr ⟨i, hi, ⟨rfl, hwaits⟩, hstop⟩
      · rintro (⟨_, hstop⟩ | ⟨i, hi, hwaits, hstop⟩)
        · cases hstop
        · exact ⟨i, hi, hwaits.2, hstop⟩
    | stop found =>
      rw [poll_of_stop hfirst]
      constructor
      · intro h
        exact Or.inl ⟨waitsUntil_zero, congrArg Verdict.stop (Except.ok.inj h)⟩
      · rintro (⟨_, hstop⟩ | ⟨_, _, hwaits, _⟩)
        · exact congrArg Except.ok (Verdict.stop.inj hstop)
        · cases hwaits.1
    | raise e =>
      rw [poll_of_raise hfirst]
      refine iff_of_false (fun h => by cases h) ?_
      rintro (⟨_, hstop⟩ | ⟨_, _, hwaits, _⟩)
      · cases hstop
      · cases hwaits.1

/-- A poll that is reached and does not wait is the last. -/
theorem poll_of_stops {i : Nat} (hi : i < rounds) (hwaits : WaitsUntil verdicts i)
    (hstop : verdicts i = .stop value) : poll timedOut rounds verdicts = (.ok value, i + 1) := by
  induction rounds generalizing verdicts i with
  | zero => exact absurd hi (Nat.not_lt_zero i)
  | succ rounds ih =>
    cases i with
    | zero => exact poll_of_stop hstop
    | succ i =>
      obtain ⟨hfirst, hrest⟩ := waitsUntil_succ_iff.mp hwaits
      rw [poll_of_wait hfirst, ih (Nat.lt_of_succ_lt_succ hi) hrest hstop]

theorem poll_of_raises {i : Nat} {e : ε} (hi : i < rounds) (hwaits : WaitsUntil verdicts i)
    (hraise : verdicts i = .raise e) : poll timedOut rounds verdicts = (.error e, i + 1) := by
  induction rounds generalizing verdicts i with
  | zero => exact absurd hi (Nat.not_lt_zero i)
  | succ rounds ih =>
    cases i with
    | zero => exact poll_of_raise hraise
    | succ i =>
      obtain ⟨hfirst, hrest⟩ := waitsUntil_succ_iff.mp hwaits
      rw [poll_of_wait hfirst, ih (Nat.lt_of_succ_lt_succ hi) hrest hraise]

/-- Where all polls wait, the time is over. -/
theorem poll_of_waitsUntil (hwaits : WaitsUntil verdicts rounds) :
    poll timedOut rounds verdicts = (.ok timedOut, rounds) := by
  induction rounds generalizing verdicts with
  | zero => rfl
  | succ rounds ih =>
    obtain ⟨hfirst, hrest⟩ := waitsUntil_succ_iff.mp hwaits
    rw [poll_of_wait hfirst, ih hrest]

/-- All polls wait, or one of them is the first that does not. -/
theorem waitsUntil_or_exists (verdicts : Nat → Verdict ε β) (rounds : Nat) :
    WaitsUntil verdicts rounds ∨
      ∃ i < rounds, WaitsUntil verdicts i ∧ verdicts i ≠ .wait := by
  induction rounds with
  | zero => exact Or.inl waitsUntil_zero
  | succ rounds ih =>
    cases ih with
    | inr h =>
      obtain ⟨i, hi, hfirst⟩ := h
      exact Or.inr ⟨i, Nat.lt_succ_of_lt hi, hfirst⟩
    | inl hwaits =>
      by_cases hlast : verdicts rounds = .wait
      · refine Or.inl fun j hj => ?_
        cases Nat.lt_succ_iff_lt_or_eq.mp hj with
        | inl hlt => exact hwaits j hlt
        | inr heq => exact heq ▸ hlast
      · exact Or.inr ⟨rounds, rounds.lt_succ_self, hwaits, hlast⟩

end

end OvirtArt.Foundation
