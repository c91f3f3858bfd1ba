import OvirtArt.CoreApi.SampledLoops

set_option autoImplicit false

/-!
# Waiting for a stable value

`wait_for_vm_gets_to_full_memory` of `rhevmtests/helpers.py`, and
`wait_for_vm_gets_to_full_consumption` and `wait_for_host_scheduling_memory` of
`rhevmtests/compute/sla/helpers.py`.  Each loops over a sampler of `apis_utils`, whose exception is
`APITimeout`; the clause that catches it is inside the loop.

How a sample is read from the engine is left out: a stream of samples is given, and so is the
product of a memory with a threshold, which is a float.  The bodies that count to three are one
definition with the bounds as a parameter.
-/

namespace OvirtArt.Compute.StabilityWaiters

open OvirtArt.CoreApi

/-- What the sampler raises. -/
inductive WaiterException where
  | apiTimeout
  deriving DecidableEq, Repr

/-! ## The source -/

/-- The body of the loops that count to three. -/
def countBody {R : Type} (inBounds : R → Bool) (count : Nat) (sample : R) : BodyFlow Nat Bool :=
  if inBounds sample then
    if count + 1 = 3 then .leaves true else .goesOn (count + 1)
  else .goesOn count

/-- What comes of a loop over the sampler: its exception is raised between two bodies, where
nothing catches it. -/
def returned : Option Bool → Except WaiterException Bool
  | some value => .ok value
  | none => .error .apiTimeout

section

variable (clock : ℚ≥0)

/-- `TimeoutingSampler(60, 5, hl_vms.get_memory_on_vm, vm_resource)`. -/
def memorySampler (getMemoryOnVm : Nat → Sample (Option Int)) :
    TimeoutingSampler (Option Int) where
  timeout := (60 : Nat)
  sleep := (5 : Nat)
  sleep_pos := five_seconds_pos
  func := getMemoryOnVm

/-- `expected_mem * threshold <= sample <= expected_mem`; `scaled` is the product with the
threshold, a float.  What is no number (the `""` of a command that fails) is not in bounds. -/
def isFullMemory (scaled : Int → ℚ) (expectedMem : Int) (sample : Option Int) : Bool :=
  sample.any fun memory => decide (scaled expectedMem ≤ memory) && decide (memory ≤ expectedMem)

/-- `wait_for_vm_gets_to_full_memory`. -/
def waitForVmGetsToFullMemory (scaled : Int → ℚ) (expectedMemory : Int)
    (getMemoryOnVm : Nat → Sample (Option Int)) : Except WaiterException Bool :=
  returned ((memorySampler getMemoryOnVm).forLoop clock
    (countBody (isFullMemory scaled (expectedMemory / 1024))) 0)

/-- The sampler of `hl_vms.get_vm_cpu_consumption_on_the_host`, with `SAMPLER_TIMEOUT` and
`SAMPLER_SLEEP`. -/
def consumptionSampler (getVmCpuConsumption : Nat → Sample Int) : TimeoutingSampler Int where
  timeout := (210 : Nat)
  sleep := (10 : Nat)
  sleep_pos := ten_seconds_pos
  func := getVmCpuConsumption

/-- `expected_load - 3 <= sample <= expected_load + 3`. -/
def isFullConsumption (expectedLoad sample : Int) : Bool :=
  decide (expectedLoad - 3 ≤ sample) && decide (sample ≤ expectedLoad + 3)

/-- `wait_for_vm_gets_to_full_consumption`. -/
def waitForVmGetsToFullConsumption (expectedLoad : Int)
    (getVmCpuConsumption : Nat → Sample Int) : Except WaiterException Bool :=
  returned ((consumptionSampler getVmCpuConsumption).forLoop clock
    (countBody (isFullConsumption expectedLoad)) 0)

/-- `256 * conf.MB`. -/
def schedulingError : Int := 256 * 1024 ^ 2

/-- `expected_sch_memory - error <= sample <= expected_sch_memory + error`; a host without a value
is not in bounds. -/
def isSchedulingMemory (expectedSchMemory : Int) (sample : Option Int) : Bool :=
  sample.any fun memory => decide (expectedSchMemory - schedulingError ≤ memory) &&
    decide (memory ≤ expectedSchMemory + schedulingError)

/-- The body of the loop of `wait_for_host_scheduling_memory`. -/
def schedulingVerdict (expectedSchMemory : Int) (sample : Option Int) : Option Bool :=
  if isSchedulingMemory expectedSchMemory sample then some true else none

/-- `wait_for_host_scheduling_memory`; the sampler, with the timeout and the sleep that are given,
calls `ll_hosts.get_host_max_scheduling_memory`. -/
def waitForHostSchedulingMemory (expectedSchMemory : Int)
    (sampler : TimeoutingSampler (Option Int)) : Except WaiterException Bool :=
  returned (sampler.forLoop clock (stateless (schedulingVerdict expectedSchMemory)) ⟨⟩)

end

/-! ## What is asked of them -/

section

variable {R : Type}

/-- Three consecutive samples in time are in bounds. -/
def Stable (sampler : TimeoutingSampler R) (clock : ℚ≥0) (inBounds : R → Bool) : Prop :=
  ∃ i, sampler.InTime clock (i + 2) ∧ ∀ j < 3, inBounds (sampler.resultAt (i + j)) = true

/-- A sample in time is in bounds. -/
def Met (sampler : TimeoutingSampler R) (clock : ℚ≥0) (inBounds : R → Bool) : Prop :=
  ∃ i, sampler.InTime clock i ∧ inBounds (sampler.resultAt i) = true

/-- The waiter returns `True` exactly if this happens, and `False` if it does not. -/
def WaitsFor (happens : Prop) (result : Except WaiterException Bool) : Prop :=
  (result = .ok true ↔ happens) ∧ (¬ happens → result = .ok false)

end

/-! ## Counting -/

section

variable {R : Type} {inBounds : R → Bool} {sampler : TimeoutingSampler R} {clock : ℚ≥0}

/-- The loop is left once there are three samples in bounds, wherever they stand. -/
theorem value?_countBody {count : Nat} (hcount : count < 3) (samples : List R) :
    (runBody (countBody inBounds) count samples).value? =
      if 3 ≤ count + samples.countP inBounds then some true else none := by
  induction samples generalizing count with
  | nil => rw [List.countP_nil, Nat.add_zero, if_neg (Nat.not_le.mpr hcount)]; rfl
  | cons sample rest ih =>
    rw [runBody, countBody]
    by_cases hsample : inBounds sample = true
    · rw [List.countP_cons_of_pos hsample, if_pos hsample]
      by_cases hthree : count + 1 = 3
      · rw [if_pos hthree, if_pos (by omega)]
        rfl
      · rw [if_neg hthree]
        rw [ih (by omega)]
        congr 2
        omega
    · rw [List.countP_cons_of_neg hsample, if_neg hsample]
      exact ih hcount

theorem stable_imp_three (h : Stable sampler clock inBounds) :
    ∃ n, sampler.InTime clock n ∧ 3 ≤ (sampler.firstResults (n + 1)).countP inBounds := by
  obtain ⟨i, htime, hbounds⟩ := h
  refine ⟨i + 2, htime, ?_⟩
  have hfirst : inBounds (sampler.resultAt i) = true := hbounds 0 (by omega)
  have hsecond : inBounds (sampler.resultAt (i + 1)) = true := hbounds 1 (by omega)
  have hthird : inBounds (sampler.resultAt (i + 2)) = true := hbounds 2 (by omega)
  simp only [TimeoutingSampler.firstResults_succ, List.countP_append,
    List.countP_singleton, hfirst, hsecond, hthird, if_true]
  omega

/-- The waiter is right exactly if it is to return `True`: then there are three samples in bounds,
and otherwise it returns `True` all the same, or raises. -/
theorem waitsFor_stable_iff :
    WaitsFor (Stable sampler clock inBounds)
        (returned (sampler.forLoop clock (countBody inBounds) 0)) ↔
      Stable sampler clock inBounds := by
  constructor
  · rintro ⟨-, hfalse⟩
    by_contra hnot
    have hloop := hfalse hnot
    cases hcase : sampler.forLoop clock (countBody inBounds) 0 with
    | none =>
      rw [hcase] at hloop
      exact nomatch hloop
    | some value =>
      obtain ⟨n, -, hvalue⟩ := TimeoutingSampler.forLoop_eq_some_iff.mp hcase
      rw [hcase] at hloop
      obtain rfl : value = false := Except.ok.inj hloop
      rw [value?_countBody (by omega)] at hvalue
      split at hvalue
      · exact nomatch hvalue
      · exact nomatch hvalue
  · intro hstable
    refine ⟨iff_of_true ?_ hstable, fun hnot => absurd hstable hnot⟩
    obtain ⟨n, htime, hthree⟩ := stable_imp_three hstable
    have hloop : sampler.forLoop clock (countBody inBounds) 0 = some true := by
      refine TimeoutingSampler.forLoop_eq_some_iff.mpr ⟨n, htime, ?_⟩
      rw [value?_countBody (by omega), if_pos (by omega)]
    rw [hloop]
    rfl

end

section

variable {sampler : TimeoutingSampler (Option Int)} {clock : ℚ≥0} {expectedSchMemory : Int}

theorem schedulingVerdict_eq_some_iff {sample : Option Int} {value : Bool} :
    schedulingVerdict expectedSchMemory sample = some value ↔
      isSchedulingMemory expectedSchMemory sample = true ∧ value = true := by
  unfold schedulingVerdict
  split
  · rename_i hbounds
    exact ⟨fun h => ⟨hbounds, (Option.some.inj h).symm⟩, fun h => congrArg some h.2.symm⟩
  · rename_i hbounds
    exact iff_of_false nofun fun h => hbounds h.1

theorem schedulingVerdict_eq_none_iff {sample : Option Int} :
    schedulingVerdict expectedSchMemory sample = none ↔
      isSchedulingMemory expectedSchMemory sample = false := by
  unfold schedulingVerdict
  split
  · rename_i hbounds
    exact iff_of_false nofun fun h => nomatch hbounds.symm.trans h
  · rename_i hbounds
    exact iff_of_true rfl (Bool.eq_false_iff.mpr hbounds)

/-- The loop is left exactly if a sample in time is in bounds. -/
theorem schedulingLoop_eq_some_iff :
    sampler.forLoop clock (stateless (schedulingVerdict expectedSchMemory)) ⟨⟩ = some true ↔
      Met sampler clock (isSchedulingMemory expectedSchMemory) := by
  constructor
  · intro h
    obtain ⟨n, ⟨htime, -⟩, hverdict⟩ := TimeoutingSampler.forLoop_stateless_eq_some_iff.mp h
    exact ⟨n, htime, (schedulingVerdict_eq_some_iff.mp hverdict).1⟩
  · rintro ⟨n, htime, hbounds⟩
    cases hcase :
        sampler.forLoop clock (stateless (schedulingVerdict expectedSchMemory)) ⟨⟩ with
    | none =>
      have hnone := TimeoutingSampler.forLoop_stateless_eq_none_iff.mp hcase n htime
      exact nomatch hbounds.symm.trans (schedulingVerdict_eq_none_iff.mp hnone)
    | some value =>
      obtain ⟨i, -, hverdict⟩ := TimeoutingSampler.forLoop_stateless_eq_some_iff.mp hcase
      rw [(schedulingVerdict_eq_some_iff.mp hverdict).2]

theorem waitsFor_met_iff :
    WaitsFor (Met sampler clock (isSchedulingMemory expectedSchMemory))
        (waitForHostSchedulingMemory clock expectedSchMemory sampler) ↔
      Met sampler clock (isSchedulingMemory expectedSchMemory) := by
  unfold waitForHostSchedulingMemory
  constructor
  · rintro ⟨-, hfalse⟩
    by_contra hnot
    have hloop := hfalse hnot
    cases hcase :
        sampler.forLoop clock (stateless (schedulingVerdict expectedSchMemory)) ⟨⟩ with
    | none =>
      rw [hcase] at hloop
      exact nomatch hloop
    | some value =>
      obtain ⟨i, -, hverdict⟩ := TimeoutingSampler.forLoop_stateless_eq_some_iff.mp hcase
      rw [hcase, (schedulingVerdict_eq_some_iff.mp hverdict).2] at hloop
      exact nomatch hloop
  · intro hmet
    rw [schedulingLoop_eq_some_iff.mpr hmet]
    exact ⟨iff_of_true rfl hmet, fun hnot => absurd hmet hnot⟩

end

/-- The three waiters are right exactly if what they wait for happens in time; if it does not they
raise, or count to three over samples that are not consecutive. -/
theorem stability_waiters_iff (clock : ℚ≥0) (scaled : Int → ℚ)
    (expectedMemory expectedLoad expectedSchMemory : Int)
    (getMemoryOnVm : Nat → Sample (Option Int)) (getVmCpuConsumption : Nat → Sample Int)
    (sampler : TimeoutingSampler (Option Int)) :
    (WaitsFor (Stable (memorySampler getMemoryOnVm) clock
          (isFullMemory scaled (expectedMemory / 1024)))
        (waitForVmGetsToFullMemory clock scaled expectedMemory getMemoryOnVm) ↔
      Stable (memorySampler getMemoryOnVm) clock
        (isFullMemory scaled (expectedMemory / 1024))) ∧
    (WaitsFor (Stable (consumptionSampler getVmCpuConsumption) clock
          (isFullConsumption expectedLoad))
        (waitForVmGetsToFullConsumption clock expectedLoad getVmCpuConsumption) ↔
      Stable (consumptionSampler getVmCpuConsumption) clock (isFullConsumption expectedLoad)) ∧
    (WaitsFor (Met sampler clock (isSchedulingMemory expectedSchMemory))
        (waitForHostSchedulingMemory clock expectedSchMemory sampler) ↔
      Met sampler clock (isSchedulingMemory expectedSchMemory)) :=
  ⟨waitsFor_stable_iff, waitsFor_stable_iff, waitsFor_met_iff⟩

/-- The load is as expected at every other call, and each call takes no time. -/
def everyOther (i : Nat) : Sample Int where
  result := if i % 2 = 0 then 100 else 0
  duration := 0

/-- The load is never as expected, and each call takes no time. -/
def neverLoaded (_ : Nat) : Sample Int where
  result := 0
  duration := 0

theorem inTime_everyOther : (consumptionSampler everyOther).InTime 0 4 := by
  have hcompletion : ∀ j, (consumptionSampler everyOther).completion
      (TimeoutingSampler.created 0) j = j * (10 : Nat) := by
    intro j
    induction j with
    | zero =>
      rw [Nat.cast_zero, zero_mul]
      exact add_zero 0
    | succ j ih =>
      rw [TimeoutingSampler.completion, ih]
      change (j : ℚ≥0) * (10 : Nat) + (10 : Nat) + 0 = ((j + 1 : Nat) : ℚ≥0) * (10 : Nat)
      push_cast
      ring
  intro j hj
  rw [hcompletion, zero_add]
  change ((j : ℚ≥0) * (10 : Nat)) ≤ (210 : Nat)
  rw [← Nat.cast_mul]
  exact Nat.cast_le.mpr (by omega)

theorem not_stable_everyOther :
    ¬ Stable (consumptionSampler everyOther) 0 (isFullConsumption 100) := by
  rintro ⟨i, -, hbounds⟩
  have hfirst := hbounds 0 (by omega)
  have hsecond := hbounds 1 (by omega)
  change isFullConsumption 100 (if (i + 0) % 2 = 0 then 100 else 0) = true at hfirst
  change isFullConsumption 100 (if (i + 1) % 2 = 0 then 100 else 0) = true at hsecond
  by_cases heven : i % 2 = 0
  · rw [if_neg (by omega)] at hsecond
    exact absurd hsecond (by decide)
  · rw [if_neg (by omega)] at hfirst
    exact absurd hfirst (by decide)

theorem not_stable_neverLoaded :
    ¬ Stable (consumptionSampler neverLoaded) 0 (isFullConsumption 100) := by
  rintro ⟨i, -, hbounds⟩
  exact Bool.false_ne_true (hbounds 0 (by omega))

/-- A load that is as expected at every other sample counts as stable, and a wait for one that
never is ends with the exception. -/
theorem every_other_sample_counts_and_timeout_raises :
    (waitForVmGetsToFullConsumption 0 100 everyOther = .ok true ∧
      ¬ WaitsFor (Stable (consumptionSampler everyOther) 0 (isFullConsumption 100))
        (waitForVmGetsToFullConsumption 0 100 everyOther)) ∧
    (waitForVmGetsToFullConsumption 0 100 neverLoaded = .error .apiTimeout ∧
      ¬ WaitsFor (Stable (consumptionSampler neverLoaded) 0 (isFullConsumption 100))
        (waitForVmGetsToFullConsumption 0 100 neverLoaded)) := by
  refine ⟨⟨?_, fun h => not_stable_everyOther (waitsFor_stable_iff.mp h)⟩, ?_,
    fun h => not_stable_neverLoaded (waitsFor_stable_iff.mp h)⟩
  · have hloop : (consumptionSampler everyOther).forLoop 0
        (countBody (isFullConsumption 100)) 0 = some true :=
      TimeoutingSampler.forLoop_eq_some_iff.mpr ⟨4, inTime_everyOther, rfl⟩
    rw [waitForVmGetsToFullConsumption, hloop]
    rfl
  · have hloop : (consumptionSampler neverLoaded).forLoop 0
        (countBody (isFullConsumption 100)) 0 = none := by
      refine TimeoutingSampler.forLoop_eq_none_iff.mpr fun n _ => ?_
      have hcount : ((consumptionSampler neverLoaded).firstResults (n + 1)).countP
          (isFullConsumption 100) = 0 := by
        rw [List.countP_eq_zero]
        intro result hresult
        obtain ⟨i, -, rfl⟩ := TimeoutingSampler.mem_firstResults.mp hresult
        exact Bool.false_ne_true
      rw [value?_countBody (by omega), if_neg (by omega)]
    rw [waitForVmGetsToFullConsumption, hloop]
    rfl

end OvirtArt.Compute.StabilityWaiters
