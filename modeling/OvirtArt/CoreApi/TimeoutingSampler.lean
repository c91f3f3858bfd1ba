import Mathlib.Data.NNRat.Floor
import OvirtArt.Foundation.Runs

set_option autoImplicit false

/-!
# `TimeoutingSampler` of `core_api/timeout.py`

A sampler calls a function again and again, hands out what it returns, and raises when a sample
completes too late.  The time from which it counts is kept on the object, and is set by the first
iteration only.

The clock is a rational number that each sample and each pause moves on.  A run is a sequence of
iterations of one object, each with its own consumer; log texts and the arguments of the exception
are left out.
-/

namespace OvirtArt.CoreApi

open OvirtArt.Foundation

/-- What a call of the function returns, and how long it takes until the sampler goes on. -/
structure Sample (R : Type) where
  result : R
  duration : ℚ≥0

/-- The variables that `__init__` sets from its arguments; `func` gives what the calls of the
function come to, in their order. -/
structure TimeoutingSampler (R : Type) where
  timeout : ℚ≥0
  sleep : ℚ≥0
  sleep_pos : 0 < sleep
  func : Nat → Sample R

/-! The periods of the samplers of the tests. -/

theorem one_second_pos : (0 : ℚ≥0) < 1 := one_pos

theorem five_seconds_pos : (0 : ℚ≥0) < (5 : Nat) := by norm_num

theorem ten_seconds_pos : (0 : ℚ≥0) < (10 : Nat) := by norm_num

namespace TimeoutingSampler

variable {R : Type}

/-- The time, the number of calls of the function so far, and the variables of the object that an
iteration sets. -/
structure Progress where
  clock : ℚ≥0
  calls : Nat
  startTime : Option ℚ≥0
  lastSampleTime : Option ℚ≥0

/-- A sample that is handed out, and when it completes. -/
structure Yielded (R : Type) where
  result : R
  completed : ℚ≥0

/-- How an iteration ends: the loop over it is left, or it raises `timeout_exc_cls`. -/
inductive Ended
  | left
  | raised
deriving DecidableEq, Repr

/-- The samples of one iteration and how it ended. -/
structure Iteration (R : Type) where
  samples : List (Yielded R)
  ended : Ended

variable (sampler : TimeoutingSampler R)

/-! ## The source -/

/-- The call of the function. -/
def sampled (progress : Progress) : Progress where
  clock := progress.clock + (sampler.func progress.calls).duration
  calls := progress.calls + 1
  startTime := progress.startTime
  lastSampleTime := some progress.clock

/-- `time.sleep(self.sleep)`. -/
def slept (progress : Progress) : Progress :=
  { progress with clock := progress.clock + sampler.sleep }

/-- How often the sampler can sleep before it raises. -/
def roundsLeft (start : ℚ≥0) (progress : Progress) : Nat :=
  ⌊(start + sampler.timeout + sampler.sleep - progress.clock) / sampler.sleep⌋₊

theorem roundsLeft_lt {start : ℚ≥0} {progress : Progress}
    (h : ¬ sampler.timeout < (sampler.sampled progress).clock - start) :
    sampler.roundsLeft start (sampler.slept (sampler.sampled progress)) <
      sampler.roundsLeft start progress := by
  have hclock : progress.clock ≤ (sampler.sampled progress).clock := le_self_add
  have hin : (sampler.sampled progress).clock ≤ start + sampler.timeout :=
    tsub_le_iff_left.mp (not_lt.mp h)
  unfold roundsLeft slept
  rw [add_tsub_add_eq_tsub_right, ← tsub_add_eq_add_tsub (hclock.trans hin), add_div,
    div_self sampler.sleep_pos.ne', Nat.floor_add_one zero_le]
  apply Nat.lt_succ_of_le
  apply Nat.floor_le_floor
  gcongr

/-- The `while` loop of `__iter__`; `leaves` says of the results so far whether the loop over them
is left. -/
def rounds (start : ℚ≥0) (leaves : List R → Bool) (progress : Progress) :
    Iteration R × Progress :=
  let after := sampler.sampled progress
  let result := (sampler.func progress.calls).result
  let yielded : Yielded R := { result := result, completed := after.clock }
  if leaves [result] then ({ samples := [yielded], ended := .left }, after)
  else if sampler.timeout < after.clock - start then
    ({ samples := [yielded], ended := .raised }, after)
  else
    let (rest, last) := rounds start (fun later => leaves (result :: later)) (sampler.slept after)
    ({ rest with samples := yielded :: rest.samples }, last)
termination_by sampler.roundsLeft start progress
decreasing_by
  exact sampler.roundsLeft_lt ‹_›

/-- `__iter__`. -/
def iter (leaves : List R → Bool) (progress : Progress) : Iteration R × Progress :=
  match progress.startTime with
  | none => sampler.rounds progress.clock leaves { progress with startTime := some progress.clock }
  | some startTime => sampler.rounds startTime leaves progress

/-- The loop of `waitForFuncStatus` is left at the result that is waited for. -/
def isResult [BEq R] (result : R) (results : List R) : Bool :=
  results.getLast?.any (result == ·)

/-- `waitForFuncStatus`. -/
def waitForFuncStatus [BEq R] (result : R) (progress : Progress) : Bool × Progress :=
  let (iteration, last) := sampler.iter (isResult result) progress
  match iteration.ended with
  | .left => (true, last)
  | .raised => (false, last)

/-! ## Iterations on one object -/

/-- What is done with the object: a loop over it, or a wait. -/
inductive Use (R : Type)
  | loop (leaves : List R → Bool)
  | wait (result : R)

/-- An iteration, and the time since the last one. -/
structure Turn (R : Type) where
  gap : ℚ≥0
  use : Use R

/-- The time in which the object is not used. -/
def Turn.begin (turn : Turn R) (progress : Progress) : Progress :=
  { progress with clock := progress.clock + turn.gap }

/-- When the consumer leaves after the samples it has got. -/
def Use.leaves [BEq R] : Use R → List R → Bool
  | .loop leaves => leaves
  | .wait result => isResult result

variable [BEq R]

/-- The iteration of one turn. -/
def iteration (progress : Progress) (turn : Turn R) : Iteration R :=
  (sampler.iter turn.use.leaves (turn.begin progress)).1

/-- The sampler after one turn. -/
def step (progress : Progress) (turn : Turn R) : Option Progress :=
  some (sampler.iter turn.use.leaves (turn.begin progress)).2

/-- A new object. -/
def created (clock : ℚ≥0) : Progress :=
  { clock := clock, calls := 0, startTime := none, lastSampleTime := none }

/-! ## What is asked of an iteration -/

/-- The iteration has a sample, all but the last complete within the timeout from the start of
this iteration, and it is left where the loop over it is left or raises at a sample that completes
later.  A wait returns whether one of the samples is the result that it waits for. -/
structure Keeps (progress : Progress) (turn : Turn R) : Prop where
  sampled : (sampler.iteration progress turn).samples ≠ []
  in_time : ∀ yielded ∈ (sampler.iteration progress turn).samples.dropLast,
    yielded.completed ≤ (turn.begin progress).clock + sampler.timeout
  ends : match (sampler.iteration progress turn).ended with
    | .left =>
      turn.use.leaves ((sampler.iteration progress turn).samples.map Yielded.result) = true
    | .raised =>
      ∃ last ∈ (sampler.iteration progress turn).samples.getLast?,
        (turn.begin progress).clock + sampler.timeout < last.completed
  answer : ∀ result, turn.use = .wait result →
    ((sampler.waitForFuncStatus result (turn.begin progress)).1 = true ↔
      ∃ yielded ∈ (sampler.iteration progress turn).samples, result == yielded.result)

/-- When the sample completes that is so far from here, if nothing ends the iteration before. -/
def completion (progress : Progress) : Nat → ℚ≥0
  | 0 => progress.clock + (sampler.func progress.calls).duration
  | i + 1 =>
    completion progress i + sampler.sleep +
      (sampler.func (progress.calls + (i + 1))).duration

/-- The results up to the sample that is so far from here. -/
def resultsTo (progress : Progress) (i : Nat) : List R :=
  (List.range (i + 1)).map fun j => (sampler.func (progress.calls + j)).result

/-- A sample at which the loop goes on, and which is within the timeout from the start of this
iteration, is within the timeout from the start of the first one. -/
def Unshortened (progress : Progress) (turn : Turn R) : Prop :=
  ∀ startTime, progress.startTime = some startTime → ∀ i,
    (∀ j ≤ i, turn.use.leaves (sampler.resultsTo (turn.begin progress) j) = false) →
      sampler.completion (turn.begin progress) i ≤
          (turn.begin progress).clock + sampler.timeout →
        sampler.completion (turn.begin progress) i ≤ startTime + sampler.timeout

/-! ## One iteration -/

section

variable {sampler}

omit [BEq R]

theorem completion_mono (progress : Progress) : Monotone (sampler.completion progress) := by
  apply monotone_nat_of_le_succ
  intro i
  exact le_self_add.trans le_self_add

theorem completion_slept_sampled (progress : Progress) (i : Nat) :
    sampler.completion (sampler.slept (sampler.sampled progress)) i =
      sampler.completion progress (i + 1) := by
  induction i with
  | zero => rfl
  | succ i ih =>
    have hcalls : progress.calls + 1 + (i + 1) = progress.calls + (i + 1 + 1) := by omega
    change sampler.completion _ i + sampler.sleep +
      (sampler.func (progress.calls + 1 + (i + 1))).duration = _
    rw [ih, hcalls]
    rfl

theorem resultsTo_succ (progress : Progress) (i : Nat) :
    sampler.resultsTo progress (i + 1) =
      (sampler.func progress.calls).result ::
        sampler.resultsTo (sampler.slept (sampler.sampled progress)) i := by
  unfold resultsTo
  rw [List.range_succ_eq_map, List.map_cons, List.map_map]
  refine congrArg (List.cons _) (List.map_congr_left fun j _ => ?_)
  change (sampler.func (progress.calls + (j + 1))).result =
    (sampler.func (progress.calls + 1 + j)).result
  congr 2
  omega

/-- The iteration ends at the sample that is so far from here. -/
structure EndsAt (sampler : TimeoutingSampler R) (start : ℚ≥0) (leaves : List R → Bool)
    (progress : Progress) (iteration : Iteration R) (n : Nat) : Prop where
  results : iteration.samples.map Yielded.result = sampler.resultsTo progress n
  completions :
    iteration.samples.map Yielded.completed = (List.range (n + 1)).map (sampler.completion progress)
  goes_on : ∀ i < n, leaves (sampler.resultsTo progress i) = false ∧
    sampler.completion progress i ≤ start + sampler.timeout
  ended : match iteration.ended with
    | .left => leaves (sampler.resultsTo progress n) = true
    | .raised => leaves (sampler.resultsTo progress n) = false ∧
        start + sampler.timeout < sampler.completion progress n

/-- A round that goes on comes before the rounds of the rest. -/
theorem EndsAt.cons {start : ℚ≥0} {leaves : List R → Bool} {progress : Progress}
    {rest : Iteration R} {n : Nat}
    (hleaves : leaves [(sampler.func progress.calls).result] = false)
    (hin : (sampler.sampled progress).clock ≤ start + sampler.timeout)
    (h : EndsAt sampler start (fun later => leaves ((sampler.func progress.calls).result :: later))
      (sampler.slept (sampler.sampled progress)) rest n) :
    EndsAt sampler start leaves progress
      { rest with
        samples := ⟨(sampler.func progress.calls).result, (sampler.sampled progress).clock⟩ ::
          rest.samples } (n + 1) where
  results := by
    rw [resultsTo_succ, ← h.results]
    rfl
  completions := by
    rw [List.range_succ_eq_map, List.map_cons, List.map_cons, h.completions, List.map_map]
    refine congrArg (List.cons _) (List.map_congr_left fun i _ => ?_)
    exact completion_slept_sampled progress i
  goes_on := by
    intro i hi
    cases i with
    | zero => exact ⟨hleaves, hin⟩
    | succ i =>
      rw [resultsTo_succ, ← completion_slept_sampled]
      exact h.goes_on i (Nat.lt_of_succ_lt_succ hi)
  ended := by
    rw [resultsTo_succ, ← completion_slept_sampled]
    exact h.ended

/-- Every iteration ends at a sample. -/
theorem exists_endsAt (start : ℚ≥0) (leaves : List R → Bool) (progress : Progress) :
    ∃ n, EndsAt sampler start leaves progress (sampler.rounds start leaves progress).1 n := by
  fun_induction rounds sampler start leaves progress with
  | case1 leaves progress after result yielded hleaves =>
    exact ⟨0, rfl, rfl, nofun, hleaves⟩
  | case2 leaves progress after result yielded hleaves hlate =>
    exact ⟨0, rfl, rfl, nofun, Bool.eq_false_of_not_eq_true hleaves,
      lt_tsub_iff_left.mp hlate⟩
  | case3 leaves progress after result yielded hleaves hlate rest last hrest ih =>
    obtain ⟨n, hn⟩ := ih
    rw [hrest] at hn
    exact ⟨n + 1, hn.cons (Bool.eq_false_of_not_eq_true hleaves)
      (tsub_le_iff_left.mp (not_lt.mp hlate))⟩

theorem completion_setStart (progress : Progress) (startTime : Option ℚ≥0) (i : Nat) :
    sampler.completion { progress with startTime := startTime } i =
      sampler.completion progress i := by
  induction i with
  | zero => rfl
  | succ i ih => exact congrArg (· + _ + _) ih

/-- The time from which an iteration counts. -/
def countedFrom (progress : Progress) : ℚ≥0 := progress.startTime.getD progress.clock

theorem exists_endsAt_iter (leaves : List R → Bool) (progress : Progress) :
    ∃ n, EndsAt sampler (countedFrom progress) leaves progress
      (sampler.iter leaves progress).1 n := by
  unfold iter countedFrom
  cases hstart : progress.startTime with
  | some startTime => exact exists_endsAt startTime leaves progress
  | none =>
    obtain ⟨n, hn⟩ := @exists_endsAt R sampler progress.clock leaves
      { progress with startTime := some progress.clock }
    refine ⟨n, hn.results, ?_, ?_, ?_⟩
    · rw [hn.completions]
      exact List.map_congr_left fun i _ => completion_setStart progress _ i
    · intro i hi
      rw [← completion_setStart progress (some progress.clock)]
      exact hn.goes_on i hi
    · rw [← completion_setStart progress (some progress.clock)]
      exact hn.ended

namespace EndsAt

variable {start : ℚ≥0} {leaves : List R → Bool} {progress : Progress}
  {iteration : Iteration R} {n : Nat}

theorem samples_ne_nil (h : EndsAt sampler start leaves progress iteration n) :
    iteration.samples ≠ [] := by
  intro hnil
  have hresults := h.results
  rw [hnil, resultsTo, List.range_succ_eq_map] at hresults
  exact nomatch hresults

theorem in_time (h : EndsAt sampler start leaves progress iteration n) :
    ∀ yielded ∈ iteration.samples.dropLast, yielded.completed ≤ start + sampler.timeout := by
  intro yielded hyielded
  have hmem := List.mem_map_of_mem (f := Yielded.completed) hyielded
  rw [List.map_dropLast, h.completions, List.range_succ, List.map_append, List.map_singleton,
    List.dropLast_concat] at hmem
  obtain ⟨i, hi, hcompleted⟩ := List.mem_map.mp hmem
  rw [← hcompleted]
  exact (h.goes_on i (List.mem_range.mp hi)).2

theorem completed_last (h : EndsAt sampler start leaves progress iteration n) :
    ∃ last ∈ iteration.samples.getLast?, last.completed = sampler.completion progress n := by
  have hlast : iteration.samples.getLast?.map Yielded.completed =
      some (sampler.completion progress n) := by
    rw [← List.getLast?_map, h.completions, List.range_succ, List.map_append, List.map_singleton,
      List.getLast?_concat]
  exact Option.map_eq_some_iff.mp hlast

theorem ended_eq_left_iff (h : EndsAt sampler start leaves progress iteration n) :
    iteration.ended = .left ↔ leaves (sampler.resultsTo progress n) = true := by
  have hended := h.ended
  cases hcase : iteration.ended with
  | left =>
    rw [hcase] at hended
    exact iff_of_true rfl hended
  | raised =>
    rw [hcase] at hended
    exact iff_of_false nofun (Bool.not_eq_true _ ▸ hended.1)

end EndsAt

end

theorem isResult_resultsTo (result : R) (progress : Progress) (i : Nat) :
    isResult result (sampler.resultsTo progress i) =
      (result == (sampler.func (progress.calls + i)).result) := by
  unfold isResult resultsTo
  rw [List.range_succ, List.map_append, List.map_singleton, List.getLast?_concat]
  rfl

theorem waitForFuncStatus_eq_true_iff (result : R) (progress : Progress) :
    (sampler.waitForFuncStatus result progress).1 = true ↔
      (sampler.iter (isResult result) progress).1.ended = .left := by
  unfold waitForFuncStatus
  cases hended : (sampler.iter (isResult result) progress).1.ended with
  | left => simp only [hended]
  | raised => simp [hended]

/-- A wait returns whether one of the samples is the result that it waits for. -/
theorem waitForFuncStatus_iff_exists (result : R) (progress : Progress) :
    (sampler.waitForFuncStatus result progress).1 = true ↔
      ∃ yielded ∈ (sampler.iter (isResult result) progress).1.samples,
        result == yielded.result := by
  obtain ⟨n, hn⟩ := @exists_endsAt_iter R sampler (isResult result) progress
  have hmem : (∃ yielded ∈ (sampler.iter (isResult result) progress).1.samples,
      result == yielded.result) ↔
        ∃ found ∈ sampler.resultsTo progress n, result == found := by
    rw [← hn.results]
    simp only [List.mem_map, exists_exists_and_eq_and]
  rw [sampler.waitForFuncStatus_eq_true_iff, hn.ended_eq_left_iff, hmem, isResult_resultsTo]
  constructor
  · intro h
    exact ⟨_, List.mem_map.mpr ⟨n, List.mem_range.mpr n.lt_succ_self, rfl⟩, h⟩
  · intro ⟨found, hfound, h⟩
    obtain ⟨i, hi, hresult⟩ := List.mem_map.mp hfound
    rcases Nat.lt_succ_iff_lt_or_eq.mp (List.mem_range.mp hi) with hlt | heq
    · have hgoes := (hn.goes_on i hlt).1
      rw [isResult_resultsTo, hresult, h] at hgoes
      exact nomatch hgoes
    · rw [← heq, hresult]
      exact h

/-- The first iteration was not started later than now. -/
def StartedBefore (progress : Progress) : Prop :=
  ∀ startTime, progress.startTime = some startTime → startTime ≤ progress.clock

section

variable {sampler} {progress : Progress} {turn : Turn R}

omit [BEq R] in
theorem StartedBefore.countedFrom_le (h : StartedBefore progress) :
    countedFrom (turn.begin progress) ≤ (turn.begin progress).clock := by
  unfold countedFrom
  cases hstart : (turn.begin progress).startTime with
  | none => exact le_rfl
  | some startTime => exact (h startTime hstart).trans le_self_add

/-- A loop over an iteration that ends no earlier than this is not shortened. -/
theorem unshortened_of_lt {n : Nat}
    (hn : EndsAt sampler (countedFrom (turn.begin progress)) turn.use.leaves
      (turn.begin progress) (sampler.iteration progress turn) n)
    (hlt : ∀ i,
      (∀ j ≤ i, turn.use.leaves (sampler.resultsTo (turn.begin progress) j) = false) →
      sampler.completion (turn.begin progress) i ≤
        (turn.begin progress).clock + sampler.timeout → i < n) :
    sampler.Unshortened progress turn := by
  intro startTime hstart i hleaves hin
  have hcounted : countedFrom (turn.begin progress) = startTime :=
    congrArg (Option.getD · (turn.begin progress).clock) hstart
  rw [← hcounted]
  exact (hn.goes_on i (hlt i hleaves hin)).2

theorem unshortened_of_ends {n : Nat}
    (hn : EndsAt sampler (countedFrom (turn.begin progress)) turn.use.leaves
      (turn.begin progress) (sampler.iteration progress turn) n)
    (hends : sampler.Keeps progress turn) : sampler.Unshortened progress turn := by
  have hended := hn.ended
  have hlast := hends.ends
  apply unshortened_of_lt hn
  intro i hleaves hin
  apply Nat.lt_of_not_le
  intro hle
  cases hcase : (sampler.iteration progress turn).ended with
  | left =>
    rw [hcase] at hended
    exact nomatch (hleaves n hle).symm.trans hended
  | raised =>
    rw [hcase] at hlast
    obtain ⟨last, hmem, hlate⟩ := hlast
    obtain ⟨last', hmem', hcompleted⟩ := hn.completed_last
    obtain rfl : last = last' := Option.mem_unique hmem hmem'
    rw [hcompleted] at hlate
    exact absurd (hlate.trans_le (completion_mono _ hle)) (not_lt.mpr hin)

/-- An iteration that is not shortened raises late enough. -/
theorem ends_of_unshortened {n : Nat}
    (hn : EndsAt sampler (countedFrom (turn.begin progress)) turn.use.leaves
      (turn.begin progress) (sampler.iteration progress turn) n)
    (h : sampler.Unshortened progress turn)
    (hleaves : turn.use.leaves (sampler.resultsTo (turn.begin progress) n) = false)
    (hlate : countedFrom (turn.begin progress) + sampler.timeout <
      sampler.completion (turn.begin progress) n) :
    (turn.begin progress).clock + sampler.timeout <
      sampler.completion (turn.begin progress) n := by
  cases hstart : progress.startTime with
  | none =>
    have hcounted : countedFrom (turn.begin progress) = (turn.begin progress).clock :=
      congrArg (Option.getD · (turn.begin progress).clock) hstart
    rwa [hcounted] at hlate
  | some startTime =>
    have hcounted : countedFrom (turn.begin progress) = startTime :=
      congrArg (Option.getD · (turn.begin progress).clock) hstart
    rw [hcounted] at hlate
    apply lt_of_not_ge
    intro hin
    refine absurd (h startTime hstart n (fun j hj => ?_) hin) (not_le.mpr hlate)
    rcases Nat.lt_or_eq_of_le hj with hlt | rfl
    · exact (hn.goes_on j hlt).1
    · exact hleaves

/-- What decides over an iteration. -/
theorem keeps_iff_unshortened (h : StartedBefore progress) :
    sampler.Keeps progress turn ↔ sampler.Unshortened progress turn := by
  obtain ⟨n, hn⟩ := @exists_endsAt_iter R sampler turn.use.leaves (turn.begin progress)
  have hcounted : countedFrom (turn.begin progress) + sampler.timeout ≤
      (turn.begin progress).clock + sampler.timeout := add_le_add_left h.countedFrom_le _
  refine ⟨unshortened_of_ends hn, fun hunshortened => ?_⟩
  refine ⟨hn.samples_ne_nil, fun yielded hyielded => (hn.in_time yielded hyielded).trans hcounted,
    ?_, ?_⟩
  · have hended := hn.ended
    change match (sampler.iteration progress turn).ended with
      | .left => _
      | .raised => _ at hended
    cases hcase : (sampler.iteration progress turn).ended with
    | left =>
      simp only [hcase] at hended
      exact (congrArg turn.use.leaves hn.results).trans hended
    | raised =>
      simp only [hcase] at hended
      obtain ⟨last, hmem, hcompleted⟩ := hn.completed_last
      refine ⟨last, hmem, ?_⟩
      rw [hcompleted]
      exact ends_of_unshortened hn hunshortened hended.1 hended.2
  · intro result huse
    unfold iteration
    rw [huse]
    exact sampler.waitForFuncStatus_iff_exists result (turn.begin progress)

end

/-! ## All iterations on the object -/

section

variable {sampler}

omit [BEq R]

theorem rounds_progress (start : ℚ≥0) (leaves : List R → Bool) (progress : Progress) :
    (sampler.rounds start leaves progress).2.startTime = progress.startTime ∧
      progress.clock ≤ (sampler.rounds start leaves progress).2.clock := by
  fun_induction rounds sampler start leaves progress with
  | case1 leaves progress after result yielded hleaves => exact ⟨rfl, le_self_add⟩
  | case2 leaves progress after result yielded hleaves hlate => exact ⟨rfl, le_self_add⟩
  | case3 leaves progress after result yielded hleaves hlate rest last hrest ih =>
    rw [hrest] at ih
    exact ⟨ih.1, (le_self_add.trans le_self_add).trans ih.2⟩

/-- The start of the first iteration stays the one from which the sampler counts. -/
theorem iter_progress (leaves : List R → Bool) (progress : Progress) :
    (sampler.iter leaves progress).2.startTime = some (countedFrom progress) ∧
      progress.clock ≤ (sampler.iter leaves progress).2.clock := by
  unfold iter countedFrom
  cases hstart : progress.startTime with
  | none =>
    exact rounds_progress progress.clock leaves
      { progress with startTime := some progress.clock }
  | some startTime =>
    have h := @rounds_progress R sampler startTime leaves progress
    rw [hstart] at h
    exact h

end

theorem StartedBefore.step {progress next : Progress} {turn : Turn R}
    (h : StartedBefore progress) (hstep : sampler.step progress turn = some next) :
    StartedBefore next := by
  obtain rfl := Option.some.inj hstep
  obtain ⟨hstart, hclock⟩ := @iter_progress R sampler turn.use.leaves (turn.begin progress)
  intro startTime hstartTime
  obtain rfl := Option.some.inj (hstart.symm.trans hstartTime)
  exact h.countedFrom_le.trans hclock

/-- Every iteration on the object is as it should be exactly if none of them has a sample at which
the loop goes on, which completes within the timeout from the start of the iteration, but not
within the timeout from the start of the first iteration on the object. -/
theorem iterations_kept_iff (clock : ℚ≥0) (turns : List (Turn R)) :
    EveryStep sampler.step sampler.Keeps (created clock) turns ↔
      EveryStep sampler.step sampler.Unshortened (created clock) turns := by
  have hcreated : StartedBefore (created clock) := nofun
  exact everyStep_congr (I := StartedBefore) (fun h hstep => StartedBefore.step sampler h hstep)
    (fun h => keeps_iff_unshortened h) hcreated

/-- A function that answers at once, sampled for ten seconds. -/
def answersAtOnce : TimeoutingSampler Bool where
  timeout := 10
  sleep := 1
  sleep_pos := one_pos
  func := fun _ => { result := false, duration := 0 }

/-- A loop that is left at the first sample. -/
theorem step_answersAtOnce :
    answersAtOnce.step (created 0) { gap := 0, use := .loop fun _ => true } =
      some { clock := 0, calls := 1, startTime := some 0, lastSampleTime := some 0 } := by
  change some (rounds answersAtOnce (0 + 0) (fun _ => true) _).2 = _
  rw [rounds]
  simp [sampled, answersAtOnce, Turn.begin, created]

/-- The second iteration starts when the timeout from the start of the first one is over, and
ends after one sample. -/
theorem second_iteration_shortened :
    ¬ EveryStep answersAtOnce.step answersAtOnce.Keeps (created 0)
      [{ gap := 0, use := .loop fun _ => true }, { gap := 100, use := .wait true }] := by
  intro h
  have hkept := ((h _ step_answersAtOnce).2 _ rfl).1
  rw [keeps_iff_unshortened (by simp [StartedBefore])] at hkept
  have hlate : (0 + 100 + 0 : ℚ≥0) ≤ 0 + 10 :=
    hkept 0 rfl 0 (fun j hj => by rw [Nat.le_zero.mp hj]; rfl) (by
      change (0 + 100 + 0 : ℚ≥0) ≤ 0 + 100 + 10
      norm_num)
  norm_num at hlate

end TimeoutingSampler

end OvirtArt.CoreApi
