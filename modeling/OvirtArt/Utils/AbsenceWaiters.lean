import OvirtArt.CoreApi.SampledLoops
import OvirtArt.TestsLib.HostStates

set_option autoImplicit false

/-!
# Waiting for objects and tasks to be gone

`waitUntilGone` and `wait_for_tasks` of `utils/test_utils.py`.  Each polls until a reply is a false
value.  An empty list is one, and so is `None`, which is the reply to a request that is refused.

The replies are any stream of lists, refusals and exceptions, each with the time that it takes.
The SQL query, and how the data center is looked up, are left out.
-/

namespace OvirtArt.Utils.AbsenceWaiters

open OvirtArt.CoreApi
open OvirtArt.TestsLib.HostStates (TextOrList listNames)

/-- What the functions raise. -/
inductive WaiterException where
  /-- `APITimeout` of `core_api/apis_exceptions.py`, which the sampler of `apis_utils` raises. -/
  | apiTimeout
  | entityNotFound
  deriving DecidableEq, Repr

/-- A period between two polls. -/
structure Period where
  sleep : ℚ≥0
  sleep_pos : 0 < sleep

/-- `not reply`. -/
def falsy {α : Type} : Option (List α) → Bool
  | none => true
  | some members => members.isEmpty

/-! ## The source -/

/-- What the loops do at a reply: they are left at one that is a false value. -/
def goneVerdict {α β : Type} (value : β) (reply : Option (List α)) : Option β :=
  if falsy reply then some value else none

/-- `' or '.join(['%s="%s"' % (search_by, templ) for templ in objlist])`. -/
def goneQuery (names : TextOrList) (searchBy : Text) : Text :=
  Text.join " or ".toList
    ((listNames names).map fun templ => searchBy ++ "=\"".toList ++ templ ++ "\"".toList)

/-- The sampler of `waitUntilGone`, which calls `api.query`.  Of the objects that a reply holds it
is given what they have under `search_by`. -/
def goneSampler (names : TextOrList) (query : Text → Nat → Sample (Option (List Text)))
    (timeout : ℚ≥0) (samplingPeriod : Period) (searchBy : Text) :
    TimeoutingSampler (Option (List Text)) where
  timeout := timeout
  sleep := samplingPeriod.sleep
  sleep_pos := samplingPeriod.sleep_pos
  func := query (goneQuery names searchBy)

/-- `waitUntilGone`, which begins at `clock`. -/
def waitUntilGone (clock : ℚ≥0) (positive : Bool) (names : TextOrList)
    (query : Text → Nat → Sample (Option (List Text))) (timeout : ℚ≥0) (samplingPeriod : Period)
    (searchBy : Text) : Except WaiterException Bool :=
  match (goneSampler names query timeout samplingPeriod searchBy).forLoop clock
      (stateless (goneVerdict positive)) ⟨⟩ with
  | some value => .ok value
  | none => .error .apiTimeout

/-- The sampler of `wait_for_tasks`, which calls `get_running_tasks`. -/
def tasksSampler {Task : Type} (getRunningTasks : Text → Nat → Sample (Option (List Task)))
    (spId : Text) (timeout : ℚ≥0) (sleep : Period) :
    TimeoutingSampler (Option (List Task)) where
  timeout := timeout
  sleep := sleep.sleep
  sleep_pos := sleep.sleep_pos
  func := getRunningTasks spId

/-- `wait_for_tasks`: the `except` clause only logs, and so does the `finally` block. -/
def waitForTasks {Task : Type} (clock : ℚ≥0) (find : Text → Except WaiterException Text)
    (getRunningTasks : Text → Nat → Sample (Option (List Task))) (datacenter : Text)
    (timeout : ℚ≥0) (sleep : Period) : Except WaiterException Unit :=
  match find datacenter with
  | .error e => .error e
  | .ok spId =>
    match (tasksSampler getRunningTasks spId timeout sleep).forLoop clock
        (stateless (goneVerdict ⟨⟩)) ⟨⟩ with
    | some value => .ok value
    | none => .ok ⟨⟩

/-! ## What is asked of them -/

section

variable {α : Type} (sampler : TimeoutingSampler (Option (List α))) (clock : ℚ≥0)

/-- The poll is made: it is in time, and no reply before is a false value. -/
def Polled (n : Nat) : Prop :=
  sampler.InTime clock n ∧ ∀ i < n, falsy (sampler.resultAt i) = false

/-- The reply is a list without such members. -/
def Without (member : α → Prop) (reply : Option (List α)) : Prop :=
  ∃ members, reply = some members ∧ ∀ a ∈ members, ¬ member a

/-- Some poll is answered with a list without such members. -/
def SeenGone (member : α → Prop) : Prop :=
  ∃ n, Polled sampler clock n ∧ Without member (sampler.resultAt n)

/-- The waiter returns only if it has seen that, and raises `APITimeout` otherwise. -/
structure Waits {β : Type} (member : α → Prop) (result : Except WaiterException β) : Prop where
  returns : ∀ value, result = .ok value → SeenGone sampler clock member
  raises : ¬ SeenGone sampler clock member → result = .error .apiTimeout

/-- No request is refused, unless a poll before has shown that there are no such members. -/
def NoneRefused (member : α → Prop) : Prop :=
  ∀ n, Polled sampler clock n → sampler.resultAt n = none →
    ∃ i < n, Without member (sampler.resultAt i)

end

/-! ## The loops -/

section

variable {α β : Type} {sampler : TimeoutingSampler (Option (List α))} {clock : ℚ≥0} {value : β}
  {member : α → Prop} {n : Nat} {reply : Option (List α)}

theorem goneVerdict_eq_none_iff : goneVerdict value reply = none ↔ falsy reply = false := by
  unfold goneVerdict
  cases falsy reply with
  | true => exact iff_of_false nofun nofun
  | false => exact iff_of_true rfl rfl

theorem goneVerdict_eq_some_iff {other : β} :
    goneVerdict value reply = some other ↔ falsy reply = true ∧ value = other := by
  unfold goneVerdict
  cases falsy reply with
  | true => exact Option.some_inj.trans ⟨fun h => ⟨rfl, h⟩, fun h => h.2⟩
  | false => exact iff_of_false nofun fun h => nomatch h.1

theorem reached_iff : sampler.Reached clock (goneVerdict value) n ↔ Polled sampler clock n := by
  unfold TimeoutingSampler.Reached Polled
  simp only [goneVerdict_eq_none_iff]

/-- The loop is left at the first reply that is a false value. -/
theorem loop_eq_some_iff {other : β} :
    sampler.forLoop clock (stateless (goneVerdict value)) ⟨⟩ = some other ↔
      value = other ∧ ∃ n, Polled sampler clock n ∧ falsy (sampler.resultAt n) = true := by
  rw [TimeoutingSampler.forLoop_stateless_eq_some_iff]
  simp only [reached_iff, goneVerdict_eq_some_iff]
  constructor
  · rintro ⟨n, hpolled, hfalsy, hvalue⟩
    exact ⟨hvalue, n, hpolled, hfalsy⟩
  · rintro ⟨hvalue, n, hpolled, hfalsy⟩
    exact ⟨n, hpolled, hfalsy, hvalue⟩

theorem falsy_cases (h : falsy reply = true) : reply = none ∨ reply = some [] := by
  cases reply with
  | none => exact .inl rfl
  | some members => exact .inr (congrArg some (List.isEmpty_iff.mp h))

theorem without_nil : Without member (some []) := ⟨[], rfl, nofun⟩

theorem not_without_none : ¬ Without member (none : Option (List α)) := by
  rintro ⟨members, h, -⟩
  exact nomatch h

/-- A poll that is made comes no later than the first reply that is a false value. -/
theorem Polled.le {m : Nat} (h : Polled sampler clock m)
    (hfalsy : falsy (sampler.resultAt n) = true) : m ≤ n := by
  by_contra hlt
  exact nomatch (h.2 n (Nat.lt_of_not_le hlt)).symm.trans hfalsy

theorem Polled.before (h : Polled sampler clock n) {i : Nat} (hi : i < n) :
    Polled sampler clock i :=
  ⟨h.1.mono hi.le, fun j hj => h.2 j (hj.trans hi)⟩

/-- A loop that is left has seen that the members are gone exactly if the reply at which it is left
is no refusal, or one before has shown that. -/
theorem seenGone_iff (hpolled : Polled sampler clock n)
    (hfalsy : falsy (sampler.resultAt n) = true) :
    SeenGone sampler clock member ↔ NoneRefused sampler clock member := by
  constructor
  · rintro ⟨m, hm, hgone⟩ k hk hnone
    have hkfalsy : falsy (sampler.resultAt k) = true := by rw [hnone]; rfl
    rcases Nat.lt_or_eq_of_le (hm.le hkfalsy) with hlt | rfl
    · exact ⟨m, hlt, hgone⟩
    · rw [hnone] at hgone
      exact absurd hgone not_without_none
  · intro h
    rcases falsy_cases hfalsy with hnone | hnil
    · obtain ⟨i, hi, hgone⟩ := h n hpolled hnone
      exact ⟨i, hpolled.before hi, hgone⟩
    · exact ⟨n, hpolled, by rw [hnil]; exact without_nil⟩

end

/-! ## The waiters -/

section

variable {clock : ℚ≥0} {positive : Bool} {names : TextOrList}
  {query : Text → Nat → Sample (Option (List Text))} {timeout : ℚ≥0} {samplingPeriod : Period}
  {searchBy : Text}

/-- `waitUntilGone` is right exactly if none of its requests is refused. -/
theorem waits_waitUntilGone_iff :
    Waits (goneSampler names query timeout samplingPeriod searchBy) clock (· ∈ listNames names)
        (waitUntilGone clock positive names query timeout samplingPeriod searchBy) ↔
      NoneRefused (goneSampler names query timeout samplingPeriod searchBy) clock
        (· ∈ listNames names) := by
  unfold waitUntilGone
  generalize goneSampler names query timeout samplingPeriod searchBy = sampler
  cases hloop : sampler.forLoop clock (stateless (goneVerdict positive)) ⟨⟩ with
  | none =>
    refine iff_of_true ⟨nofun, fun _ => rfl⟩ fun n hpolled hnone => ?_
    have hfalsy : falsy (sampler.resultAt n) = true := by rw [hnone]; rfl
    have hleft := (@loop_eq_some_iff _ _ sampler clock positive positive).mpr
      ⟨rfl, n, hpolled, hfalsy⟩
    exact nomatch hloop.symm.trans hleft
  | some value =>
    obtain ⟨-, n, hpolled, hfalsy⟩ := loop_eq_some_iff.mp hloop
    rw [← seenGone_iff hpolled hfalsy]
    constructor
    · intro h
      exact h.returns value rfl
    · intro h
      exact ⟨fun _ _ => h, fun hnot => absurd h hnot⟩

variable {Task : Type} {find : Text → Except WaiterException Text}
  {getRunningTasks : Text → Nat → Sample (Option (List Task))} {datacenter spId : Text}
  {sleep : Period}

/-- `wait_for_tasks` returns in any case. -/
theorem waitForTasks_eq_ok (hfind : find datacenter = .ok spId) :
    waitForTasks clock find getRunningTasks datacenter timeout sleep = .ok ⟨⟩ := by
  unfold waitForTasks
  rw [hfind]
  dsimp only
  cases (tasksSampler getRunningTasks spId timeout sleep).forLoop clock
      (stateless (goneVerdict ())) ⟨⟩ with
  | none => rfl
  | some value => rfl

theorem waits_waitForTasks_iff (hfind : find datacenter = .ok spId) :
    Waits (tasksSampler getRunningTasks spId timeout sleep) clock (fun _ => True)
        (waitForTasks clock find getRunningTasks datacenter timeout sleep) ↔
      ∃ n, Polled (tasksSampler getRunningTasks spId timeout sleep) clock n ∧
        (tasksSampler getRunningTasks spId timeout sleep).resultAt n = some [] := by
  rw [waitForTasks_eq_ok hfind]
  generalize tasksSampler getRunningTasks spId timeout sleep = sampler
  have hseen : SeenGone sampler clock (fun _ => True) ↔
      ∃ n, Polled sampler clock n ∧ sampler.resultAt n = some [] := by
    refine exists_congr fun n => and_congr_right fun _ => ?_
    constructor
    · rintro ⟨members, hmembers, hnone⟩
      rw [hmembers, List.eq_nil_iff_forall_not_mem.mpr fun a ha => hnone a ha trivial]
    · intro hnil
      rw [hnil]
      exact without_nil
  rw [← hseen]
  constructor
  · intro h
    exact h.returns ⟨⟩ rfl
  · intro h
    exact ⟨fun _ _ => h, fun hnot => absurd h hnot⟩

end

/-- `waitUntilGone` is right exactly if none of its requests is refused, and `wait_for_tasks`
exactly if an empty list is the first of its replies that is a false value, and in time. -/
theorem absence_waiters_iff (clock : ℚ≥0) (positive : Bool) (names : TextOrList)
    (query : Text → Nat → Sample (Option (List Text))) (timeout : ℚ≥0) (samplingPeriod : Period)
    (searchBy : Text) {Task : Type} (getRunningTasks : Text → Nat → Sample (Option (List Task)))
    (datacenter spId : Text) (tasksTimeout : ℚ≥0) (sleep : Period) :
    (Waits (goneSampler names query timeout samplingPeriod searchBy) clock (· ∈ listNames names)
        (waitUntilGone clock positive names query timeout samplingPeriod searchBy) ↔
      NoneRefused (goneSampler names query timeout samplingPeriod searchBy) clock
        (· ∈ listNames names)) ∧
    (Waits (tasksSampler getRunningTasks spId tasksTimeout sleep) clock (fun _ => True)
        (waitForTasks clock (fun _ => .ok spId) getRunningTasks datacenter tasksTimeout sleep) ↔
      ∃ n, Polled (tasksSampler getRunningTasks spId tasksTimeout sleep) clock n ∧
        (tasksSampler getRunningTasks spId tasksTimeout sleep).resultAt n = some []) :=
  ⟨waits_waitUntilGone_iff, waits_waitForTasks_iff rfl⟩

/-- The same reply to each poll. -/
def always {α : Type} (reply : Option (List α)) (_ : Text) (_ : Nat) : Sample (Option (List α))
    where
  result := reply
  duration := 0

/-- Five seconds. -/
def fiveSeconds : Period where
  sleep := (5 : Nat)
  sleep_pos := five_seconds_pos

/-- A refused request counts as the disappearance of a VM, and a task that does not end as one that
has. -/
theorem refused_poll_and_running_task_count_as_gone :
    (waitUntilGone 0 true (.text "vm_1".toList) (always none) (60 : Nat) fiveSeconds
        "name".toList = .ok true ∧
      ¬ Waits (goneSampler (.text "vm_1".toList) (always none) (60 : Nat) fiveSeconds
        "name".toList) 0 (· ∈ listNames (.text "vm_1".toList))
        (waitUntilGone 0 true (.text "vm_1".toList) (always none) (60 : Nat) fiveSeconds
          "name".toList)) ∧
    (waitForTasks 0 (fun _ => .ok []) (always (some [1])) "dc".toList (300 : Nat) fiveSeconds
        = .ok ⟨⟩ ∧
      ¬ Waits (tasksSampler (always (some [1])) [] (300 : Nat) fiveSeconds) 0 (fun _ => True)
        (waitForTasks 0 (fun _ => .ok []) (always (some [1])) "dc".toList (300 : Nat)
          fiveSeconds)) := by
  have hfirst : Polled (goneSampler (.text "vm_1".toList) (always none) (60 : Nat) fiveSeconds
      "name".toList) 0 0 := ⟨TimeoutingSampler.inTime_zero _ _, nofun⟩
  refine ⟨⟨?_, fun h => ?_⟩, waitForTasks_eq_ok rfl, fun h => ?_⟩
  · unfold waitUntilGone
    rw [loop_eq_some_iff.mpr ⟨rfl, 0, hfirst, rfl⟩]
  · obtain ⟨i, hi, -⟩ := waits_waitUntilGone_iff.mp h 0 hfirst rfl
    exact absurd hi (Nat.not_lt_zero i)
  · obtain ⟨n, -, hnil⟩ := (waits_waitForTasks_iff rfl).mp h
    exact nomatch hnil

end OvirtArt.Utils.AbsenceWaiters
