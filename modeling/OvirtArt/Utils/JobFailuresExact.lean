import OvirtArt.Utils.JobFailures

set_option autoImplicit false

/-!
# Which failures `jobs.py` gets over

A job is settled, and its worker goes on, exactly if no handler of `running_event` raises, no
handler of `finished_event` that is called before the accounting one raises, and what escapes
from `Job.start` in the end, if anything, is an `Exception`.

The invariant counts the jobs that were put by where they are.  It is kept by every step, and the
condition on the jobs is what one step needs.
-/

namespace OvirtArt.Utils.JobFailures

open OvirtArt.Foundation
open OvirtArt.Utils.Jobs (JobState WorkerState)

variable {ρ : Type}

/-! ## Events -/

/-- What the handler raises. -/
def Handler.raises : Handler → Option BaseException
  | .user raises => raises
  | _ => Option.none

/-- What the first handler that raises does raise. -/
def Event.raised (event : Event) : Option BaseException := event.findSome? Handler.raises

/-- The handlers that are called and return. -/
def Event.passed (event : Event) : List Handler :=
  event.takeWhile fun handler => handler.raises = none

/-- How often `task_done()` is called. -/
def Event.accounted (event : Event) : Nat := event.passed.count .jobDoneHandler

/-- How a procedure ends: with this exception, or normally. -/
def ending (raised : Option BaseException) (t : Scene ρ) :
    EStateM.Result BaseException (Scene ρ) Unit :=
  match raised with
  | none => .ok () t
  | some e => .error e t

/-- `task_done()` has been called so often in between, and the job is as it was. -/
structure Scene.Advances (s t : Scene ρ) (count : Nat) : Prop where
  job : t.job = s.job
  taskDones : t.taskDones = s.taskDones + count
  unfinished : t.unfinishedTasks + count = s.unfinishedTasks

theorem Scene.Advances.refl (s : Scene ρ) : s.Advances s 0 := ⟨rfl, rfl, rfl⟩

theorem Scene.Advances.trans {s t u : Scene ρ} {m n : Nat} (hst : s.Advances t m)
    (htu : t.Advances u n) : s.Advances u (m + n) where
  job := htu.job.trans hst.job
  taskDones := by rw [htu.taskDones, hst.taskDones, Nat.add_assoc]
  unfinished := by
    have hfirst := hst.unfinished
    have hsecond := htu.unfinished
    omega

/-- A handler that returns, with unfinished tasks for it to account. -/
theorem run_call {handler : Handler} {s : Scene ρ} (hraises : handler.raises = none)
    (hunfinished : [handler].count .jobDoneHandler ≤ s.unfinishedTasks) :
    ∃ t, handler.call.run s = .ok () t ∧ s.Advances t ([handler].count .jobDoneHandler) := by
  cases handler with
  | none => exact ⟨s, rfl, .refl s⟩
  | jobDoneHandler =>
    obtain ⟨job, unfinished, allDone, anyDone, taskDones⟩ := s
    cases unfinished with
    | zero => simp at hunfinished
    | succ unfinished => exact ⟨_, rfl, rfl, rfl, rfl⟩
  | anyDoneSet => exact ⟨_, rfl, rfl, rfl, rfl⟩
  | user raises =>
    obtain rfl : raises = none := hraises
    exact ⟨s, rfl, .refl s⟩

theorem run_call_raises {handler : Handler} {e : BaseException} (s : Scene ρ)
    (hraises : handler.raises = some e) : handler.call.run s = .error e s := by
  cases handler with
  | user raises =>
    obtain rfl : raises = some e := hraises
    rfl
  | _ => cases hraises

/-- An event calls its handlers up to the first that raises. -/
theorem run_invoke (event : Event) (s : Scene ρ)
    (hunfinished : event.count .jobDoneHandler ≤ s.unfinishedTasks) :
    ∃ t, event.invoke.run s = ending event.raised t ∧ s.Advances t event.accounted := by
  induction event generalizing s with
  | nil => exact ⟨s, rfl, .refl s⟩
  | cons handler rest ih =>
    have hinvoke : Event.invoke (handler :: rest) =
        (do handler.call; Event.invoke rest : Proc ρ Unit) := rfl
    rw [hinvoke, EStateM.run_bind]
    cases hraises : handler.raises with
    | some e =>
      rw [run_call_raises s hraises]
      refine ⟨s, by simp [Event.raised, hraises, ending], ?_⟩
      simpa [Event.accounted, Event.passed, hraises] using Scene.Advances.refl s
    | none =>
      have hsplit : List.count .jobDoneHandler (handler :: rest) =
          rest.count .jobDoneHandler + [handler].count .jobDoneHandler := by
        rw [List.count_cons, List.count_singleton]
      obtain ⟨t, hcall, hfirst⟩ := @run_call ρ handler s hraises (by omega)
      have hrest : rest.count .jobDoneHandler ≤ t.unfinishedTasks := by
        have hkept := hfirst.unfinished
        omega
      obtain ⟨u, hrun, hsecond⟩ := ih t hrest
      refine ⟨u, ?_, ?_⟩
      · rw [hcall]
        simpa [Event.raised, hraises] using hrun
      · have haccounted : Event.accounted (handler :: rest) =
            [handler].count .jobDoneHandler + Event.accounted rest := by
          simp [Event.accounted, Event.passed, hraises, List.count_cons, Nat.add_comm]
        rw [haccounted]
        exact hfirst.trans hsecond

/-! ## `Job.start` -/

namespace Job

/-- What is still to be raised when the `finally` of `start` begins. -/
def pending (job : Job ρ) : Option BaseException :=
  match job.target with
  | .ok _ => none
  | .error e => if e.isException then job.exceptionEvent.raised else some e

/-- What escapes from `start`: a handler of `finished_event` that raises takes the place of
what has been raised before. -/
def escaping (job : Job ρ) : Option BaseException :=
  job.runningEvent.raised.or (job.finishedEvent.raised.or job.pending)

/-- How often `start` calls `task_done()`. -/
def accounted (job : Job ρ) : Nat :=
  if job.runningEvent.raised = none then job.finishedEvent.accounted else 0

/-- The state in which `start` leaves the job. -/
def left (job : Job ρ) : JobState :=
  if job.runningEvent.raised = none then .finished else .running

end Job

variable {event : Event}

/-- An event without the accounting handler accounts nothing. -/
theorem accounted_of_plain (h : .jobDoneHandler ∉ event) : event.accounted = 0 := by
  apply List.count_eq_zero.mpr
  intro hmem
  exact h ((List.takeWhile_subset _) hmem)

theorem run_invoke_plain (h : .jobDoneHandler ∉ event) (s : Scene ρ) :
    ∃ t, event.invoke.run s = ending event.raised t ∧ s.Advances t 0 := by
  have hcount : event.count .jobDoneHandler = 0 := List.count_eq_zero.mpr h
  rw [← accounted_of_plain h]
  exact run_invoke event s (by rw [hcount]; exact Nat.zero_le _)

/-- The `try` with its `except` accounts nothing. -/
theorem run_tryTarget (job : Job ρ) (s : Scene ρ) :
    ∃ t, job.tryTarget.run s = ending job.pending t ∧ t.taskDones = s.taskDones ∧
      t.unfinishedTasks = s.unfinishedTasks := by
  unfold Job.tryTarget Job.pending
  cases job.target with
  | ok result => exact ⟨_, rfl, rfl, rfl⟩
  | error e =>
    cases hkind : e.isException with
    | false =>
      simp only [hkind, Bool.false_eq_true, if_false]
      exact ⟨s, rfl, rfl, rfl⟩
    | true =>
      simp only [hkind, if_true]
      obtain ⟨t, hrun, _, hdones, hunfinished⟩ := run_invoke_plain job.exceptionPlain
        { s with job := { s.job with exception := some e } }
      exact ⟨t, hrun, hdones, hunfinished⟩

/-- The `finally` leaves the job finished. -/
theorem run_finish (job : Job ρ) (s : Scene ρ) (hunfinished : 1 ≤ s.unfinishedTasks) :
    ∃ t, job.finish.run s = ending job.finishedEvent.raised t ∧ t.job.state = .finished ∧
      t.taskDones = s.taskDones + job.finishedEvent.accounted ∧
      t.unfinishedTasks + job.finishedEvent.accounted = s.unfinishedTasks := by
  obtain ⟨t, hrun, hjob, hdones, hrest⟩ := run_invoke job.finishedEvent
    { s with job := { s.job with state := .finished } } (by rw [job.accounts]; exact hunfinished)
  exact ⟨t, hrun, congrArg Job.state hjob, hdones, hrest⟩

/-- `start`, as long as the job is accounted as unfinished. -/
theorem run_start (job : Job ρ) (s : Scene ρ) (hunfinished : 1 ≤ s.unfinishedTasks) :
    ∃ t, job.start.run s = ending job.escaping t ∧ t.job.state = job.left ∧
      t.taskDones = s.taskDones + job.accounted ∧
      t.unfinishedTasks + job.accounted = s.unfinishedTasks := by
  obtain ⟨t, hrunning, hadvance⟩ := run_invoke_plain job.runningPlain
    { s with job := { s.job with state := .running } }
  have hstart : job.start.run s =
      (do job.runningEvent.invoke; tryFinally job.tryTarget job.finish : Proc ρ Unit).run
        { s with job := { s.job with state := .running } } := rfl
  rw [hstart, EStateM.run_bind, hrunning]
  unfold Job.escaping Job.left Job.accounted
  cases hraised : job.runningEvent.raised with
  | some e =>
    exact ⟨t, rfl, congrArg Job.state hadvance.job, hadvance.taskDones, hadvance.unfinished⟩
  | none =>
    obtain ⟨u, htarget, hdones, hkept⟩ := run_tryTarget job t
    have hsame : t.unfinishedTasks = s.unfinishedTasks := hadvance.unfinished
    have hnone : t.taskDones = s.taskDones := hadvance.taskDones
    have hlive : 1 ≤ u.unfinishedTasks := by
      rw [hkept, hsame]
      exact hunfinished
    obtain ⟨v, hfinish, hstate, hcounted, hrest⟩ := run_finish job u hlive
    refine ⟨v, ?_, by rw [hstate]; rfl, ?_, ?_⟩
    · change (tryFinally job.tryTarget job.finish : Proc ρ Unit).run t = _
      rw [run_tryFinally, htarget]
      cases job.pending <;> cases hlast : job.finishedEvent.raised <;>
        simp [ending, hfinish, hlast]
    · rw [if_pos rfl, hcounted, hdones, hnone]
    · rw [if_pos rfl, hrest, hkept, hsame]

/-! ## Jobs that are got over -/

/-- The handlers before the accounting one. -/
def Event.beforeAccounting (event : Event) : Event :=
  event.takeWhile fun handler => handler ≠ .jobDoneHandler

/-- A job is accounted exactly if no handler before the accounting one raises. -/
theorem accounted_eq (h : event.count .jobDoneHandler = 1) :
    event.accounted = if event.beforeAccounting.raised = none then 1 else 0 := by
  induction event with
  | nil => exact absurd h (by decide)
  | cons handler rest ih =>
    by_cases hdone : handler = .jobDoneHandler
    · subst hdone
      have hrest : .jobDoneHandler ∉ rest := by
        rw [List.count_cons_self, Nat.add_eq_right] at h
        exact List.count_eq_zero.mp h
      have hnone : Event.accounted rest = 0 := accounted_of_plain hrest
      have hone : Event.accounted (.jobDoneHandler :: rest) = Event.accounted rest + 1 := by
        simp [Event.accounted, Event.passed, Handler.raises]
      rw [hone, hnone]
      rfl
    · rw [List.count_cons_of_ne hdone] at h
      have hbefore : Event.beforeAccounting (handler :: rest) =
          handler :: Event.beforeAccounting rest := by
        simp [Event.beforeAccounting, hdone]
      rw [hbefore]
      cases hraises : handler.raises with
      | some e => simp [Event.accounted, Event.passed, Event.raised, hraises]
      | none =>
        have hstep : Event.accounted (handler :: rest) = Event.accounted rest := by
          simp [Event.accounted, Event.passed, hraises, List.count_cons_of_ne hdone]
        have hraised : Event.raised (handler :: Event.beforeAccounting rest) =
            Event.raised (Event.beforeAccounting rest) := by
          simp [Event.raised, hraises]
        rw [hstep, hraised]
        exact ih h

/-- Nothing goes wrong with the job: no handler of `running_event` raises, none that is called
before the accounting one does, and what escapes in the end is an `Exception`. -/
structure Job.Tame (job : Job ρ) : Prop where
  running : job.runningEvent.raised = none
  accounted : job.finishedEvent.beforeAccounting.raised = none
  escaping : ∀ e, job.finishedEvent.raised.or job.pending = some e → e.isException = true

/-- The item lets its worker go on. -/
def Item.Tame : Item ρ → Prop
  | .suicideJob => False
  | .job taken => taken.Tame

/-- Where the thread of a worker in this state is after the job. -/
def Job.pcAfter (job : Job ρ) (state : WorkerState) : WorkerPc ρ :=
  match job.escaping with
  | none => .loop
  | some e => if e.isException then .loop else .ended state

/-- The job is finished, it has been accounted once, and the thread goes on, exactly if nothing
goes wrong with the job. -/
theorem tame_iff {job : Job ρ} (state : WorkerState) :
    job.Tame ↔ (job.left = .finished ∧ job.accounted = 1) ∧ job.pcAfter state = .loop := by
  unfold Job.left Job.accounted Job.pcAfter Job.escaping
  rw [accounted_eq job.accounts]
  cases hrunning : job.runningEvent.raised with
  | some e =>
    refine iff_of_false (fun htame => ?_) (by simp)
    rw [htame.running] at hrunning
    cases hrunning
  | none =>
    constructor
    · intro htame
      simp only [if_pos htame.accounted, if_true, true_and, Option.none_or]
      cases hlast : job.finishedEvent.raised.or job.pending with
      | none => rfl
      | some e => simp [htame.escaping e hlast]
    · rintro ⟨⟨-, haccounted⟩, hpc⟩
      refine ⟨hrunning, ?_, fun e hlast => ?_⟩
      · by_contra hraised
        simp [hraised] at haccounted
      · rw [Option.none_or, hlast] at hpc
        by_contra hkind
        simp [hkind] at hpc

/-! ## The system -/

/-- The worker has an item in hand. -/
def Worker.holds (worker : Worker ρ) : Bool :=
  match worker.pc with
  | .holding _ => true
  | _ => false

/-- A worker that has ended has ended in the state `STOPPED`. -/
def Worker.Orderly (worker : Worker ρ) : Prop :=
  ∀ state, worker.pc = .ended state → state = .stopped

/-- A worker in the state `STOPPED` has ended. -/
def Worker.Awake (worker : Worker ρ) : Prop :=
  worker.state = .stopped → ∃ state, worker.pc = .ended state

namespace System

/-- The number of items that have been taken and are not done with. -/
def held (s : System ρ) : Nat := s.workers.countP Worker.holds

/-- Everything in the queue or in a worker's hands is counted as unfinished, and a worker that
goes on has not stopped. -/
structure Consistent (s : System ρ) : Prop where
  counted : s.queue.length + s.held ≤ s.unfinishedTasks
  awake : ∀ worker ∈ s.workers, worker.Awake

end System

/-- The job has been left finished, or was the suicide marker, and `task_done()` has been
called for it once. -/
structure Consumed.Settled (consumed : Consumed ρ) : Prop where
  ended : match consumed.item with
    | .suicideJob => True
    | .job _ => consumed.state = some .finished
  taskDones : consumed.taskDones = 1

/-- Every job that a worker is done with is settled, every worker goes on or has stopped, and
no task is counted as unfinished but those that are waiting or being worked on. -/
structure System.Sound (s : System ρ) : Prop where
  settled : ∀ consumed ∈ s.consumed, consumed.Settled
  orderly : ∀ worker ∈ s.workers, worker.Orderly
  unfinished : s.unfinishedTasks = s.queue.length + s.held

/-! ## One step -/

namespace System

variable {workers : List (Worker ρ)} {worker : Worker ρ} {s t : System ρ} {state : WorkerState}
  {i : Nat} {act : Act ρ}

/-- A worker is replaced: the items in hand change by its own. -/
theorem countP_set (hworker : workers[i]? = some worker) (next : Worker ρ) :
    (workers.set i next).countP Worker.holds + (if worker.holds then 1 else 0) =
      workers.countP Worker.holds + (if next.holds then 1 else 0) := by
  obtain ⟨hi, rfl⟩ := List.getElem?_eq_some_iff.mp hworker
  rw [List.countP_set hi]
  have hle := List.boole_getElem_le_countP (p := Worker.holds) hi
  omega

theorem countP_set_same (hworker : workers[i]? = some worker) (next : Worker ρ)
    (hsame : next.holds = worker.holds) :
    (workers.set i next).countP Worker.holds = workers.countP Worker.holds := by
  have hset := countP_set hworker next
  rw [hsame] at hset
  exact Nat.add_right_cancel hset

theorem countP_set_take (hworker : workers[i]? = some worker) (hfree : worker.holds = false)
    (next : Worker ρ) (hholds : next.holds = true) :
    (workers.set i next).countP Worker.holds = workers.countP Worker.holds + 1 := by
  have hset := countP_set hworker next
  rw [hfree, hholds] at hset
  exact hset

theorem countP_set_done (hworker : workers[i]? = some worker) (hholds : worker.holds = true)
    (next : Worker ρ) (hfree : next.holds = false) :
    (workers.set i next).countP Worker.holds + 1 = workers.countP Worker.holds := by
  have hset := countP_set hworker next
  rw [hfree, hholds] at hset
  exact hset

theorem forall_mem_set {P : Worker ρ → Prop} {next : Worker ρ} (hall : ∀ worker ∈ workers, P worker)
    (hnext : P next) : ∀ worker ∈ workers.set i next, P worker := by
  intro worker hworker
  rcases List.mem_or_eq_of_mem_set hworker with hold | rfl
  · exact hall worker hold
  · exact hnext

theorem forall_mem_append_singleton {P : Worker ρ → Prop} {next : Worker ρ}
    (hall : ∀ worker ∈ workers, P worker) (hnext : P next) :
    ∀ worker ∈ workers ++ [next], P worker := by
  intro worker hworker
  rcases List.mem_append.mp hworker with hold | hnew
  · exact hall worker hold
  · rw [List.mem_singleton.mp hnew]
    exact hnext

/-- What a step can do. -/
inductive Step (s : System ρ) : Act ρ → System ρ → Prop
  | put (item : Item ρ) :
      Step s (.put item)
        { s with queue := s.queue ++ [item], unfinishedTasks := s.unfinishedTasks + 1 }
  | spawn :
      Step s .spawn { s with workers := s.workers ++ [{ state := .running, pc := .loop }] }
  | stop (i : Nat) (worker : Worker ρ) (hworker : s.workers[i]? = some worker) :
      Step s (.stop i) { s with workers := s.workers.set i { worker with state := .stopping } }
  | take (i : Nat) (item : Item ρ) (rest : List (Item ρ))
      (hworker : s.workers[i]? = some ⟨.running, .loop⟩) (hqueue : s.queue = item :: rest) :
      Step s (.take i)
        { s with queue := rest, workers := s.workers.set i ⟨.running, .holding item⟩ }
  | work (i : Nat) (state : WorkerState) (item : Item ρ)
      (hworker : s.workers[i]? = some ⟨state, .holding item⟩) :
      Step s (.work i) (s.work i ⟨state, .holding item⟩ item)
  | leave (i : Nat) (state : WorkerState) (hworker : s.workers[i]? = some ⟨state, .loop⟩) :
      Step s (.leave i) { s with workers := s.workers.set i ⟨.stopped, .ended .stopped⟩ }

theorem step_cases (h : s.step act = some t) : Step s act t := by
  cases act with
  | put item =>
    obtain rfl := Option.some.inj h
    exact .put item
  | spawn =>
    obtain rfl := Option.some.inj h
    exact .spawn
  | stop i =>
    obtain ⟨worker, hworker, rfl⟩ := Option.map_eq_some_iff.mp h
    exact .stop i worker hworker
  | take i =>
    simp only [step] at h
    split at h
    · obtain rfl := Option.some.inj h
      exact .take i _ _ ‹_› ‹_›
    · cases h
  | work i =>
    simp only [step] at h
    split at h
    · obtain rfl := Option.some.inj h
      exact .work i _ _ ‹_›
    · cases h
  | leave i =>
    simp only [step] at h
    split at h
    · split at h
      · cases h
      · obtain rfl := Option.some.inj h
        exact .leave i _ ‹_›
    · cases h

/-- Working on a job. -/
theorem work_job {s : System ρ} {i : Nat} {state : WorkerState} {pc : WorkerPc ρ} (job : Job ρ)
    (hunfinished : 1 ≤ s.unfinishedTasks) :
    ∃ scene : Scene ρ,
      s.work i ⟨state, pc⟩ (.job job) = s.close i ⟨state, job.pcAfter state⟩ job scene ∧
        scene.job.state = job.left ∧ scene.taskDones = job.accounted ∧
        scene.unfinishedTasks + job.accounted = s.unfinishedTasks := by
  obtain ⟨scene, hrun, hleft, hdones, hkept⟩ := run_start job (s.scene job) hunfinished
  refine ⟨scene, ?_, hleft, ?_, hkept⟩
  · simp only [work, Job.pcAfter, hrun]
    cases job.escaping <;> rfl
  · rw [hdones]
    exact Nat.zero_add _

theorem pcAfter_not_holding (job : Job ρ) (state other : WorkerState) :
    (⟨other, job.pcAfter state⟩ : Worker ρ).holds = false := by
  unfold Job.pcAfter
  cases job.escaping with
  | none => rfl
  | some e => cases hkind : e.isException <;> simp [Worker.holds, hkind]

theorem accounted_le_one (job : Job ρ) : job.accounted ≤ 1 := by
  unfold Job.accounted
  rw [accounted_eq job.accounts]
  split
  · split <;> decide
  · decide

/-- The count after a worker is done with an item in hand. -/
theorem held_close {job : Job ρ} (hworker : s.workers[i]? = some ⟨state, .holding (.job job)⟩)
    (scene : Scene ρ) : (s.close i ⟨state, job.pcAfter state⟩ job scene).held + 1 = s.held :=
  countP_set_done hworker rfl _ (pcAfter_not_holding job state state)

/-- Nothing that waits or is worked on gets lost from the count. -/
theorem consistent_step (hconsistent : s.Consistent) (hstep : s.step act = some t) :
    t.Consistent := by
  obtain ⟨hcounted, hawake⟩ := hconsistent
  cases step_cases hstep with
  | put item =>
    refine ⟨?_, hawake⟩
    simp only [held, List.length_append, List.length_singleton] at hcounted ⊢
    omega
  | spawn =>
    refine ⟨?_, forall_mem_append_singleton hawake fun h => by cases h⟩
    simpa [held, Worker.holds] using hcounted
  | stop i worker hworker =>
    refine ⟨?_, forall_mem_set hawake fun h => by cases h⟩
    have hset := countP_set_same hworker { worker with state := .stopping } rfl
    simp only [held] at hcounted ⊢
    omega
  | take i item rest hworker hqueue =>
    refine ⟨?_, forall_mem_set hawake fun h => by cases h⟩
    have hset := countP_set_take hworker rfl ⟨.running, .holding item⟩ rfl
    rw [hqueue, List.length_cons] at hcounted
    simp only [held] at hcounted ⊢
    omega
  | leave i state hworker =>
    refine ⟨?_, forall_mem_set hawake fun _ => ⟨.stopped, rfl⟩⟩
    have hset := countP_set_same hworker ⟨.stopped, .ended .stopped⟩ rfl
    simp only [held] at hcounted ⊢
    omega
  | work i state item hworker =>
    cases item with
    | suicideJob =>
      refine ⟨?_, forall_mem_set hawake fun _ => ⟨.stopped, rfl⟩⟩
      have hset := countP_set_done hworker rfl ⟨.stopped, .ended .stopped⟩ rfl
      simp only [held, work] at hcounted ⊢
      omega
    | job job =>
      have hpositive : 1 ≤ s.unfinishedTasks := by
        have hset := held_close hworker (s.scene job)
        omega
      obtain ⟨scene, hwork, -, -, hkept⟩ := @work_job ρ s i state (.holding (.job job)) job
        hpositive
      rw [hwork]
      have hset := held_close hworker scene
      have hone := accounted_le_one job
      have hlive := hawake _ (List.mem_of_getElem? hworker)
      refine ⟨?_, forall_mem_set hawake fun hstopped => ?_⟩
      · change s.queue.length + _ ≤ scene.unfinishedTasks
        omega
      · obtain ⟨other, hother⟩ := hlive hstopped
        cases hother

/-- The job that is worked on is one with which nothing goes wrong. -/
def Gentle (s : System ρ) : Act ρ → Prop
  | .work i =>
    match s.workers[i]? with
    | some ⟨_, .holding item⟩ => item.Tame
    | _ => True
  | _ => True

theorem gentle_work_iff {item : Item ρ} (hworker : s.workers[i]? = some ⟨state, .holding item⟩) :
    s.Gentle (.work i) ↔ item.Tame := by
  simp [Gentle, hworker]

theorem orderly_of_pc (h : ∀ state, worker.pc ≠ .ended state) :
    worker.Orderly := fun state hended => absurd hended (h state)

/-- What is left by a sound step of work on a job. -/
theorem tame_of_sound {job : Job ρ} {scene : Scene ρ}
    (hworker : s.workers[i]? = some ⟨state, .holding (.job job)⟩) (hstate : state ≠ .stopped)
    (hleft : scene.job.state = job.left) (hdones : scene.taskDones = job.accounted)
    (hsound : (s.close i ⟨state, job.pcAfter state⟩ job scene).Sound) : job.Tame := by
  have hlast := hsound.settled ⟨.job job, some scene.job.state, scene.taskDones⟩
    (List.mem_append_right _ List.mem_cons_self)
  have hfinished : some scene.job.state = some .finished := hlast.ended
  refine (tame_iff state).mpr ⟨⟨?_, ?_⟩, ?_⟩
  · rw [← hleft]
    exact Option.some.inj hfinished
  · rw [← hdones]
    exact hlast.taskDones
  · have hmem : ⟨state, job.pcAfter state⟩ ∈ s.workers.set i ⟨state, job.pcAfter state⟩ := by
      obtain ⟨hi, -⟩ := List.getElem?_eq_some_iff.mp hworker
      exact List.mem_set hi _
    have horderly := hsound.orderly _ hmem
    unfold Job.pcAfter at horderly ⊢
    cases hescaping : job.escaping with
    | none => rfl
    | some e =>
      cases hkind : e.isException with
      | true => simp [hkind]
      | false =>
        rw [hescaping] at horderly
        exact absurd (horderly state (by simp [hkind])) hstate

/-- A step leads from a sound state to a sound one exactly if it is gentle. -/
theorem sound_step_iff (hconsistent : s.Consistent) (hsound : s.Sound)
    (hstep : s.step act = some t) :
    t.Sound ↔ s.Gentle act := by
  obtain ⟨hsettled, horderly, hunfinished⟩ := hsound
  cases step_cases hstep with
  | put item =>
    refine iff_of_true ⟨hsettled, horderly, ?_⟩ trivial
    simp only [held, List.length_append, List.length_singleton] at hunfinished ⊢
    omega
  | spawn =>
    refine iff_of_true ⟨hsettled, ?_, ?_⟩ trivial
    · exact forall_mem_append_singleton horderly (orderly_of_pc fun state h => by cases h)
    · simpa [held, Worker.holds] using hunfinished
  | stop i worker hworker =>
    refine iff_of_true ⟨hsettled, ?_, ?_⟩ trivial
    · exact forall_mem_set horderly (horderly worker (List.mem_of_getElem? hworker))
    · have hset := countP_set_same hworker { worker with state := .stopping } rfl
      simp only [held] at hunfinished ⊢
      omega
  | take i item rest hworker hqueue =>
    refine iff_of_true ⟨hsettled, ?_, ?_⟩ trivial
    · exact forall_mem_set horderly (orderly_of_pc fun state h => by cases h)
    · have hset := countP_set_take hworker rfl ⟨.running, .holding item⟩ rfl
      rw [hqueue, List.length_cons] at hunfinished
      simp only [held] at hunfinished ⊢
      omega
  | leave i state hworker =>
    refine iff_of_true ⟨hsettled, ?_, ?_⟩ trivial
    · refine forall_mem_set horderly fun other hended => ?_
      exact (WorkerPc.ended.inj hended).symm
    · have hset := countP_set_same hworker ⟨.stopped, .ended .stopped⟩ rfl
      simp only [held] at hunfinished ⊢
      omega
  | work i state item hworker =>
    rw [gentle_work_iff hworker]
    cases item with
    | suicideJob =>
      refine iff_of_false (fun htame => ?_) id
      have hlast := htame.settled ⟨.suicideJob, none, 0⟩
        (List.mem_append_right _ List.mem_cons_self)
      exact absurd hlast.taskDones Nat.zero_ne_one
    | job job =>
      have hpositive : 1 ≤ s.unfinishedTasks := by
        have hset := held_close hworker (s.scene job)
        omega
      obtain ⟨scene, hwork, hleft, hdones, hkept⟩ :=
        @work_job ρ s i state (.holding (.job job)) job hpositive
      rw [hwork]
      constructor
      · have hstate : state ≠ .stopped := by
          intro hstopped
          obtain ⟨other, hother⟩ :=
            hconsistent.awake _ (List.mem_of_getElem? hworker) hstopped
          cases hother
        exact tame_of_sound hworker hstate hleft hdones
      · intro htame
        obtain ⟨⟨hfinished, hone⟩, hpc⟩ := (tame_iff state).mp htame
        refine ⟨?_, ?_, ?_⟩
        · intro consumed hconsumed
          rcases List.mem_append.mp hconsumed with hold | hnew
          · exact hsettled consumed hold
          · rw [List.mem_singleton.mp hnew]
            exact ⟨congrArg some (hleft.trans hfinished), hdones.trans hone⟩
        · refine forall_mem_set horderly (orderly_of_pc fun other => ?_)
          rw [hpc]
          intro h
          cases h
        · have hset := held_close hworker scene
          change scene.unfinishedTasks = s.queue.length + _
          omega

/-- In every run the system is sound in all states exactly if nothing goes wrong with the jobs
that are worked on. -/
theorem sound_iff_gentle (schedule : List (Act ρ)) :
    EveryState step Sound init schedule ↔ EveryStep step Gentle init schedule := by
  have hconsistent : (init : System ρ).Consistent :=
    ⟨Nat.le_refl 0, fun _ h => absurd h List.not_mem_nil⟩
  have hsound : (init : System ρ).Sound :=
    ⟨fun _ h => absurd h List.not_mem_nil, fun _ h => absurd h List.not_mem_nil, rfl⟩
  exact everyState_iff_everyStep consistent_step sound_step_iff hconsistent hsound

/-- A job with a handler of `running_event` that raises. -/
def unannounced : Job Unit where
  state := .inited
  target := .ok ()
  result := none
  exception := none
  runningEvent := [.user (some (.exception 1))]
  exceptionEvent := []
  finishedEvent := [.jobDoneHandler, .anyDoneSet]
  accounts := rfl
  runningPlain := by decide
  exceptionPlain := by decide

/-- The job stays `RUNNING`, and `task_done()` is never called for it. -/
theorem unannounced_is_lost :
    ¬ EveryState step Sound init [.spawn, .put (.job unannounced), .take 0, .work 0] := by
  intro h
  have hlast := ((((h.2 _ rfl).2 _ rfl).2 _ rfl).2 _ rfl)
  have hsettled := hlast.settled ⟨.job unannounced, some .running, 0⟩ List.mem_cons_self
  exact absurd hsettled.taskDones Nat.zero_ne_one

end System

end OvirtArt.Utils.JobFailures
