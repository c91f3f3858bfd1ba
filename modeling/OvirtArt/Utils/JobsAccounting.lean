import OvirtArt.Foundation.Lists
import OvirtArt.Utils.JobsMachine

set_option autoImplicit false

/-!
# The accounting of unfinished tasks

Every job that was put is in the queue, in the hands of a worker, accounted by
`task_done()`, or missed: finished while `__jobDoneHandler` was not attached to
it yet.  This balance holds in every reachable state, whatever the schedule.
`unfinished_tasks` counts all but the accounted ones, so that `join` waits for
a missed job for ever.

One step lemma for each atomic step gives the balance of every run.  No assumption is made of the
number of jobs or workers, or of the order of the steps.
-/

namespace OvirtArt.Utils.Jobs

open OvirtArt.Foundation

namespace JobsSet

/-- The jobs in the hands of the workers. -/
def held (set : JobsSet) : List JobId := set.threads.flatMap WorkerThread.held

/-- The balance of the set. -/
structure Balanced (set : JobsSet) : Prop where
  /-- each job was put as often as it is now somewhere -/
  jobs : ∀ job, set.ledger.put.count job =
    set.queue.items.count job + set.held.count job +
      set.ledger.doneFor.count job + set.ledger.missed.count job
  /-- `unfinished_tasks` counts the jobs that are not accounted -/
  unfinished : set.queue.unfinishedTasks =
    set.queue.items.length + set.held.length + set.ledger.missed.length

variable {set set' : JobsSet} {worker old : WorkerThread} {i : Nat} {job : JobId}

theorem count_held_setWorker (new : WorkerThread) (h : set.threads[i]? = some old) (job : JobId) :
    (set.setWorker i new).held.count job + old.held.count job =
      set.held.count job + new.held.count job :=
  count_flatMap_set new WorkerThread.held h job

theorem length_held_setWorker (new : WorkerThread) (h : set.threads[i]? = some old) :
    (set.setWorker i new).held.length + old.held.length =
      set.held.length + new.held.length :=
  length_flatMap_set new WorkerThread.held h

/-- A change that the balance does not see. -/
theorem Balanced.of_eq (h : set.Balanced) (hqueue : set'.queue = set.queue)
    (hledger : set'.ledger.put = set.ledger.put) (hdone : set'.ledger.doneFor = set.ledger.doneFor)
    (hmissed : set'.ledger.missed = set.ledger.missed) (hheld : set'.held = set.held) :
    set'.Balanced where
  jobs job := by rw [hqueue, hledger, hdone, hmissed, hheld]; exact h.jobs job
  unfinished := by rw [hqueue, hmissed, hheld]; exact h.unfinished

/-- A worker that changes nothing but itself, and not what it holds. -/
theorem Balanced.setWorker {new : WorkerThread} (h : set.Balanced)
    (hold : set.threads[i]? = some old) (hheld : new.held = old.held) :
    (set.setWorker i new).Balanced where
  jobs job := by
    have hcount := count_held_setWorker new hold job
    rw [hheld] at hcount
    have := h.jobs job
    simp only [JobsSet.setWorker] at hcount ⊢
    omega
  unfinished := by
    have hlength := length_held_setWorker new hold
    rw [hheld] at hlength
    have := h.unfinished
    simp only [JobsSet.setWorker] at hlength ⊢
    omega

theorem Balanced.put (h : set.Balanced) (hput : set.put job = some set') : set'.Balanced := by
  obtain rfl := put_some hput
  constructor
  · intro other
    have := h.jobs other
    simp only [held, List.count_cons, List.count_append, List.count_nil] at this ⊢
    omega
  · have := h.unfinished
    simp only [held, List.length_append, List.length_cons, List.length_nil] at this ⊢
    omega

/-- What a worker holds is unfinished. -/
theorem Balanced.unfinished_pos (h : set.Balanced) (hworker : set.threads[i]? = some worker)
    (hheld : worker.held = [job]) : ∃ unfinished, set.queue.unfinishedTasks = unfinished + 1 := by
  have hlength := length_held_setWorker WorkerThread.new hworker
  rw [hheld] at hlength
  have hunf := h.unfinished
  simp only [WorkerThread.held, WorkerThread.new, List.length_cons, List.length_nil] at hlength
  exact ⟨set.queue.unfinishedTasks - 1, by omega⟩

/-- A finished job is accounted and unfinished no longer, or missed. -/
theorem finishedEvent_accounts {unfinished : Nat} (job : JobId)
    (hunf : set.queue.unfinishedTasks = unfinished + 1) :
    (set.finishedEvent job).queue.items = set.queue.items ∧
      (set.finishedEvent job).ledger.put = set.ledger.put ∧
      (∀ other, (set.finishedEvent job).ledger.doneFor.count other +
          (set.finishedEvent job).ledger.missed.count other =
        set.ledger.doneFor.count other + set.ledger.missed.count other + [job].count other) ∧
      (set.finishedEvent job).queue.unfinishedTasks + set.ledger.missed.length + 1 =
        set.queue.unfinishedTasks + (set.finishedEvent job).ledger.missed.length := by
  by_cases hmem : Handler.jobDoneHandler ∈ set.handlers job
  · obtain ⟨hqueue, -, hledger⟩ := finishedEvent_done hmem hunf
    simp only [hqueue, hledger, List.count_cons, List.count_nil, true_and]
    exact ⟨fun other => by omega, by omega⟩
  · obtain ⟨hqueue, -, hledger⟩ := finishedEvent_missed hmem
    simp only [hqueue, hledger, List.count_cons, List.count_nil, List.length_cons, true_and]
    exact ⟨fun other => by omega, by omega⟩

/-- A finished job leaves the hands of its worker, accounted or missed. -/
theorem Balanced.finish (h : set.Balanced) (hworker : set.threads[i]? = some worker)
    (hpc : worker.pc = .finishing job) :
    ((set.finishedEvent job).setWorker i { worker with pc := .test }).Balanced := by
  have hheld := WorkerThread.held_of_finishing hpc
  have hnew : WorkerThread.held { worker with pc := .test } = [] := rfl
  obtain ⟨unfinished, hunf⟩ := h.unfinished_pos hworker hheld
  obtain ⟨hitems, hput, hcounts, hlengths⟩ := finishedEvent_accounts job hunf
  constructor
  · intro other
    have hcount := count_held_setWorker { worker with pc := .test } hworker other
    rw [hheld, hnew] at hcount
    have hjobs := h.jobs other
    have haccounts := hcounts other
    simp only [JobsSet.setWorker, held, hitems, hput, threads_finishedEvent, List.count_nil]
      at hcount hjobs haccounts ⊢
    omega
  · have hlength := length_held_setWorker { worker with pc := .test } hworker
    rw [hheld, hnew] at hlength
    have hbalance := h.unfinished
    simp only [JobsSet.setWorker, held, hitems, threads_finishedEvent, List.length_cons,
      List.length_nil] at hlength hbalance hlengths ⊢
    omega

/-- Every step of a worker keeps the balance. -/
theorem Balanced.workerStep (h : set.Balanced) (hworker : set.threads[i]? = some worker)
    (hstep : WorkerStep set i worker set') : set'.Balanced := by
  cases hstep with
  | begin hpc => exact h.setWorker hworker (by simp [WorkerThread.held, hpc])
  | loop hpc _ => exact h.setWorker hworker (by simp [WorkerThread.held, hpc])
  | leave hpc _ => exact h.setWorker hworker (by simp [WorkerThread.held, hpc])
  | timeout hpc _ => exact h.setWorker hworker (by simp [WorkerThread.held, hpc])
  | exit hpc => exact h.setWorker hworker (by simp [WorkerThread.held, hpc])
  | target job hpc =>
    have hstart : (set.startJob job).Balanced := h.of_eq rfl rfl rfl rfl rfl
    exact hstart.setWorker hworker (by simp [WorkerThread.held, hpc])
  | take job rest hpc hitems =>
    have hheld : worker.held = [] := by simp [WorkerThread.held, hpc]
    have hnew : WorkerThread.held { worker with pc := .holding job } = [job] := rfl
    constructor
    · intro other
      have hcount := count_held_setWorker { worker with pc := .holding job } hworker other
      rw [hheld, hnew] at hcount
      have := h.jobs other
      simp only [JobsSet.setWorker, held, hitems, List.count_cons,
        List.count_nil] at hcount this ⊢
      omega
    · have hlength := length_held_setWorker { worker with pc := .holding job } hworker
      rw [hheld, hnew] at hlength
      have := h.unfinished
      simp only [JobsSet.setWorker, held, hitems, List.length_cons, List.length_nil]
        at hlength this ⊢
      omega
  | finish job hpc => exact h.finish hworker hpc

theorem Balanced.new (numWorkerThreads : Option Int) (queueSize : Int)
    (userHandlers : JobId → List Nat) :
    (JobsSet.new numWorkerThreads queueSize userHandlers).Balanced where
  jobs _ := rfl
  unfinished := rfl

end JobsSet

namespace System

/-- Every step of every thread keeps the balance. -/
theorem balanced_step {s t : System} {thread : Thread} (h : s.set.Balanced)
    (hstep : s.step thread = some t) : t.set.Balanced := by
  rcases step_cases hstep with ⟨rfl, hmain⟩ | ⟨i, worker, set, rfl, hworker, hset, rfl⟩
  · cases hmain with
    | put job rest set _ hput => exact h.put hput
    | callStart => exact h.of_eq rfl rfl rfl rfl rfl
    | attachDone => exact h.of_eq rfl rfl rfl rfl rfl
    | attachAny => exact h.of_eq rfl rfl rfl rfl rfl
    | spawn =>
      refine h.of_eq rfl rfl rfl rfl ?_
      simp [JobsSet.held, JobsSet.spawn, WorkerThread.held, WorkerThread.new]
    | stop =>
      refine h.of_eq rfl rfl rfl rfl ?_
      exact flatMap_modify _ fun _ => rfl
    | _ => exact h
  · exact h.workerStep hworker hset

/-- The balance holds in every reachable state. -/
theorem balanced_run {numWorkerThreads : Option Int} {queueSize : Int}
    {userHandlers : JobId → List Nat} {calls : List Call} {schedule : List Thread}
    {s : System}
    (hrun : run step (init numWorkerThreads queueSize userHandlers calls) schedule = some s) :
    s.set.Balanced :=
  run_invariant balanced_step (JobsSet.Balanced.new _ _ _) hrun

end System

end OvirtArt.Utils.Jobs
