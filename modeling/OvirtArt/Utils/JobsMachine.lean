import OvirtArt.Foundation.Runs
import OvirtArt.Utils.Jobs

set_option autoImplicit false

/-!
# A main thread and its workers, interleaved

The main thread calls `addJobs`, `start` and `join` one after another; every
worker runs `Worker.run` in its own thread.  One label makes one atomic step of
one thread.  A step is `none` where the thread would block: `put` on a full
queue, `Queue.join` while tasks are unfinished, `Thread.join` while the thread
runs.

A join with a timeout, and calls from several threads, are left out.
-/

namespace OvirtArt.Utils.Jobs

open OvirtArt.Foundation

/-- The calls that the main thread makes on the `JobsSet`. -/
inductive Call where
  | addJobs (jobs : List JobId)
  | start
  | join
  deriving DecidableEq, Repr

/-- Where the main thread is. -/
inductive MainPc where
  /-- between two calls -/
  | ready
  /-- at the head of the loop in `addJobs`, with the jobs still to add -/
  | adding (rest : List JobId)
  /-- `job` is in the queue, `__jobDoneHandler` is attached next -/
  | attachingDone (job : JobId) (rest : List JobId)
  /-- `__any_done.set` is attached to `job` next -/
  | attachingAny (job : JobId) (rest : List JobId)
  /-- in the loop of `start`, with the number of workers still to spawn -/
  | spawning (count : Nat)
  /-- in `Queue.join` -/
  | joiningQueue
  /-- in `__stopWorkers`, at the thread `i` -/
  | stopping (i : Nat)
  /-- in the last loop of `join`, at the thread `i` -/
  | joining (i : Nat)
  deriving DecidableEq, Repr

/-- The set, the main thread and the calls it still has to make. -/
structure System where
  set : JobsSet
  main : MainPc
  todo : List Call

/-- The threads. -/
inductive Thread where
  | main
  | worker (i : Nat)
  deriving DecidableEq, Repr

namespace System

/-- A new `JobsSet` in the hands of a main thread. -/
def init (numWorkerThreads : Option Int) (queueSize : Int)
    (userHandlers : JobId → List Nat) (calls : List Call) : System :=
  ⟨.new numWorkerThreads queueSize userHandlers, .ready, calls⟩

/-- One atomic step of the main thread. -/
def mainStep (s : System) : Option System :=
  match s.main with
  | .ready =>
    match s.todo with
    | [] => none
    | .addJobs jobs :: rest => some { s with main := .adding jobs, todo := rest }
    | .start :: rest => some
        { set := s.set.prepareStart
          main := .spawning s.set.workerCount
          todo := rest }
    | .join :: rest => some { s with main := .joiningQueue, todo := rest }
  | .adding [] => some { s with main := .ready }
  | .adding (job :: rest) =>
    (s.set.put job).map fun set => { s with set := set, main := .attachingDone job rest }
  | .attachingDone job rest => some
      { s with
        set := s.set.attach job .jobDoneHandler
        main := .attachingAny job rest }
  | .attachingAny job rest => some
      { s with set := s.set.attach job .anyDoneSet, main := .adding rest }
  | .spawning 0 => some { s with main := .ready }
  | .spawning (count + 1) => some { s with set := s.set.spawn, main := .spawning count }
  | .joiningQueue =>
    if s.set.queue.unfinishedTasks = 0 then some { s with main := .stopping 0 } else none
  | .stopping i =>
    if i < s.set.threads.length then
      some { s with set := s.set.stopWorker i, main := .stopping (i + 1) }
    else some { s with main := .joining 0 }
  | .joining i =>
    match s.set.threads[i]? with
    | none => some { s with main := .ready }
    | some worker =>
      if worker.pc = .exited then some { s with main := .joining (i + 1) } else none

/-- One atomic step of one thread. -/
def step (s : System) : Thread → Option System
  | .main => s.mainStep
  | .worker i => (s.set.workerStep i).map fun set => { s with set := set }

/-- What one step of the main thread can do. -/
inductive MainStep (s : System) : System → Prop
  | callAddJobs (jobs : List JobId) (rest : List Call) (hmain : s.main = .ready)
      (htodo : s.todo = .addJobs jobs :: rest) :
      MainStep s { s with main := .adding jobs, todo := rest }
  | callStart (rest : List Call) (hmain : s.main = .ready)
      (htodo : s.todo = .start :: rest) :
      MainStep s ⟨s.set.prepareStart, .spawning s.set.workerCount, rest⟩
  | callJoin (rest : List Call) (hmain : s.main = .ready)
      (htodo : s.todo = .join :: rest) :
      MainStep s { s with main := .joiningQueue, todo := rest }
  | added (hmain : s.main = .adding []) : MainStep s { s with main := .ready }
  | put (job : JobId) (rest : List JobId) (set : JobsSet)
      (hmain : s.main = .adding (job :: rest)) (hput : s.set.put job = some set) :
      MainStep s { s with set := set, main := .attachingDone job rest }
  | attachDone (job : JobId) (rest : List JobId) (hmain : s.main = .attachingDone job rest) :
      MainStep s { s with
        set := s.set.attach job .jobDoneHandler
        main := .attachingAny job rest }
  | attachAny (job : JobId) (rest : List JobId) (hmain : s.main = .attachingAny job rest) :
      MainStep s { s with set := s.set.attach job .anyDoneSet, main := .adding rest }
  | started (hmain : s.main = .spawning 0) : MainStep s { s with main := .ready }
  | spawn (count : Nat) (hmain : s.main = .spawning (count + 1)) :
      MainStep s { s with set := s.set.spawn, main := .spawning count }
  | released (hmain : s.main = .joiningQueue) (hunf : s.set.queue.unfinishedTasks = 0) :
      MainStep s { s with main := .stopping 0 }
  | stop (i : Nat) (hmain : s.main = .stopping i) (hi : i < s.set.threads.length) :
      MainStep s { s with set := s.set.stopWorker i, main := .stopping (i + 1) }
  | allStopped (i : Nat) (hmain : s.main = .stopping i) (hi : ¬ i < s.set.threads.length) :
      MainStep s { s with main := .joining 0 }
  | joined (i : Nat) (worker : WorkerThread) (hmain : s.main = .joining i)
      (hworker : s.set.threads[i]? = some worker) (hpc : worker.pc = .exited) :
      MainStep s { s with main := .joining (i + 1) }
  | allJoined (i : Nat) (hmain : s.main = .joining i) (hnone : s.set.threads[i]? = none) :
      MainStep s { s with main := .ready }

theorem mainStep_cases {s t : System} (h : s.mainStep = some t) : MainStep s t := by
  simp only [mainStep] at h
  split at h
  · split at h
    · simp at h
    · obtain rfl := Option.some.inj h
      exact .callAddJobs _ _ ‹_› ‹_›
    · obtain rfl := Option.some.inj h
      exact .callStart _ ‹_› ‹_›
    · obtain rfl := Option.some.inj h
      exact .callJoin _ ‹_› ‹_›
  · obtain rfl := Option.some.inj h
    exact .added ‹_›
  · obtain ⟨set, hput, rfl⟩ := Option.map_eq_some_iff.mp h
    exact .put _ _ set ‹_› hput
  · obtain rfl := Option.some.inj h
    exact .attachDone _ _ ‹_›
  · obtain rfl := Option.some.inj h
    exact .attachAny _ _ ‹_›
  · obtain rfl := Option.some.inj h
    exact .started ‹_›
  · obtain rfl := Option.some.inj h
    exact .spawn _ ‹_›
  · split at h
    · obtain rfl := Option.some.inj h
      exact .released ‹_› ‹_›
    · simp at h
  · split at h
    · obtain rfl := Option.some.inj h
      exact .stop _ ‹_› ‹_›
    · obtain rfl := Option.some.inj h
      exact .allStopped _ ‹_› ‹_›
  · split at h
    · obtain rfl := Option.some.inj h
      exact .allJoined _ ‹_› ‹_›
    · split at h
      · obtain rfl := Option.some.inj h
        exact .joined _ _ ‹_› ‹_› ‹_›
      · simp at h

/-- Every step is one of the main thread or one of a worker. -/
theorem step_cases {s t : System} {thread : Thread} (h : s.step thread = some t) :
    (thread = .main ∧ MainStep s t) ∨
      ∃ i worker set, thread = .worker i ∧ s.set.threads[i]? = some worker ∧
        JobsSet.WorkerStep s.set i worker set ∧ t = { s with set := set } := by
  cases thread with
  | main => exact Or.inl ⟨rfl, mainStep_cases h⟩
  | worker i =>
    obtain ⟨set, hset, rfl⟩ := Option.map_eq_some_iff.mp h
    obtain ⟨worker, hworker, hstep⟩ := JobsSet.workerStep_cases hset
    exact Or.inr ⟨i, worker, set, rfl, hworker, hstep, rfl⟩

/-- In `join()`. -/
def InJoin (s : System) : Prop :=
  match s.main with
  | .joiningQueue => True
  | .stopping _ => True
  | .joining _ => True
  | _ => False

instance (s : System) : Decidable s.InJoin := by
  unfold InJoin
  split <;> infer_instance

end System

/-- The worker is inside `__iterjobs`, or in the body of the loop over it. -/
def WorkerThread.InLoop (worker : WorkerThread) : Prop :=
  worker.pc ≠ .spawned ∧ worker.pc ≠ .leaving ∧ worker.pc ≠ .exited

instance (worker : WorkerThread) : Decidable worker.InLoop :=
  inferInstanceAs (Decidable (_ ∧ _ ∧ _))

end OvirtArt.Utils.Jobs
