import OvirtArt.Foundation.Effects
import OvirtArt.Foundation.Runs
import OvirtArt.Utils.Jobs

set_option autoImplicit false

/-!
# `rhevm_api/utils/jobs.py`: jobs whose target and handlers raise

`Job.start`, `Event.invoke`, `JobsSet.__jobDoneHandler` and `Worker.run` where what is called
may raise any exception.  Workers take and work on jobs in any order, while others add jobs
and stop workers.

Handlers are lists of functions, each of which returns or raises.  The log, and the arguments of a
target, are left out.
-/

namespace OvirtArt.Utils.JobFailures

open OvirtArt.Foundation
open OvirtArt.Utils.Jobs (JobState WorkerState)

/-! ## Exceptions and handlers -/

/-- An instance of `BaseException`: of `Exception`, or of `SystemExit`, `KeyboardInterrupt` or
`GeneratorExit`. -/
inductive BaseException where
  | exception (id : Nat)
  | other (id : Nat)
  deriving DecidableEq, Repr

/-- `isinstance(e, Exception)`. -/
def BaseException.isException : BaseException → Bool
  | .exception _ => true
  | .other _ => false

/-- The `ValueError` of `Queue.task_done`. -/
def valueError : BaseException := .exception 0

/-- What can be attached to an event: `None`, the two handlers of `addJobs`, and a handler of
the user with what it raises, if it does. -/
inductive Handler where
  | none
  | jobDoneHandler
  | anyDoneSet
  | user (raises : Option BaseException)
  deriving DecidableEq, Repr

/-- The handlers of an event in the order in which the set is iterated. -/
abbrev Event := List Handler

variable {ρ : Type}

/-- A `Job` that `addJobs` has put into the queue: its accounting handler is attached to
`finished_event`, once, and to no other event. -/
structure Job (ρ : Type) where
  state : JobState
  target : Except BaseException ρ
  result : Option ρ
  exception : Option BaseException
  runningEvent : Event
  exceptionEvent : Event
  finishedEvent : Event
  accounts : finishedEvent.count .jobDoneHandler = 1
  runningPlain : .jobDoneHandler ∉ runningEvent
  exceptionPlain : .jobDoneHandler ∉ exceptionEvent

/-! ## Working on a job -/

/-- What `Job.start` changes: the job, the queue's count of unfinished tasks and the flags of
the `JobsSet`.  How often `task_done()` has been called is a ghost. -/
structure Scene (ρ : Type) where
  job : Job ρ
  unfinishedTasks : Nat
  allDone : Bool
  anyDone : Bool
  taskDones : Nat

/-- A piece of a job's code, which may raise anything. -/
abbrev Proc (ρ : Type) := EStateM BaseException (Scene ρ)

/-- `JobsSet.__jobDoneHandler`. -/
def JobsSet.jobDoneHandler : Proc ρ Unit := do
  let scene ← get
  match scene.unfinishedTasks with
  | 0 => throw valueError
  | unfinished + 1 =>
    set { scene with
      unfinishedTasks := unfinished
      taskDones := scene.taskDones + 1
      allDone := scene.allDone || unfinished = 0 }

/-- Call a handler, if it is not `None`. -/
def Handler.call : Handler → Proc ρ Unit
  | .none => return ()
  | .jobDoneHandler => JobsSet.jobDoneHandler
  | .anyDoneSet => modify fun scene => { scene with anyDone := true }
  | .user Option.none => return ()
  | .user (some e) => throw e

/-- `Event.invoke`. -/
def Event.invoke (event : Event) : Proc ρ Unit := event.forM Handler.call

namespace Job

/-- `Job.exception_caught`. -/
def exceptionCaught (job : Job ρ) (e : BaseException) : Proc ρ Unit := do
  modify fun scene => { scene with job := { scene.job with exception := some e } }
  job.exceptionEvent.invoke

/-- The `try` of `Job.start`, with its `except`. -/
def tryTarget (job : Job ρ) : Proc ρ Unit :=
  match job.target with
  | .ok result =>
    modify fun scene => { scene with job := { scene.job with result := some result } }
  | .error e => if e.isException then job.exceptionCaught e else throw e

/-- The `finally` of `Job.start`. -/
def finish (job : Job ρ) : Proc ρ Unit := do
  modify fun scene => { scene with job := { scene.job with state := .finished } }
  job.finishedEvent.invoke

/-- `Job.start`. -/
def start (job : Job ρ) : Proc ρ Unit := do
  modify fun scene => { scene with job := { scene.job with state := .running } }
  job.runningEvent.invoke
  tryFinally job.tryTarget job.finish

end Job

/-! ## Workers -/

/-- What is in the queue. -/
inductive Item (ρ : Type) where
  | suicideJob
  | job (job : Job ρ)

/-- Where a worker's thread is: at the head of the loop, with an item that it has taken, or no
more, and then in which state it has ended. -/
inductive WorkerPc (ρ : Type) where
  | loop
  | holding (item : Item ρ)
  | ended (state : WorkerState)

/-- A worker with its state and where it is. -/
structure Worker (ρ : Type) where
  state : WorkerState
  pc : WorkerPc ρ

/-- An item that a worker is done with: the state in which it has left the job, and how often
`task_done()` has been called for it. -/
structure Consumed (ρ : Type) where
  item : Item ρ
  state : Option JobState
  taskDones : Nat

/-- The queue, its count of unfinished tasks, the workers and what they are done with. -/
structure System (ρ : Type) where
  queue : List (Item ρ)
  unfinishedTasks : Nat
  allDone : Bool
  anyDone : Bool
  workers : List (Worker ρ)
  consumed : List (Consumed ρ)

/-- One thing that happens: an item is put into the queue, a worker comes up or is stopped,
or a worker takes an item, works on it or finds that it has been stopped. -/
inductive Act (ρ : Type) where
  | put (item : Item ρ)
  | spawn
  | stop (i : Nat)
  | take (i : Nat)
  | work (i : Nat)
  | leave (i : Nat)

namespace System

/-- No item and no worker. -/
def init : System ρ where
  queue := []
  unfinishedTasks := 0
  allDone := false
  anyDone := false
  workers := []
  consumed := []

/-- The scene in which a job starts. -/
def scene (s : System ρ) (job : Job ρ) : Scene ρ where
  job := job
  unfinishedTasks := s.unfinishedTasks
  allDone := s.allDone
  anyDone := s.anyDone
  taskDones := 0

/-- The system after a job has been worked on. -/
def close (s : System ρ) (i : Nat) (worker : Worker ρ) (job : Job ρ) (scene : Scene ρ) :
    System ρ :=
  { s with
    unfinishedTasks := scene.unfinishedTasks
    allDone := scene.allDone
    anyDone := scene.anyDone
    workers := s.workers.set i worker
    consumed := s.consumed ++ [⟨.job job, some scene.job.state, scene.taskDones⟩] }

/-- The body of the loop in `Worker.run`: an `Exception` is dropped, any other one ends the
thread. -/
def work (s : System ρ) (i : Nat) (worker : Worker ρ) : Item ρ → System ρ
  | .suicideJob =>
    { s with
      workers := s.workers.set i { state := .stopped, pc := .ended .stopped }
      consumed := s.consumed ++ [⟨.suicideJob, none, 0⟩] }
  | .job job =>
    match job.start.run (s.scene job) with
    | .ok _ scene => s.close i { worker with pc := .loop } job scene
    | .error e scene =>
      let pc := if e.isException then .loop else .ended worker.state
      s.close i { worker with pc := pc } job scene

/-- One step of the main thread or of a worker. -/
def step (s : System ρ) : Act ρ → Option (System ρ)
  | .put item => some
      { s with queue := s.queue ++ [item], unfinishedTasks := s.unfinishedTasks + 1 }
  | .spawn => some { s with workers := s.workers ++ [{ state := .running, pc := .loop }] }
  | .stop i =>
    s.workers[i]?.map fun worker =>
      { s with workers := s.workers.set i { worker with state := .stopping } }
  | .take i =>
    match s.workers[i]?, s.queue with
    | some ⟨.running, .loop⟩, item :: rest => some
        { s with queue := rest, workers := s.workers.set i ⟨.running, .holding item⟩ }
    | _, _ => none
  | .work i =>
    match s.workers[i]? with
    | some ⟨state, .holding item⟩ => some (s.work i ⟨state, .holding item⟩ item)
    | _ => none
  | .leave i =>
    match s.workers[i]? with
    | some ⟨state, .loop⟩ =>
      if state = .running then none
      else some { s with workers := s.workers.set i ⟨.stopped, .ended .stopped⟩ }
    | _ => none

end System

end OvirtArt.Utils.JobFailures
