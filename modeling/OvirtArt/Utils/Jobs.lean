import Mathlib.Data.List.Dedup
import Mathlib.Data.Option.Basic
import Mathlib.Logic.Function.Iterate

set_option autoImplicit false

/-!
# `rhevm_api/utils/jobs.py`: events, jobs, the queue, workers and `JobsSet`

The data and the operations of the module, one definition for each, as state
transformers of one record.  Where two threads can interleave inside an
operation, the operation is given by its atomic parts; `JobsMachine` interleaves
those parts.  Targets and the handlers of the user return normally, so a
`Job` keeps only its state and the handlers of its `finished_event`.

A timeout is a step that may be taken, not a time.  What a job returns or raises is the subject of
`JobFailures`.
-/

namespace OvirtArt.Utils.Jobs

/-- The identity of a `Job` object. -/
abbrev JobId := Nat

/-! ## Events -/

/-- What can be attached to the `finished_event` of a job: the two handlers
that `addJobs` attaches, and handlers of the user. -/
inductive Handler where
  | jobDoneHandler
  | anyDoneSet
  | user (id : Nat)
  deriving DecidableEq, Repr

/-- `Event`: the set of its handlers, in the order in which it is iterated. -/
structure Event where
  handlers : List Handler
  nodup : handlers.Nodup
  deriving DecidableEq

/-- An event with handlers of the user only. -/
def Event.ofUser (ids : List Nat) : Event :=
  ⟨(ids.map Handler.user).dedup, List.nodup_dedup _⟩

/-- `Event.handle`: attach a handler; a set keeps one copy of it. -/
def Event.handle (event : Event) (handler : Handler) : Event :=
  ⟨event.handlers.insert handler, List.Nodup.insert event.nodup⟩

@[simp] theorem Event.mem_handle {event : Event} {added handler : Handler} :
    handler ∈ (event.handle added).handlers ↔
      handler = added ∨ handler ∈ event.handlers := by
  simp [Event.handle]

/-! ## Jobs and the queue -/

/-- The states of a `Job`. -/
inductive JobState where
  | inited
  | running
  | finished
  deriving DecidableEq, Repr

/-- A `Job`, as far as its accounting needs it. -/
structure Job where
  state : JobState
  finishedEvent : Event
  deriving DecidableEq

/-- `QueueWithTimeout`, with `Queue`'s own fields: a `maxsize` of zero or less
is no bound. -/
structure QueueWithTimeout where
  maxsize : Int
  items : List JobId
  unfinishedTasks : Nat
  deriving DecidableEq, Repr

namespace QueueWithTimeout

/-- `Queue.put(item, block=True)`; not enabled while the queue is full. -/
def put (queue : QueueWithTimeout) (job : JobId) : Option QueueWithTimeout :=
  if 0 < queue.maxsize ∧ (queue.items.length : Int) = queue.maxsize then none
  else some { queue with
    items := queue.items ++ [job]
    unfinishedTasks := queue.unfinishedTasks + 1 }

/-- `Queue.get(timeout=...)`; `none` is `Empty`, which is raised only while the
queue is empty. -/
def get (queue : QueueWithTimeout) : Option (JobId × QueueWithTimeout) :=
  match queue.items with
  | [] => none
  | job :: rest => some (job, { queue with items := rest })

/-- `Queue.task_done()`; `none` is `ValueError`. -/
def taskDone (queue : QueueWithTimeout) : Option QueueWithTimeout :=
  match queue.unfinishedTasks with
  | 0 => none
  | unfinished + 1 => some { queue with unfinishedTasks := unfinished }

end QueueWithTimeout

/-! ## Workers -/

/-- The states of a `Worker`; a new one has none. -/
inductive WorkerState where
  | running
  | stopping
  | stopped
  deriving DecidableEq, Repr

/-- Where a `WorkerThread` is in `Worker.run`. -/
inductive WorkerPc where
  /-- the thread is started, the first statement of `run` is not executed yet -/
  | spawned
  /-- at `while self.state == 'RUNNING'` -/
  | test
  /-- in `self.queue.get` -/
  | get
  /-- a job was taken, `job.start()` is next -/
  | holding (job : JobId)
  /-- the target returned, `finished_event()` is next -/
  | finishing (job : JobId)
  /-- after the loop, `self.state = 'STOPPED'` is next -/
  | leaving
  /-- `run` returned -/
  | exited
  deriving DecidableEq, Repr

/-- A `WorkerThread`.  `stopRequested` is a ghost: `stop()` was called on it. -/
structure WorkerThread where
  state : Option WorkerState
  pc : WorkerPc
  stopRequested : Bool
  deriving DecidableEq, Repr

namespace WorkerThread

/-- A worker as `JobsSet.start` creates and starts it. -/
def new : WorkerThread := ⟨none, .spawned, false⟩

/-- `Worker.stop`. -/
def stop (worker : WorkerThread) : WorkerThread :=
  { worker with state := some .stopping, stopRequested := true }

/-- The job in the hands of a worker, between `get` and `finished_event()`. -/
def held (worker : WorkerThread) : List JobId :=
  match worker.pc with
  | .holding job => [job]
  | .finishing job => [job]
  | _ => []

theorem held_of_holding {worker : WorkerThread} {job : JobId} (h : worker.pc = .holding job) :
    worker.held = [job] := by
  rw [held, h]

theorem held_of_finishing {worker : WorkerThread} {job : JobId}
    (h : worker.pc = .finishing job) : worker.held = [job] := by
  rw [held, h]

end WorkerThread

/-! ## The set of jobs -/

/-- Ghost bookkeeping, which no operation reads: by it the results compare the jobs that were put
with those that are accounted for and those that are missed. -/
structure Ledger where
  /-- `start()` was called -/
  started : Bool
  /-- every `put`, with its job -/
  put : List JobId
  /-- every call of `task_done()`, with the job whose handler made it -/
  doneFor : List JobId
  /-- every `finished_event()` that found no `__jobDoneHandler`, with its job -/
  missed : List JobId
  deriving DecidableEq, Repr

/-- `JobsSet`, with the jobs it was given and the workers it started. -/
structure JobsSet where
  numWorkerThreads : Option Int
  queue : QueueWithTimeout
  jobs : JobId → Job
  threads : List WorkerThread
  allDone : Bool
  anyDone : Bool
  ledger : Ledger

namespace JobsSet

/-- `JobsSet(num_worker_threads, queue_size)`, and jobs to which only handlers
of the user may be attached. -/
def new (numWorkerThreads : Option Int) (queueSize : Int)
    (userHandlers : JobId → List Nat) : JobsSet where
  numWorkerThreads := numWorkerThreads
  queue := ⟨queueSize, [], 0⟩
  jobs job := ⟨.inited, .ofUser (userHandlers job)⟩
  threads := []
  allDone := false
  anyDone := false
  ledger := ⟨false, [], [], []⟩

/-- The handlers attached to the `finished_event` of a job. -/
def handlers (set : JobsSet) (job : JobId) : List Handler :=
  (set.jobs job).finishedEvent.handlers

/-! ### `addJobs` -/

/-- The first statement of the loop in `addJobs`. -/
def put (set : JobsSet) (job : JobId) : Option JobsSet :=
  (set.queue.put job).map fun queue =>
    { set with
      queue := queue
      ledger := { set.ledger with put := job :: set.ledger.put } }

/-- The other two statements of that loop: `job.finished_event += handler`. -/
def attach (set : JobsSet) (job : JobId) (handler : Handler) : JobsSet :=
  { set with
    jobs := Function.update set.jobs job
      { set.jobs job with
        finishedEvent := (set.jobs job).finishedEvent.handle handler } }

/-- The body of the loop in `addJobs`, by one thread without interruption. -/
def addJob (set : JobsSet) (job : JobId) : Option JobsSet :=
  (set.put job).map fun set =>
    (set.attach job .jobDoneHandler).attach job .anyDoneSet

/-- `addJobs(jobs, block=True)`, by one thread without interruption. -/
def addJobs (set : JobsSet) : List JobId → Option JobsSet
  | [] => some set
  | job :: rest => (set.addJob job).bind fun set => set.addJobs rest

/-! ### `start` -/

/-- The number of workers that `start` spawns. -/
def workerCount (set : JobsSet) : Nat :=
  match set.numWorkerThreads with
  | none => set.queue.unfinishedTasks
  | some count => if count < 1 then set.queue.unfinishedTasks else count.toNat

/-- `start`, up to its loop. -/
def prepareStart (set : JobsSet) : JobsSet :=
  { set with
    numWorkerThreads := some set.workerCount
    allDone := false
    ledger := { set.ledger with started := true } }

/-- The loop body of `start`: create a worker and start its thread. -/
def spawn (set : JobsSet) : JobsSet :=
  { set with threads := set.threads ++ [WorkerThread.new] }

/-- `start()`, by one thread without interruption. -/
def start (set : JobsSet) : JobsSet :=
  (spawn^[set.workerCount]) set.prepareStart

/-! ### The handlers of a finished job -/

/-- `__jobDoneHandler`, called by `finished_event()` of `caller`; `none` is the
`ValueError` of `task_done()`. -/
def jobDoneHandler (set : JobsSet) (caller : JobId) : Option JobsSet :=
  set.queue.taskDone.map fun queue =>
    { set with
      queue := queue
      allDone := if queue.unfinishedTasks = 0 then true else set.allDone
      ledger := { set.ledger with doneFor := caller :: set.ledger.doneFor } }

/-- Call one handler. -/
def call (set : JobsSet) (caller : JobId) : Handler → Option JobsSet
  | .jobDoneHandler => set.jobDoneHandler caller
  | .anyDoneSet => some { set with anyDone := true }
  | .user _ => some set

/-- `Event.invoke`: an exception of a handler keeps the rest from being called. -/
def invoke (set : JobsSet) (caller : JobId) : List Handler → JobsSet
  | [] => set
  | handler :: rest =>
    match set.call caller handler with
    | none => set
    | some set => set.invoke caller rest

/-- The end of `Job.start`: the job is finished and `finished_event()` called. -/
def finishedEvent (set : JobsSet) (job : JobId) : JobsSet :=
  let set' : JobsSet :=
    { set with
      jobs := Function.update set.jobs job { set.jobs job with state := .finished }
      ledger := { set.ledger with
        missed := if Handler.jobDoneHandler ∈ set.handlers job then set.ledger.missed
          else job :: set.ledger.missed } }
  set'.invoke job (set.handlers job)

/-- The beginning of `Job.start`; `running_event()` and the target leave no
trace in the set. -/
def startJob (set : JobsSet) (job : JobId) : JobsSet :=
  { set with
    jobs := Function.update set.jobs job { set.jobs job with state := .running } }

/-! ### Workers -/

/-- Replace the record of one worker. -/
def setWorker (set : JobsSet) (i : Nat) (worker : WorkerThread) : JobsSet :=
  { set with threads := set.threads.set i worker }

/-- `stop()` on the worker of one thread. -/
def stopWorker (set : JobsSet) (i : Nat) : JobsSet :=
  { set with threads := set.threads.modify i WorkerThread.stop }

/-- One atomic step of `Worker.run` in the thread `i`, with `__iterjobs` inlined
where its generator is resumed. -/
def workerStep (set : JobsSet) (i : Nat) : Option JobsSet :=
  match set.threads[i]? with
  | none => none
  | some worker =>
    match worker.pc with
    | .spawned =>
      some (set.setWorker i { worker with state := some .running, pc := .test })
    | .test =>
      if worker.state = some .running then
        some (set.setWorker i { worker with pc := .get })
      else some (set.setWorker i { worker with pc := .leaving })
    | .get =>
      match set.queue.get with
      -- `Empty`: the loop continues, only to test the state again
      | none => some (set.setWorker i { worker with pc := .test })
      | some (job, queue) =>
        some ({ set with queue := queue }.setWorker i
          { worker with pc := .holding job })
    | .holding job =>
      some ((set.startJob job).setWorker i { worker with pc := .finishing job })
    | .finishing job =>
      some ((set.finishedEvent job).setWorker i { worker with pc := .test })
    | .leaving =>
      some (set.setWorker i { worker with state := some .stopped, pc := .exited })
    | .exited => none

/-! ## What the operations do -/

variable {set set' : JobsSet} {unfinished : Nat} {job : JobId}

theorem put_some (h : set.put job = some set') :
    set' = { set with
      queue := ⟨set.queue.maxsize, set.queue.items ++ [job],
        set.queue.unfinishedTasks + 1⟩
      ledger := { set.ledger with put := job :: set.ledger.put } } := by
  simp only [put, QueueWithTimeout.put, Option.map_eq_some_iff] at h
  obtain ⟨queue, hqueue, rfl⟩ := h
  split at hqueue
  · simp at hqueue
  · obtain rfl := Option.some.inj hqueue
    rfl

@[simp] theorem handlers_attach (set : JobsSet) (job other : JobId)
    (handler added : Handler) :
    handler ∈ (set.attach job added).handlers other ↔
      (other = job ∧ handler = added) ∨ handler ∈ set.handlers other := by
  by_cases hother : other = job
  · subst hother
    simp [attach, handlers]
  · simp [attach, handlers, hother]

/-- Setting the state of a job leaves every attached handler attached. -/
theorem update_state_finishedEvent (set : JobsSet) (job other : JobId) (state : JobState) :
    (Function.update set.jobs job { set.jobs job with state := state } other).finishedEvent =
      (set.jobs other).finishedEvent := by
  by_cases hother : other = job
  · subst hother
    simp
  · simp [hother]

@[simp] theorem handlers_startJob (set : JobsSet) (job other : JobId) :
    (set.startJob job).handlers other = set.handlers other := by
  simp only [startJob, handlers]
  rw [update_state_finishedEvent]

/-- Handlers that are not `__jobDoneHandler` leave all but `__any_done` as it is. -/
theorem invoke_of_not_mem (caller : JobId) :
    ∀ (hs : List Handler) (set : JobsSet), Handler.jobDoneHandler ∉ hs →
      ∃ any, set.invoke caller hs = { set with anyDone := any }
  | [], set, _ => ⟨set.anyDone, rfl⟩
  | .jobDoneHandler :: _, _, hmem => absurd List.mem_cons_self hmem
  | .anyDoneSet :: rest, set, hmem =>
    invoke_of_not_mem caller rest { set with anyDone := true }
      (fun h => hmem (List.mem_cons_of_mem _ h))
  | .user _ :: rest, set, hmem =>
    invoke_of_not_mem caller rest set (fun h => hmem (List.mem_cons_of_mem _ h))

/-- What `__jobDoneHandler` leaves behind when `unfinished` tasks remain. -/
def jobDone (set : JobsSet) (caller : JobId) (unfinished : Nat) : JobsSet :=
  { set with
    queue := { set.queue with unfinishedTasks := unfinished }
    allDone := if unfinished = 0 then true else set.allDone
    ledger := { set.ledger with doneFor := caller :: set.ledger.doneFor } }

theorem jobDoneHandler_eq (caller : JobId) (hunf : set.queue.unfinishedTasks = unfinished + 1) :
    set.jobDoneHandler caller = some (set.jobDone caller unfinished) := by
  simp [jobDoneHandler, jobDone, QueueWithTimeout.taskDone, hunf]

/-- With a task unfinished, handlers among which `__jobDoneHandler` is once do
what it does, wherever in the order of iteration it stands. -/
theorem invoke_of_mem (caller : JobId) :
    ∀ (hs : List Handler) (set : JobsSet), hs.Nodup → Handler.jobDoneHandler ∈ hs →
      set.queue.unfinishedTasks = unfinished + 1 →
      ∃ any, set.invoke caller hs = { set.jobDone caller unfinished with anyDone := any }
  | .jobDoneHandler :: rest, set, hnodup, _, hunf => by
      have hrest : Handler.jobDoneHandler ∉ rest := (List.nodup_cons.mp hnodup).1
      simp only [invoke, call, jobDoneHandler_eq caller hunf]
      exact invoke_of_not_mem caller rest _ hrest
  | .anyDoneSet :: rest, set, hnodup, hmem, hunf => by
      have hrest : Handler.jobDoneHandler ∈ rest := by simpa using hmem
      exact invoke_of_mem caller rest { set with anyDone := true } hnodup.of_cons hrest hunf
  | .user _ :: rest, set, hnodup, hmem, hunf => by
      have hrest : Handler.jobDoneHandler ∈ rest := by simpa using hmem
      exact invoke_of_mem caller rest set hnodup.of_cons hrest hunf

/-- `finished_event()` of a job without `__jobDoneHandler`: the queue is not
told, and the ledger says so. -/
theorem finishedEvent_missed (hmem : Handler.jobDoneHandler ∉ set.handlers job) :
    (set.finishedEvent job).queue = set.queue ∧
      (set.finishedEvent job).allDone = set.allDone ∧
      (set.finishedEvent job).ledger =
        { set.ledger with missed := job :: set.ledger.missed } := by
  simp only [finishedEvent, hmem, if_false]
  obtain ⟨any, hinvoke⟩ := invoke_of_not_mem job (set.handlers job)
    { set with
      jobs := Function.update set.jobs job { set.jobs job with state := .finished }
      ledger := { set.ledger with missed := job :: set.ledger.missed } } hmem
  rw [hinvoke]
  exact ⟨rfl, rfl, rfl⟩

/-- `finished_event()` of a job with `__jobDoneHandler` calls `task_done()` once. -/
theorem finishedEvent_done (hmem : Handler.jobDoneHandler ∈ set.handlers job)
    (hunf : set.queue.unfinishedTasks = unfinished + 1) :
    (set.finishedEvent job).queue = { set.queue with unfinishedTasks := unfinished } ∧
      (set.finishedEvent job).allDone = (if unfinished = 0 then true else set.allDone) ∧
      (set.finishedEvent job).ledger =
        { set.ledger with doneFor := job :: set.ledger.doneFor } := by
  simp only [finishedEvent, hmem, if_true]
  obtain ⟨any, hinvoke⟩ := invoke_of_mem job (set.handlers job)
    { set with
      jobs := Function.update set.jobs job { set.jobs job with state := .finished } }
    (set.jobs job).finishedEvent.nodup hmem hunf
  rw [hinvoke]
  exact ⟨rfl, rfl, rfl⟩

/-- Handlers neither attach handlers nor touch a worker. -/
theorem invoke_frame (caller : JobId) :
    ∀ (hs : List Handler) (set : JobsSet),
      (set.invoke caller hs).jobs = set.jobs ∧
        (set.invoke caller hs).threads = set.threads
  | [], _ => ⟨rfl, rfl⟩
  | handler :: rest, set => by
      rw [invoke]
      split
      · exact ⟨rfl, rfl⟩
      · rename_i next hcall
        obtain ⟨hjobs, hthreads⟩ := invoke_frame caller rest next
        rw [hjobs, hthreads]
        cases handler with
        | jobDoneHandler =>
          obtain ⟨queue, _, rfl⟩ := Option.map_eq_some_iff.mp hcall
          exact ⟨rfl, rfl⟩
        | anyDoneSet =>
          obtain rfl := Option.some.inj hcall
          exact ⟨rfl, rfl⟩
        | user id =>
          obtain rfl := Option.some.inj hcall
          exact ⟨rfl, rfl⟩

@[simp] theorem handlers_finishedEvent (set : JobsSet) (job other : JobId) :
    (set.finishedEvent job).handlers other = set.handlers other := by
  simp only [finishedEvent, handlers, (invoke_frame job _ _).1]
  rw [update_state_finishedEvent]

@[simp] theorem threads_finishedEvent (set : JobsSet) (job : JobId) :
    (set.finishedEvent job).threads = set.threads := by
  simp only [finishedEvent, (invoke_frame job _ _).2]

/-! ### The steps of a worker, one by one -/

/-- What one step of the worker `i`, now in `worker`, can do. -/
inductive WorkerStep (set : JobsSet) (i : Nat) (worker : WorkerThread) :
    JobsSet → Prop
  | begin (hpc : worker.pc = .spawned) : WorkerStep set i worker
      (set.setWorker i { worker with state := some .running, pc := .test })
  | loop (hpc : worker.pc = .test) (hstate : worker.state = some .running) :
      WorkerStep set i worker (set.setWorker i { worker with pc := .get })
  | leave (hpc : worker.pc = .test) (hstate : worker.state ≠ some .running) :
      WorkerStep set i worker (set.setWorker i { worker with pc := .leaving })
  | timeout (hpc : worker.pc = .get) (hempty : set.queue.items = []) :
      WorkerStep set i worker (set.setWorker i { worker with pc := .test })
  | take (job : JobId) (rest : List JobId) (hpc : worker.pc = .get)
      (hitems : set.queue.items = job :: rest) : WorkerStep set i worker
        ({ set with queue := { set.queue with items := rest } }.setWorker i
          { worker with pc := .holding job })
  | target (job : JobId) (hpc : worker.pc = .holding job) : WorkerStep set i worker
      ((set.startJob job).setWorker i { worker with pc := .finishing job })
  | finish (job : JobId) (hpc : worker.pc = .finishing job) : WorkerStep set i worker
      ((set.finishedEvent job).setWorker i { worker with pc := .test })
  | exit (hpc : worker.pc = .leaving) : WorkerStep set i worker
      (set.setWorker i { worker with state := some .stopped, pc := .exited })

theorem workerStep_cases {i : Nat} (h : set.workerStep i = some set') :
    ∃ worker, set.threads[i]? = some worker ∧ WorkerStep set i worker set' := by
  simp only [workerStep] at h
  split at h
  · simp at h
  · rename_i worker hworker
    refine ⟨worker, hworker, ?_⟩
    split at h
    · obtain rfl := Option.some.inj h
      exact .begin ‹_›
    · split at h
      · obtain rfl := Option.some.inj h
        exact .loop ‹_› ‹_›
      · obtain rfl := Option.some.inj h
        exact .leave ‹_› ‹_›
    · simp only [QueueWithTimeout.get] at h
      cases hitems : set.queue.items with
      | nil =>
        simp only [hitems] at h
        obtain rfl := Option.some.inj h
        exact .timeout ‹_› hitems
      | cons job rest =>
        simp only [hitems] at h
        obtain rfl := Option.some.inj h
        exact .take job rest ‹_› hitems
    · obtain rfl := Option.some.inj h
      exact .target _ ‹_›
    · obtain rfl := Option.some.inj h
      exact .finish _ ‹_›
    · obtain rfl := Option.some.inj h
      exact .exit ‹_›
    · simp at h

/-- Every step described by `WorkerStep` is one that the worker makes. -/
theorem workerStep_of_step {i : Nat} {worker : WorkerThread}
    (hworker : set.threads[i]? = some worker) (h : WorkerStep set i worker set') :
    set.workerStep i = some set' := by
  cases h <;> simp_all [workerStep, QueueWithTimeout.get]

end JobsSet

end OvirtArt.Utils.Jobs
