import OvirtArt.Utils.JobsProgress

set_option autoImplicit false

/-!
# `allDone` and the operations of a `JobsSet`

`allDone` is cleared by `start` only and set by the handler of the last
unfinished job only.  A `start` with nothing to do and an `addJobs` after
everything was finished leave it behind; every other operation keeps it in step.

The operations are those of a main thread with no worker in between, and a simulation shows them
to be the operations of the interleaved machine.
-/

namespace OvirtArt.Utils.Jobs

open OvirtArt.Foundation

namespace JobsSet

/-! ## Sequences of operations -/

/-- What can be done with a `JobsSet`.  An `addJobs` that blocks on a full queue
is the `addJobs` of the jobs that fit, followed by one of the others. -/
inductive Operation where
  | addJobs (jobs : List JobId)
  | start
  | worker (i : Nat)
  deriving DecidableEq, Repr

/-- One operation, by one thread without interruption. -/
def operate (set : JobsSet) : Operation → Option JobsSet
  | .addJobs jobs => set.addJobs jobs
  | .start => some set.start
  | .worker i => set.workerStep i

/-- `allDone` says that `start()` was called and that no job is unfinished. -/
def AllDoneInStep (set : JobsSet) : Prop :=
  set.allDone = true ↔ set.ledger.started = true ∧ set.queue.unfinishedTasks = 0

instance (set : JobsSet) : Decidable set.AllDoneInStep :=
  inferInstanceAs (Decidable (_ ↔ _ ∧ _))

/-- The guard of an operation: `start` finds a job unfinished, and so does an
`addJobs` after `start`, if it adds anything. -/
def FindsUnfinished (set : JobsSet) : Operation → Prop
  | .addJobs jobs =>
    set.ledger.started = true → jobs ≠ [] → 0 < set.queue.unfinishedTasks
  | .start => 0 < set.queue.unfinishedTasks
  | .worker _ => True

/-- What every operation keeps. -/
structure Ordered (set : JobsSet) : Prop where
  healthy : set.Healthy
  started : set.threads ≠ [] → set.ledger.started = true

/-! ## `addJobs` -/

variable {set set' : JobsSet}

theorem addJob_some {job : JobId} (h : set.addJob job = some set') :
    set'.queue = ⟨set.queue.maxsize, set.queue.items ++ [job],
        set.queue.unfinishedTasks + 1⟩ ∧
      set'.threads = set.threads ∧ set'.allDone = set.allDone ∧
      set'.ledger = { set.ledger with put := job :: set.ledger.put } := by
  obtain ⟨added, hput, rfl⟩ := Option.map_eq_some_iff.mp h
  obtain rfl := put_some hput
  exact ⟨rfl, rfl, rfl, rfl⟩

theorem Healthy.addJob {job : JobId} (h : set.Healthy) (hadd : set.addJob job = some set') :
    set'.Healthy := by
  obtain ⟨added, hput, rfl⟩ := Option.map_eq_some_iff.mp hadd
  have hbalanced := h.balanced.put hput
  obtain rfl := put_some hput
  refine ⟨hbalanced.of_eq rfl rfl rfl rfl rfl, h.missed, ?_⟩
  intro other hother
  rw [handlers_attach, handlers_attach]
  have hpending : other = job ∨ other ∈ set.queue.items ∨ other ∈ set.held := by
    simp only [attach, held, List.mem_append, List.mem_singleton] at hother
    rcases hother with (hitem | hjob) | hheld
    · exact Or.inr (Or.inl hitem)
    · exact Or.inl hjob
    · exact Or.inr (Or.inr hheld)
  rcases hpending with hjob | hbefore
  · exact Or.inr (Or.inl ⟨hjob, rfl⟩)
  · exact Or.inr (Or.inr (h.attached other hbefore))

/-- `addJobs` counts its jobs as unfinished and touches neither `allDone` nor a
worker. -/
theorem addJobs_some {jobs : List JobId} (h : set.addJobs jobs = some set') :
    set'.queue.unfinishedTasks = set.queue.unfinishedTasks + jobs.length ∧
      set'.threads = set.threads ∧ set'.allDone = set.allDone ∧
      set'.ledger.started = set.ledger.started := by
  induction jobs generalizing set with
  | nil =>
    obtain rfl := Option.some.inj h
    exact ⟨rfl, rfl, rfl, rfl⟩
  | cons job rest ih =>
    obtain ⟨added, hadd, hrest⟩ := Option.bind_eq_some_iff.mp h
    obtain ⟨hqueue, hthreads, hallDone, hledger⟩ := addJob_some hadd
    obtain ⟨hunf, hthreads', hallDone', hstarted⟩ := ih hrest
    rw [hledger] at hstarted
    refine ⟨?_, hthreads'.trans hthreads, hallDone'.trans hallDone, hstarted⟩
    simp only [hunf, hqueue, List.length_cons]
    omega

theorem Healthy.addJobs {jobs : List JobId} (h : set.Healthy)
    (hadd : set.addJobs jobs = some set') :
    set'.Healthy := by
  induction jobs generalizing set with
  | nil =>
    obtain rfl := Option.some.inj hadd
    exact h
  | cons job rest ih =>
    obtain ⟨added, hfirst, hrest⟩ := Option.bind_eq_some_iff.mp hadd
    exact ih (h.addJob hfirst) hrest

/-! ## `start` -/

theorem spawn_iterate (n : Nat) (set : JobsSet) :
    (spawn^[n]) set =
      { set with threads := set.threads ++ List.replicate n WorkerThread.new } := by
  induction n generalizing set with
  | zero => simp
  | succ n ih =>
    rw [Function.iterate_succ_apply, ih]
    simp [spawn, List.replicate_succ]

/-- `start` adds new workers; the queue stays, and `allDone` is cleared. -/
theorem start_eq (set : JobsSet) :
    set.start = { set.prepareStart with
      threads := set.threads ++ List.replicate set.workerCount WorkerThread.new } :=
  spawn_iterate ..

theorem held_start (set : JobsSet) : set.start.held = set.held := by
  rw [start_eq]
  simp [held, WorkerThread.held, WorkerThread.new, List.flatMap_append,
    List.flatMap_replicate]

theorem Healthy.start (h : set.Healthy) : set.start.Healthy := by
  have hheld := held_start set
  have hqueue : set.start.queue = set.queue := by rw [start_eq]; rfl
  have hledger : set.start.ledger = { set.ledger with started := true } := by
    rw [start_eq]; rfl
  refine ⟨h.balanced.of_eq hqueue ?_ ?_ ?_ hheld, ?_, ?_⟩
  · rw [hledger]
  · rw [hledger]
  · rw [hledger]
  · rw [hledger]
    exact h.missed
  · intro job hjob
    rw [hqueue, hheld] at hjob
    have hmem := h.attached job hjob
    rw [start_eq]
    exact hmem

/-! ## Every operation -/

/-- No worker takes a `start()` back. -/
theorem started_workerStep {i : Nat} {worker : WorkerThread} (h : set.Healthy)
    (hworker : set.threads[i]? = some worker) (hstep : WorkerStep set i worker set') :
    set'.ledger.started = set.ledger.started := by
  cases hstep with
  | finish job hpc =>
    obtain ⟨unfinished, -, -, -, hledger⟩ := h.finish hworker hpc
    simp only [JobsSet.setWorker, hledger]
  | _ => rfl

theorem Ordered.operate {operation : Operation} (h : set.Ordered)
    (hop : set.operate operation = some set') : set'.Ordered := by
  cases operation with
  | addJobs jobs =>
    obtain ⟨_, hthreads, _, hstarted⟩ := addJobs_some hop
    refine ⟨h.healthy.addJobs hop, ?_⟩
    rw [hthreads, hstarted]
    exact h.started
  | start =>
    obtain rfl := Option.some.inj hop
    refine ⟨h.healthy.start, fun _ => ?_⟩
    rw [start_eq]
    rfl
  | worker i =>
    obtain ⟨worker, hworker, hstep⟩ := workerStep_cases hop
    have hne : set.threads ≠ [] := List.ne_nil_of_mem (List.mem_of_getElem? hworker)
    refine ⟨h.healthy.step hworker hstep, fun _ => ?_⟩
    rw [started_workerStep h.healthy hworker hstep]
    exact h.started hne

/-- An operation keeps `allDone` in step exactly if it meets the guard. -/
theorem allDoneInStep_operate_iff {operation : Operation} (h : set.Ordered)
    (hstep : set.AllDoneInStep) (hop : set.operate operation = some set') :
    set'.AllDoneInStep ↔ set.FindsUnfinished operation := by
  unfold AllDoneInStep at hstep ⊢
  cases operation with
  | addJobs jobs =>
    obtain ⟨hunf, _, hallDone, hstarted⟩ := addJobs_some hop
    rw [hunf, hallDone, hstarted, hstep]
    simp only [FindsUnfinished, ne_eq, ← List.length_eq_zero_iff]
    constructor
    · intro hiff hstart hlength
      by_contra hzero
      have := (hiff.mp ⟨hstart, by omega⟩).2
      omega
    · intro hguard
      constructor
      · rintro ⟨hstart, hzero⟩
        refine ⟨hstart, ?_⟩
        by_contra hlength
        have := hguard hstart (by omega)
        omega
      · rintro ⟨hstart, hzero⟩
        exact ⟨hstart, by omega⟩
  | start =>
    obtain rfl := Option.some.inj hop
    rw [start_eq]
    simp only [FindsUnfinished, prepareStart]
    simp only [Bool.false_eq_true, false_iff, true_and]
    exact Nat.pos_iff_ne_zero.symm
  | worker i =>
    obtain ⟨worker, hworker, hworkerStep⟩ := workerStep_cases hop
    have hstarted : set.ledger.started = true :=
      h.started (List.ne_nil_of_mem (List.mem_of_getElem? hworker))
    refine iff_of_true ?_ trivial
    cases hworkerStep with
    | finish job hpc =>
      obtain ⟨unfinished, hunf, hqueue, hallDone, hledger⟩ := h.healthy.finish hworker hpc
      simp only [JobsSet.setWorker, hqueue, hallDone, hledger, hstarted, true_and]
      by_cases hzero : unfinished = 0
      · simp [hzero]
      · have hfalse : ¬ set.allDone = true := by
          rw [hstep]
          omega
        simp [hzero, hfalse]
    | _ => exact hstep

theorem Ordered.new (numWorkerThreads : Option Int) (queueSize : Int)
    (userHandlers : JobId → List Nat) :
    (JobsSet.new numWorkerThreads queueSize userHandlers).Ordered where
  healthy := ⟨.new .., rfl, fun job hjob => by simp [JobsSet.new, held] at hjob⟩
  started hne := absurd rfl hne

/-- Of every sequence of operations on a new set: `allDone` is true in exactly
the states in which `start()` was called and no job is unfinished, exactly if
every `start`, and every `addJobs` after it that adds a job, finds a job
unfinished. -/
theorem allDone_in_step_iff_finds_unfinished (numWorkerThreads : Option Int)
    (queueSize : Int) (userHandlers : JobId → List Nat) (operations : List Operation) :
    EveryState operate AllDoneInStep (.new numWorkerThreads queueSize userHandlers)
        operations ↔
      EveryStep operate FindsUnfinished (.new numWorkerThreads queueSize userHandlers)
        operations := by
  refine everyState_iff_everyStep Ordered.operate allDoneInStep_operate_iff
    (.new numWorkerThreads queueSize userHandlers) ?_
  simp [AllDoneInStep, JobsSet.new]

/-- `start` on a set without jobs leaves `allDone` false; a job added after the
last one was finished leaves it true. -/
theorem allDone_out_of_step :
    (∃ set, run operate (.new none 0 fun _ => []) [.start] = some set ∧
        set.ledger.started = true ∧ set.queue.unfinishedTasks = 0 ∧ set.allDone = false) ∧
      ∃ set, run operate (.new (some 1) 0 fun _ => [])
          [.addJobs [0], .start, .worker 0, .worker 0, .worker 0, .worker 0, .worker 0,
            .addJobs [1]] = some set ∧
        set.queue.unfinishedTasks = 1 ∧ set.allDone = true :=
  ⟨⟨_, rfl, rfl, rfl, rfl⟩, ⟨_, rfl, rfl, rfl⟩⟩

end JobsSet

/-! ## Operations are uninterrupted calls -/

namespace System

/-- `addJobs` of the main thread, when no worker comes in between. -/
theorem reaches_addJobs {set set' : JobsSet} {jobs : List JobId} {todo : List Call}
    (hadd : set.addJobs jobs = some set') :
    Reaches step ⟨set, .ready, .addJobs jobs :: todo⟩ ⟨set', .ready, todo⟩ := by
  have hloop : ∀ {jobs : List JobId} {set : JobsSet}, set.addJobs jobs = some set' →
      Reaches step ⟨set, .adding jobs, todo⟩ ⟨set', .ready, todo⟩ := by
    intro jobs
    induction jobs with
    | nil =>
      intro set hadd
      obtain rfl := Option.some.inj hadd
      exact Reaches.single (a := .main) rfl
    | cons job rest ih =>
      intro set hadd
      obtain ⟨added, hfirst, hrest⟩ := Option.bind_eq_some_iff.mp hadd
      obtain ⟨queued, hput, rfl⟩ := Option.map_eq_some_iff.mp hfirst
      have hstep : (⟨set, .adding (job :: rest), todo⟩ : System).step .main =
          some ⟨queued, .attachingDone job rest, todo⟩ := by
        simp [step, mainStep, hput]
      refine Reaches.head hstep (Reaches.head (a := .main) rfl ?_)
      exact Reaches.head (a := .main) rfl (ih hrest)
  exact Reaches.head (a := .main) rfl (hloop hadd)

/-- `start` of the main thread, when no worker comes in between. -/
theorem reaches_start (set : JobsSet) (todo : List Call) :
    Reaches step ⟨set, .ready, .start :: todo⟩ ⟨set.start, .ready, todo⟩ := by
  have hloop : ∀ (count : Nat) (set : JobsSet),
      Reaches step ⟨set, .spawning count, todo⟩
        ⟨(JobsSet.spawn^[count]) set, .ready, todo⟩ := by
    intro count
    induction count with
    | zero => exact fun set => Reaches.single (a := .main) rfl
    | succ count ih => exact fun set => Reaches.head (a := .main) rfl (ih set.spawn)
  exact Reaches.head (a := .main) rfl (hloop set.workerCount set.prepareStart)

/-- The calls that the main thread makes for these operations. -/
def calls : List JobsSet.Operation → List Call
  | [] => []
  | .addJobs jobs :: rest => .addJobs jobs :: calls rest
  | .start :: rest => .start :: calls rest
  | .worker _ :: rest => calls rest

/-- Whatever the operations come to without interruption, some interleaving of the threads comes
to. -/
theorem operations_interleave {set set' : JobsSet} {operations : List JobsSet.Operation}
    (hrun : run JobsSet.operate set operations = some set') :
    Reaches step ⟨set, .ready, calls operations⟩ ⟨set', .ready, []⟩ := by
  induction operations generalizing set with
  | nil =>
    obtain rfl := Option.some.inj hrun
    exact .refl _
  | cons operation rest ih =>
    obtain ⟨next, hop, hrest⟩ := run_cons_some hrun
    have hlater := ih hrest
    cases operation with
    | addJobs jobs => exact (reaches_addJobs hop).trans hlater
    | start =>
      obtain rfl := Option.some.inj hop
      exact (reaches_start set _).trans hlater
    | worker i =>
      apply Reaches.head (a := .worker i) _ hlater
      exact congrArg (Option.map _) hop

/-- Of two workers each takes a job, and the second is the first to finish. -/
theorem operations_interleave_two_jobs : ∃ set',
    Reaches step (init (some 2) 0 (fun _ => []) [.addJobs [0], .start, .addJobs [1]])
        ⟨set', .ready, []⟩ ∧
      set'.ledger.doneFor = [0, 1] ∧ set'.allDone = true := by
  have hrun : run JobsSet.operate (.new (some 2) 0 fun _ => [])
    ([.addJobs [0], .start, .worker 0, .worker 1, .worker 0, .worker 0, .worker 1, .addJobs [1],
      .worker 1, .worker 0, .worker 1, .worker 1, .worker 0]) = some _ := rfl
  exact ⟨_, operations_interleave hrun, rfl, rfl⟩

end System

end OvirtArt.Utils.Jobs
