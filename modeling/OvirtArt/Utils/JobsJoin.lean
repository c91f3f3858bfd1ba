import OvirtArt.Utils.JobsStop

set_option autoImplicit false

/-!
# Accounting and `join()`

`addJobs` puts a job in the queue before it attaches `__jobDoneHandler`.  A
worker that is quick enough finishes the job in between; its `task_done()` is
then never called.  A run accounts every job exactly once, and its `join()`
returns, exactly if no job is finished in that gap.

That a join returns is said of runs that come to rest: no schedule is assumed to be fair.  The
other direction needs that some run goes on, which is built step by step.
-/

namespace OvirtArt.Utils.Jobs

open OvirtArt.Foundation

namespace System

/-- The guard of a step: `finished_event()` finds `__jobDoneHandler`. -/
def FinishesAttached (s : System) (thread : Thread) : Prop :=
  ∀ i worker job, thread = .worker i → s.set.threads[i]? = some worker →
    worker.pc = .finishing job → Handler.jobDoneHandler ∈ s.set.handlers job

/-- The queue is empty and no worker has a job. -/
def Quiescent (s : System) : Prop :=
  s.set.queue.items = [] ∧ ∀ worker ∈ s.set.threads, worker.held = []

instance (s : System) : Decidable s.Quiescent :=
  inferInstanceAs (Decidable (s.set.queue.items = [] ∧ ∀ worker ∈ s.set.threads, _))

/-- Every worker has begun its `run`. -/
def AllBegun (s : System) : Prop := ∀ worker ∈ s.set.threads, worker.pc ≠ .spawned

instance (s : System) : Decidable s.AllBegun :=
  inferInstanceAs (Decidable (∀ worker ∈ s.set.threads, worker.pc ≠ .spawned))

/-- `join()` is the next call, or waits for the queue. -/
def AtJoin (s : System) : Prop :=
  (s.main = .ready ∧ s.todo = [.join]) ∨ (s.main = .joiningQueue ∧ s.todo = [])

instance (s : System) : Decidable s.AtJoin :=
  inferInstanceAs (Decidable ((_ ∧ _) ∨ (_ ∧ _)))

/-- The main thread has made all its calls. -/
def Done (s : System) : Prop := s.main = .ready ∧ s.todo = []

/-- `join()` returns: whatever the threads do first, it still can. -/
def JoinReturns (s : System) : Prop :=
  ∀ t, Reaches step s t → ∃ u, Reaches step t u ∧ u.Done

/-! ## Missed jobs -/

variable {s t : System} {thread : Thread}

/-- Nothing is missed after a step exactly if nothing was missed before it and
the step finishes no job in the gap. -/
theorem missed_step_iff (hbalanced : s.set.Balanced) (hstep : s.step thread = some t) :
    t.set.ledger.missed = [] ↔
      s.set.ledger.missed = [] ∧ s.FinishesAttached thread := by
  rcases step_cases hstep with ⟨rfl, hmain⟩ | ⟨i, worker, set, rfl, hworker, hset, rfl⟩
  · have hguard : s.FinishesAttached .main := by
      intro i worker job heq
      simp at heq
    have hsame : t.set.ledger.missed = s.set.ledger.missed := by
      cases hmain with
      | put job rest set _ hput =>
        obtain rfl := JobsSet.put_some hput
        rfl
      | _ => rfl
    rw [hsame]
    exact (and_iff_left hguard).symm
  · have hother : (∀ job, worker.pc ≠ .finishing job) → s.FinishesAttached (.worker i) := by
      intro hne k other job heq hk hpc
      obtain rfl : i = k := by simpa using heq
      obtain rfl : worker = other := Option.some.inj (hworker.symm.trans hk)
      exact absurd hpc (hne job)
    cases hset with
    | finish job hpc =>
      have hheld := WorkerThread.held_of_finishing hpc
      obtain ⟨unfinished, hunf⟩ := hbalanced.unfinished_pos hworker hheld
      have hguard : s.FinishesAttached (.worker i) ↔
          Handler.jobDoneHandler ∈ s.set.handlers job := by
        constructor
        · intro h
          exact h i worker job rfl hworker hpc
        · intro hmem k other job' heq hk hpc'
          obtain rfl : i = k := by simpa using heq
          obtain rfl : worker = other := Option.some.inj (hworker.symm.trans hk)
          obtain rfl : job = job' := by simpa [hpc] using hpc'
          exact hmem
      rw [hguard]
      by_cases hmem : Handler.jobDoneHandler ∈ s.set.handlers job
      · obtain ⟨_, _, hledger⟩ := JobsSet.finishedEvent_done hmem hunf
        simp [JobsSet.setWorker, hledger, hmem]
      · obtain ⟨_, _, hledger⟩ := JobsSet.finishedEvent_missed hmem
        simp [JobsSet.setWorker, hledger, hmem]
    | begin hpc | loop hpc _ | leave hpc _ | timeout hpc _ | take _ _ hpc _ | target _ hpc
    | exit hpc =>
      exact (and_iff_left (hother (by simp [hpc]))).symm

/-- Nothing was missed at the end of a run exactly if no step of it finished a
job in the gap. -/
theorem missed_nil_iff {schedule : List Thread} (hbalanced : s.set.Balanced)
    (hnil : s.set.ledger.missed = []) (hrun : run step s schedule = some t) :
    t.set.ledger.missed = [] ↔ EveryStep step FinishesAttached s schedule := by
  have hlast := last_iff_everyStep (Q := fun s => s.set.ledger.missed = [])
    balanced_step missed_step_iff hbalanced hrun
  rw [hlast]
  exact and_iff_right hnil

/-! ## What `join()` leaves -/

/-- `join()` is past the wait for the queue. -/
def Released (s : System) : Prop :=
  match s.main with
  | .stopping _ => True
  | .joining _ => True
  | _ => False

/-- With nothing unfinished no worker has a job to finish. -/
theorem drained_step (hbalanced : s.set.Balanced)
    (h : s.Released → s.set.queue.unfinishedTasks = 0) (hstep : s.step thread = some t) :
    t.Released → t.set.queue.unfinishedTasks = 0 := by
  rcases step_cases hstep with ⟨rfl, hmain⟩ | ⟨i, worker, set, rfl, hworker, hset, rfl⟩
  · cases hmain with
    | released _ hunf => exact fun _ => hunf
    | stop _ hpc _ | allStopped _ hpc _ | joined _ _ hpc _ _ =>
      exact fun _ => h (by simp [Released, hpc])
    | _ => exact nofun
  · intro hreleased
    have hzero := h hreleased
    cases hset with
    | finish job hpc =>
      obtain ⟨unfinished, hunf⟩ :=
        hbalanced.unfinished_pos hworker (WorkerThread.held_of_finishing hpc)
      omega
    | _ => exact hzero

/-- Whatever the main thread calls and however the threads are interleaved: once `join()` is past
the wait for the queue, no job is in the queue or in the hands of a worker, and each has been
accounted as often as it was put. -/
theorem join_leaves_nothing {numWorkerThreads : Option Int} {queueSize : Int}
    {userHandlers : JobId → List Nat} {calls : List Call} {schedule : List Thread}
    (hrun : run step (init numWorkerThreads queueSize userHandlers calls) schedule = some s)
    (hreleased : s.Released) :
    s.set.queue.items = [] ∧ s.set.held = [] ∧
      ∀ job, s.set.ledger.doneFor.count job = s.set.ledger.put.count job := by
  have hdrained : s.set.Balanced ∧ (s.Released → s.set.queue.unfinishedTasks = 0) :=
    run_invariant (I := fun s => s.set.Balanced ∧ (s.Released → s.set.queue.unfinishedTasks = 0))
      (fun h hstep => ⟨balanced_step h.1 hstep, drained_step h.1 h.2 hstep⟩)
      ⟨.new .., nofun⟩ hrun
  have hunf := hdrained.1.unfinished
  rw [hdrained.2 hreleased, eq_comm, Nat.add_eq_zero_iff, Nat.add_eq_zero_iff] at hunf
  simp only [List.length_eq_zero_iff] at hunf
  obtain ⟨⟨hitems, hheld⟩, hmissed⟩ := hunf
  refine ⟨hitems, hheld, fun job => ?_⟩
  have hjobs := hdrained.1.jobs job
  simp only [hitems, hheld, hmissed, List.count_nil] at hjobs
  omega

/-- Two jobs and two workers, which still have them when `join()` is called. -/
theorem join_leaves_nothing_two_jobs : ∃ s : System, s.Released ∧ s.set.ledger.put = [1, 0] ∧
    ∀ job ∈ [0, 1], s.set.ledger.doneFor.count job = s.set.ledger.put.count job := by
  have hrun : run step (init (some 2) 0 (fun _ => []) [.addJobs [0, 1], .start, .join])
    (List.replicate 12 .main ++ List.replicate 3 (.worker 0) ++ List.replicate 4 (.worker 1) ++
      [.main, .worker 1, .worker 0, .worker 0, .main, .main]) = some _ := rfl
  refine ⟨_, ?_, ?_, fun job _ => (join_leaves_nothing hrun trivial).2.2 job⟩
  · trivial
  · rfl

/-! ## Every job is put once -/

/-- The jobs that the main thread still has to put. -/
def toPut (s : System) : List JobId :=
  (match s.main with
    | .adding rest => rest
    | .attachingDone _ rest => rest
    | .attachingAny _ rest => rest
    | _ => []) ++
  s.todo.flatMap fun call =>
    match call with
    | .addJobs jobs => jobs
    | _ => []

/-- Every step keeps the jobs put and still to put together. -/
theorem toPut_step (hbalanced : s.set.Balanced) (hstep : s.step thread = some t) (job : JobId) :
    t.set.ledger.put.count job + t.toPut.count job =
      s.set.ledger.put.count job + s.toPut.count job := by
  rcases step_cases hstep with ⟨rfl, hmain⟩ | ⟨i, worker, set, rfl, hworker, hset, rfl⟩
  · cases hmain with
    | put other rest set hpc hput =>
      obtain rfl := JobsSet.put_some hput
      simp only [toPut, hpc, List.count_append, List.count_cons]
      omega
    | callAddJobs jobs rest hpc htodo => simp [toPut, hpc, htodo]
    | callStart rest hpc htodo => simp [toPut, hpc, htodo, JobsSet.prepareStart]
    | callJoin rest hpc htodo => simp [toPut, hpc, htodo]
    | added hpc | attachDone _ _ hpc | attachAny _ _ hpc | started hpc | spawn _ hpc
    | released hpc _ | stop _ hpc _ | allStopped _ hpc _ | joined _ _ hpc _ _
    | allJoined _ hpc _ => simp [toPut, hpc, JobsSet.attach, JobsSet.spawn, JobsSet.stopWorker]
  · obtain ⟨hput, _⟩ := JobsSet.ledger_workerStep hbalanced hworker hset job
    simp [toPut, hput]

theorem toPut_init (numWorkerThreads : Option Int) (queueSize : Int)
    (userHandlers : JobId → List Nat) (pre post : List (List JobId)) :
    (init numWorkerThreads queueSize userHandlers (addStartAddJoin pre post)).toPut =
      (pre ++ post).flatten := by
  have hjobs : ∀ lists : List (List JobId),
      (lists.map Call.addJobs).flatMap (fun call =>
        match call with
        | .addJobs jobs => jobs
        | _ => []) = lists.flatten := by
    intro lists
    induction lists with
    | nil => rfl
    | cons first rest ih => simp [ih]
  simp [toPut, init, addStartAddJoin, hjobs]

/-- Of distinct jobs each is put at most once. -/
theorem put_count_le_one {numWorkerThreads : Option Int} {queueSize : Int}
    {userHandlers : JobId → List Nat} {pre post : List (List JobId)} {schedule : List Thread}
    (hnodup : (pre ++ post).flatten.Nodup)
    (hrun : run step (init numWorkerThreads queueSize userHandlers
      (addStartAddJoin pre post)) schedule = some s) (job : JobId) :
    s.set.ledger.put.count job ≤ 1 := by
  have hkept : s.set.Balanced ∧ s.set.ledger.put.count job + s.toPut.count job =
      (pre ++ post).flatten.count job := by
    refine run_invariant
      (I := fun s : System => s.set.Balanced ∧ s.set.ledger.put.count job +
        s.toPut.count job = (pre ++ post).flatten.count job) ?_ ?_ hrun
    · rintro before after thread ⟨hbalanced, heq⟩ hstep
      exact ⟨balanced_step hbalanced hstep, (toPut_step hbalanced hstep job).trans heq⟩
    · refine ⟨.new .., ?_⟩
      rw [toPut_init]
      simp [init, JobsSet.new]
  have honce := List.nodup_iff_count_le_one.mp hnodup job
  omega

/-! ## `join()` returns -/

/-- From here on nothing is left but to return from `join()`. -/
structure Closing (s : System) : Prop where
  balanced : s.set.Balanced
  drained : s.set.queue.unfinishedTasks = 0
  begun : s.AllBegun
  kept : s.StopKept
  stops : ∃ post, Phase post s
  place : (s.main = .ready ∧ s.todo = [.join]) ∨
    (s.todo = [] ∧ (s.main = .ready ∨ s.InJoin))

/-- A stop leaves a worker where it is. -/
theorem AllBegun.stopWorker (h : s.AllBegun) (i : Nat) :
    ∀ worker ∈ (s.set.stopWorker i).threads, worker.pc ≠ .spawned := by
  intro worker hmem
  obtain ⟨k, hk⟩ := List.getElem?_of_mem hmem
  rw [JobsSet.getElem?_stopWorker] at hk
  obtain ⟨before, hbefore, rfl⟩ := Option.map_eq_some_iff.mp hk
  have hbegun := h before (List.mem_of_getElem? hbefore)
  split
  · exact hbegun
  · exact hbegun

/-- The main thread is in its last call. -/
theorem Closing.todo_of_not_ready (h : s.Closing) (hmain : s.main ≠ .ready) : s.todo = [] := by
  rcases h.place with ⟨hready, _⟩ | ⟨hnil, _⟩
  · exact absurd hready hmain
  · exact hnil

/-- With nothing unfinished no worker holds a job. -/
theorem Closing.held_ne (h : s.Closing) {i : Nat} {worker : WorkerThread}
    (hworker : s.set.threads[i]? = some worker) (job : JobId) : worker.held ≠ [job] := by
  intro hheld
  obtain ⟨unfinished, hunf⟩ := h.balanced.unfinished_pos hworker hheld
  have hzero := h.drained
  omega

theorem Closing.step (h : s.Closing) (hstep : s.step thread = some t) : t.Closing := by
  have hkept : s.BeginsInTime thread := by
    rintro i worker rfl hworker hpc
    exact absurd hpc (h.begun worker (List.mem_of_getElem? hworker))
  obtain ⟨post, hphase⟩ := h.stops
  have hstops := phase_step hphase hstep
  have hstopKept := (stopKept_step_iff h.kept hstep).mpr hkept
  have hbalanced := balanced_step h.balanced hstep
  suffices t.set.queue.unfinishedTasks = 0 ∧ t.AllBegun ∧
      ((t.main = .ready ∧ t.todo = [.join]) ∨ (t.todo = [] ∧ (t.main = .ready ∨ t.InJoin)))
    from ⟨hbalanced, this.1, this.2.1, hstopKept, ⟨post, hstops⟩, this.2.2⟩
  rcases step_cases hstep with ⟨rfl, hmain⟩ | ⟨i, worker, set, rfl, hworker, hset, rfl⟩
  · cases hmain with
    | callJoin rest hpc htodo =>
      have hrest : rest = [] := by
        rcases h.place with ⟨_, htodo'⟩ | ⟨htodo', _⟩
        · simpa [htodo] using htodo'
        · simp [htodo] at htodo'
      exact ⟨h.drained, h.begun, Or.inr ⟨hrest, Or.inr trivial⟩⟩
    | callAddJobs jobs rest hpc htodo | callStart rest hpc htodo =>
      rcases h.place with ⟨_, htodo'⟩ | ⟨htodo', _⟩ <;> simp [htodo] at htodo'
    | released hpc _ | allStopped _ hpc _ | joined _ _ hpc _ _ =>
      have hnil := h.todo_of_not_ready (by simp [hpc])
      exact ⟨h.drained, h.begun, Or.inr ⟨hnil, Or.inr trivial⟩⟩
    | stop i hpc _ =>
      have hnil := h.todo_of_not_ready (by simp [hpc])
      exact ⟨h.drained, h.begun.stopWorker i, Or.inr ⟨hnil, Or.inr trivial⟩⟩
    | allJoined i hpc _ =>
      have hnil := h.todo_of_not_ready (by simp [hpc])
      exact ⟨h.drained, h.begun, Or.inr ⟨hnil, Or.inl rfl⟩⟩
    | added hpc | put _ _ _ hpc _ | attachDone _ _ hpc | attachAny _ _ hpc | started hpc
    | spawn _ hpc =>
      rcases h.place with ⟨hready, _⟩ | ⟨_, hready | hjoin⟩
      · simp [hpc] at hready
      · simp [hpc] at hready
      · simp [InJoin, hpc] at hjoin
  · have hnone := h.held_ne hworker
    have hset' : ∀ pc, pc ≠ .spawned → ∀ state,
        ∀ other ∈ (s.set.setWorker i { worker with state := state, pc := pc }).threads,
          other.pc ≠ .spawned :=
      fun pc hpc state => forall_mem_set h.begun hpc
    refine ⟨?_, ?_, h.place⟩
    · cases hset with
      | finish job hpc => exact absurd (WorkerThread.held_of_finishing hpc) (hnone job)
      | _ => exact h.drained
    · cases hset with
      | finish job hpc => exact absurd (WorkerThread.held_of_finishing hpc) (hnone job)
      | target job hpc => exact absurd (WorkerThread.held_of_holding hpc) (hnone job)
      | _ => exact hset' _ (by simp) _

/-- `__stopWorkers` comes to its end. -/
theorem reach_joining :
    ∀ (n : Nat) {s : System} {k : Nat}, s.main = .stopping k →
      s.set.threads.length ≤ k + n → ∃ t, Reaches step s t ∧ t.main = .joining 0
  | 0, s, k, hmain, hlength => by
      have hstep : s.step .main = some { s with main := .joining 0 } := by
        have hlt : ¬ k < s.set.threads.length := by omega
        simp [System.step, mainStep, hmain, hlt]
      exact ⟨_, Reaches.single hstep, rfl⟩
  | n + 1, s, k, hmain, hlength => by
      by_cases hlt : k < s.set.threads.length
      · have hstep : s.step .main = some
            { s with set := s.set.stopWorker k, main := .stopping (k + 1) } := by
          simp [System.step, mainStep, hmain, hlt]
        obtain ⟨t, hreach, hjoining⟩ := reach_joining n
          (s := { s with set := s.set.stopWorker k, main := .stopping (k + 1) })
          rfl (by simp [JobsSet.stopWorker]; omega)
        exact ⟨t, Reaches.head hstep hreach, hjoining⟩
      · exact reach_joining n hmain (by omega)

/-- The last loop of `join` comes to its end: every thread returns. -/
theorem Closing.reach_joined :
    ∀ (n : Nat) {s : System} {k : Nat}, s.Closing → s.main = .joining k →
      s.set.threads.length = k + n → ∃ t, Reaches System.step s t ∧ t.Done
  | 0, s, k, h, hmain, hlength => by
      have hnone : s.set.threads[k]? = none := by
        rw [List.getElem?_eq_none_iff]
        omega
      have hstep : s.step .main = some { s with main := .ready } := by
        simp [System.step, mainStep, hmain, hnone]
      have hnil : s.todo = [] := by
        rcases h.place with ⟨hready, _⟩ | ⟨hnil, _⟩
        · simp [hmain] at hready
        · exact hnil
      exact ⟨_, Reaches.single hstep, rfl, hnil⟩
  | n + 1, s, k, h, hmain, hlength => by
      obtain ⟨worker, hworker⟩ : ∃ worker, s.set.threads[k]? = some worker :=
        ⟨_, List.getElem?_eq_getElem (by omega)⟩
      have hmem := List.mem_of_getElem? hworker
      -- `stop()` was called on the thread before `join` came to it
      have hrequest : worker.stopRequested = true := by
        obtain ⟨post, hphase⟩ := h.stops
        simp only [Phase, hmain] at hphase
        exact hphase.1 k worker (by omega) hworker
      have hstate := (h.kept worker hmem).state_ne_running hrequest
      obtain ⟨set, after, hreach, hafter, hexited⟩ :=
        JobsSet.reach_exited hworker (h.begun worker hmem) hstate
      have hwaited := reaches_of_workersReach hreach
      have hclosing := hwaited.invariant Closing.step h
      have hjoined : ({ s with set := set } : System).step .main =
          some { s with set := set, main := .joining (k + 1) } := by
        simp [System.step, mainStep, hmain, hafter, hexited]
      have hsame : set.threads.length = s.set.threads.length := by
        have hrequests : set.stopRequests = s.set.stopRequests := by
          refine hreach.invariant
            (I := fun other => other.stopRequests = s.set.stopRequests) ?_ rfl
          intro before next i heq hstep
          obtain ⟨moved, hmoved, hworkerStep⟩ := JobsSet.workerStep_cases hstep
          exact (JobsSet.stopRequests_workerStep hmoved hworkerStep).trans heq
        have := congrArg List.length hrequests
        simpa [JobsSet.stopRequests] using this
      obtain ⟨t, hrest, hdone⟩ := Closing.reach_joined n (hclosing.step hjoined) rfl
        (by simp only [hsame]; omega)
      exact ⟨t, hwaited.trans (Reaches.head hjoined hrest), hdone⟩

/-- From every closing state `join()` can return. -/
theorem Closing.reach_done (h : s.Closing) : ∃ t, Reaches System.step s t ∧ t.Done := by
  have hjoining : ∀ {s : System}, s.Closing → s.main = .joining 0 →
      ∃ t, Reaches System.step s t ∧ t.Done :=
    fun h hmain => h.reach_joined _ hmain (Nat.zero_add _).symm
  have hstopping : ∀ {s : System} {k : Nat}, s.Closing → s.main = .stopping k →
      ∃ t, Reaches System.step s t ∧ t.Done := by
    intro s k h hmain
    obtain ⟨t, hreach, ht⟩ := reach_joining s.set.threads.length hmain (by omega)
    obtain ⟨u, hrest, hu⟩ := hjoining (hreach.invariant Closing.step h) ht
    exact ⟨u, hreach.trans hrest, hu⟩
  have hqueue : ∀ {s : System}, s.Closing → s.main = .joiningQueue →
      ∃ t, Reaches System.step s t ∧ t.Done := by
    intro s h hmain
    have hstep : s.step .main = some { s with main := .stopping 0 } := by
      simp [System.step, mainStep, hmain, h.drained]
    obtain ⟨t, hrest, ht⟩ := hstopping (h.step hstep) rfl
    exact ⟨t, Reaches.head hstep hrest, ht⟩
  rcases h.place with ⟨hready, htodo⟩ | ⟨hnil, hready | hjoin⟩
  · have hstep : s.step .main = some { s with main := .joiningQueue, todo := [] } := by
      simp [System.step, mainStep, hready, htodo]
    obtain ⟨t, hrest, ht⟩ := hqueue (h.step hstep) rfl
    exact ⟨t, Reaches.head hstep hrest, ht⟩
  · exact ⟨s, Reaches.refl s, hready, hnil⟩
  · cases hmain : s.main with
    | joiningQueue => exact hqueue h hmain
    | stopping k => exact hstopping h hmain
    | joining k =>
      obtain ⟨t, hreach, ht⟩ : ∃ t, Reaches System.step s t ∧ t.Done := by
        by_cases hk : k ≤ s.set.threads.length
        · exact h.reach_joined (s.set.threads.length - k) hmain (by omega)
        · have hnone : s.set.threads[k]? = none := by
            rw [List.getElem?_eq_none_iff]
            omega
          have hstep : s.step .main = some { s with main := .ready } := by
            simp [System.step, mainStep, hmain, hnone]
          exact ⟨_, Reaches.single hstep, rfl, hnil⟩
      exact ⟨t, hreach, ht⟩
    | _ => simp [InJoin, hmain] at hjoin

/-- With every job accounted and every worker begun, `join()` returns. -/
theorem joinReturns_of_drained {post : List (List JobId)} (hphase : Phase post s)
    (hbalanced : s.set.Balanced) (hunf : s.set.queue.unfinishedTasks = 0) (hplace : s.AtJoin)
    (hbegun : s.AllBegun) : s.JoinReturns := by
  have hunstopped : s.set.Unstopped := by
    rcases hplace with ⟨hmain, htodo⟩ | ⟨hmain, _⟩
    · simp only [Phase, hmain] at hphase
      rcases hphase with ⟨hthreads, _⟩ | ⟨hunstopped, _⟩ | hnil
      · simp [JobsSet.Unstopped, JobsSet.stopRequests, hthreads]
      · exact hunstopped
      · simp [hnil] at htodo
    · simp only [Phase, hmain] at hphase
      exact hphase.1
  have hclosing : s.Closing := by
    refine ⟨hbalanced, hunf, hbegun, ?_, ⟨post, hphase⟩, ?_⟩
    · intro worker hmem hrequest
      have hfalse : worker.stopRequested = false :=
        hunstopped _ (List.mem_map_of_mem hmem)
      simp [hfalse] at hrequest
    · rcases hplace with ⟨hmain, htodo⟩ | ⟨hmain, htodo⟩
      · exact Or.inl ⟨hmain, htodo⟩
      · exact Or.inr ⟨htodo, Or.inr (by simp [InJoin, hmain])⟩
  intro t hreach
  exact (hreach.invariant Closing.step hclosing).reach_done

/-- In a quiescent state of a run over distinct jobs: every job put is accounted
exactly once, `unfinished_tasks` is 0 and `join()` returns if it is next, exactly
if every `finished_event()` of the run found `__jobDoneHandler` attached. -/
theorem accounted_once_iff_finishes_attached (numWorkerThreads : Option Int)
    (queueSize : Int) (userHandlers : JobId → List Nat) (pre post : List (List JobId))
    (hnodup : (pre ++ post).flatten.Nodup) (schedule : List Thread) (s : System)
    (hrun : run step (init numWorkerThreads queueSize userHandlers
      (addStartAddJoin pre post)) schedule = some s) (hquiet : s.Quiescent) :
    ((∀ job ∈ s.set.ledger.put, s.set.ledger.doneFor.count job = 1) ∧
        s.set.queue.unfinishedTasks = 0 ∧
        (s.AtJoin → s.AllBegun → s.JoinReturns)) ↔
      EveryStep step FinishesAttached (init numWorkerThreads queueSize userHandlers
        (addStartAddJoin pre post)) schedule := by
  have hbalanced := balanced_run hrun
  have hphase := run_invariant (I := Phase post) phase_step (phase_init ..) hrun
  rw [← missed_nil_iff (.new ..) rfl hrun]
  obtain ⟨hitems, hheld⟩ := hquiet
  have hnone : s.set.held = [] := by
    simpa [JobsSet.held, List.flatMap_eq_nil_iff] using hheld
  have hunf := hbalanced.unfinished
  simp only [hitems, hnone, List.length_nil] at hunf
  have hjobs : ∀ job, s.set.ledger.put.count job =
      s.set.ledger.doneFor.count job + s.set.ledger.missed.count job := by
    intro job
    have := hbalanced.jobs job
    simp only [hitems, hnone, List.count_nil] at this
    omega
  constructor
  · rintro ⟨haccounted, _, _⟩
    rw [List.eq_nil_iff_forall_not_mem]
    intro job hmissed
    -- put twice, or accounted and missed at once
    have hpos : 0 < s.set.ledger.missed.count job := List.count_pos_iff.mpr hmissed
    have heq := hjobs job
    have hput : job ∈ s.set.ledger.put := List.count_pos_iff.mp (by omega)
    have hdone := haccounted job hput
    have honce := put_count_le_one hnodup hrun job
    omega
  · intro hmissed
    simp only [hmissed, List.length_nil, List.count_nil] at hunf hjobs
    refine ⟨?_, by omega, ?_⟩
    · intro job hput
      have hpos : 0 < s.set.ledger.put.count job := List.count_pos_iff.mpr hput
      have heq := hjobs job
      have honce := put_count_le_one hnodup hrun job
      omega
    · intro hplace hbegun
      exact joinReturns_of_drained hphase hbalanced (by omega) hplace hbegun

/-- A job is added before `start` and another while the first worker holds that one; the second
worker is the first to finish its job. -/
def twoJobs : List Thread :=
  List.replicate 9 .main ++ [.worker 0, .worker 1, .worker 0, .worker 0, .worker 1] ++
    List.replicate 4 .main ++
    [.worker 1, .worker 0, .worker 1, .main, .worker 1, .worker 0, .main]

theorem accounted_once_two_jobs : ∃ s,
    run step (init (some 2) 0 (fun _ => []) (addStartAddJoin [[0]] [[1]])) twoJobs = some s ∧
      s.set.ledger.put = [1, 0] ∧ s.AtJoin ∧ s.AllBegun ∧
      (∀ job ∈ s.set.ledger.put, s.set.ledger.doneFor.count job = 1) ∧
      s.set.queue.unfinishedTasks = 0 ∧ s.JoinReturns := by
  have hrun : ∃ s, run step (init (some 2) 0 (fun _ => []) (addStartAddJoin [[0]] [[1]]))
      twoJobs = some s ∧
      s.set.ledger.put = [1, 0] ∧ s.Quiescent ∧ s.AtJoin ∧ s.AllBegun ∧
      s.set.ledger.missed = [] :=
    ⟨_, rfl, rfl, by decide, by decide, by decide, rfl⟩
  obtain ⟨s, hrun, hput, hquiet, hplace, hbegun, hmissed⟩ := hrun
  obtain ⟨haccounted, hunf, hreturns⟩ :=
    (accounted_once_iff_finishes_attached (some 2) 0 (fun _ => []) [[0]] [[1]]
      (by decide) _ s hrun hquiet).mpr ((missed_nil_iff (.new ..) rfl hrun).mp hmissed)
  exact ⟨s, hrun, hput, hplace, hbegun, haccounted, hunf, hreturns hplace hbegun⟩

/-! ## What a missed job costs -/

/-- `join()` waits for a missed job for ever. -/
theorem not_joinReturns_of_missed (hbalanced : s.set.Balanced) (hmissed : s.set.ledger.missed ≠ [])
    (hplace : s.AtJoin) : ¬ s.JoinReturns := by
  have hkeep : ∀ {s t : System} {thread : Thread},
      s.set.Balanced ∧ s.set.ledger.missed ≠ [] ∧ s.AtJoin → s.step thread = some t →
        t.set.Balanced ∧ t.set.ledger.missed ≠ [] ∧ t.AtJoin := by
    rintro s t thread ⟨hbalanced, hmissed, hplace⟩ hstep
    refine ⟨balanced_step hbalanced hstep, ?_, ?_⟩
    · intro hnil
      exact hmissed ((missed_step_iff hbalanced hstep).mp hnil).1
    · rcases step_cases hstep with ⟨rfl, hmain⟩ | ⟨i, worker, set, rfl, _, _, rfl⟩
      · rcases hplace with ⟨hready, htodo⟩ | ⟨hjoining, htodo⟩
        · cases hmain with
          | callJoin rest _ hcalls =>
            have hrest : rest = [] := by simpa [htodo] using hcalls.symm
            exact Or.inr ⟨rfl, hrest⟩
          | _ => simp_all
        · cases hmain with
          | released _ hunf =>
            have hlength := hbalanced.unfinished
            have hpos := List.length_pos_iff.mpr hmissed
            omega
          | _ => simp_all
      · exact hplace
  intro hreturns
  obtain ⟨u, hreach, hready, htodo⟩ := hreturns s (Reaches.refl s)
  obtain ⟨_, _, hplace⟩ := hreach.invariant hkeep ⟨hbalanced, hmissed, hplace⟩
  rcases hplace with ⟨_, hjoin⟩ | ⟨hjoining, _⟩
  · simp [htodo] at hjoin
  · simp [hready] at hjoining

/-- A job is added to a running set, and its worker is done with it before
`addJobs` attaches `__jobDoneHandler`. -/
theorem job_missed_in_the_gap : ∃ schedule s,
    run step (init (some 1) 0 (fun _ => []) (addStartAddJoin [] [[0]])) schedule = some s ∧
      s.Quiescent ∧ s.AtJoin ∧ s.AllBegun ∧ 0 ∈ s.set.ledger.put ∧
      s.set.ledger.doneFor.count 0 = 0 ∧ s.set.queue.unfinishedTasks = 1 ∧
      ¬ s.JoinReturns := by
  have hrun : ∃ s, run step (init (some 1) 0 (fun _ => []) (addStartAddJoin [] [[0]]))
      [.main, .main, .main, .main, .main, .worker 0, .worker 0, .worker 0, .worker 0,
        .worker 0, .main, .main, .main] = some s ∧
      s.Quiescent ∧ s.AtJoin ∧ s.AllBegun ∧ 0 ∈ s.set.ledger.put ∧
      s.set.ledger.doneFor.count 0 = 0 ∧ s.set.queue.unfinishedTasks = 1 ∧
      s.set.ledger.missed ≠ [] :=
    ⟨_, rfl, by decide, by decide, by decide, by decide, by decide, rfl, by decide⟩
  obtain ⟨s, hrun, hquiet, hplace, hbegun, hput, hdone, hunf, hmissed⟩ := hrun
  exact ⟨_, s, hrun, hquiet, hplace, hbegun, hput, hdone, hunf,
    not_joinReturns_of_missed (balanced_run hrun) hmissed hplace⟩

end System

end OvirtArt.Utils.Jobs
