import OvirtArt.Utils.JobsPhases

set_option autoImplicit false

/-!
# `stop()` and the workers that begin late

`Worker.run` sets its state to `RUNNING` itself, in its own thread.  A `stop()`
is therefore kept exactly where the worker has begun before: a worker that
begins after `stop()` overwrites the request and loops for ever.

The condition is on the run, that all workers begin before they are told to stop; the converse
shows a worker that never ends under any schedule.
-/

namespace OvirtArt.Utils.Jobs

open OvirtArt.Foundation

/-- A property of every worker outlives the replacement of one. -/
theorem forall_mem_set {l : List WorkerThread} {i : Nat} {new : WorkerThread}
    {P : WorkerThread → Prop} (hall : ∀ worker ∈ l, P worker) (hnew : P new) :
    ∀ worker ∈ l.set i new, P worker := by
  intro worker hmem
  rcases List.mem_or_eq_of_mem_set hmem with hold | rfl
  · exact hall worker hold
  · exact hnew

namespace WorkerThread

/-- A `stop()` is not forgotten. -/
def StopKept (worker : WorkerThread) : Prop :=
  worker.stopRequested = true →
    worker.state = some .stopping ∨ worker.state = some .stopped

/-- Inside the loop a worker is `RUNNING` until it is told to stop. -/
def RunsUntilStop (worker : WorkerThread) : Prop :=
  worker.stopRequested = false → worker.InLoop → worker.state = some .running

theorem StopKept.state_ne_running {worker : WorkerThread} (h : worker.StopKept)
    (hrequest : worker.stopRequested = true) : worker.state ≠ some .running := by
  rcases h hrequest with hstate | hstate <;> simp [hstate]

theorem stopKept_stop (worker : WorkerThread) : worker.stop.StopKept :=
  fun _ => Or.inl rfl

end WorkerThread

namespace System

/-- No `stop()` called so far is lost. -/
def StopKept (s : System) : Prop := ∀ worker ∈ s.set.threads, worker.StopKept

/-- The guard of a step: a worker that executes the first statement of `run` was
not told to stop before. -/
def BeginsInTime (s : System) (thread : Thread) : Prop :=
  ∀ i worker, thread = .worker i → s.set.threads[i]? = some worker →
    worker.pc = .spawned → worker.stopRequested = false

/-- The worker `i` is in `__iterjobs`, or in the loop over it, and stays there
whatever happens. -/
def LoopsForever (s : System) (i : Nat) : Prop :=
  ∀ t, Reaches step s t → ∃ worker, t.set.threads[i]? = some worker ∧ worker.InLoop

/-! ## One step -/

variable {worker : WorkerThread} {s t : System} {thread : Thread} {i : Nat}

/-- The main thread only ever adds new workers and stops workers. -/
theorem forall_mem_mainStep {P : WorkerThread → Prop} (hstep : MainStep s t)
    (hall : ∀ worker ∈ s.set.threads, P worker) (hnew : P .new)
    (hstop : ∀ worker, P worker → P worker.stop) : ∀ worker ∈ t.set.threads, P worker := by
  cases hstep with
  | put job rest set _ hput =>
    obtain rfl := JobsSet.put_some hput
    exact hall
  | spawn count _ =>
    intro worker hmem
    simp only [JobsSet.spawn, List.mem_append, List.mem_singleton] at hmem
    rcases hmem with hold | rfl
    · exact hall worker hold
    · exact hnew
  | stop i _ _ =>
    intro worker hmem
    obtain ⟨k, hk⟩ := List.getElem?_of_mem hmem
    rw [JobsSet.getElem?_stopWorker] at hk
    obtain ⟨before, hbefore, rfl⟩ := Option.map_eq_some_iff.mp hk
    have hP := hall before (List.mem_of_getElem? hbefore)
    split
    · exact hstop before hP
    · exact hP
  | _ => exact hall

/-- A step keeps every `stop()` exactly if it does not begin a stopped worker. -/
theorem stopKept_step_iff (hkept : s.StopKept) (hstep : s.step thread = some t) :
    t.StopKept ↔ s.BeginsInTime thread := by
  rcases step_cases hstep with ⟨rfl, hmain⟩ | ⟨i, worker, set, rfl, hworker, hset, rfl⟩
  · constructor
    · intro _ i worker heq
      simp at heq
    · intro _
      exact forall_mem_mainStep hmain hkept (by simp [WorkerThread.StopKept, WorkerThread.new])
        fun worker _ => worker.stopKept_stop
  · have hold : worker.StopKept := hkept worker (List.mem_of_getElem? hworker)
    have hintime : worker.pc ≠ .spawned → s.BeginsInTime (.worker i) := by
      intro hpc k other heq hother hspawned
      obtain rfl : i = k := by simpa using heq
      obtain rfl : worker = other := Option.some.inj (hworker.symm.trans hother)
      exact absurd hspawned hpc
    cases hset with
    | begin hpc =>
      constructor
      · intro hafter k other heq hother _
        obtain rfl : i = k := by simpa using heq
        obtain rfl : worker = other := Option.some.inj (hworker.symm.trans hother)
        have hmem : { worker with state := some .running, pc := .test } ∈
            (s.set.setWorker i
              { worker with state := some .running, pc := .test }).threads :=
          List.mem_of_getElem? (JobsSet.getElem?_setWorker_self hworker)
        have hnew := hafter _ hmem
        cases hrequest : worker.stopRequested with
        | false => rfl
        | true => exact absurd (hnew hrequest) (by simp)
      · intro hguard
        refine forall_mem_set hkept ?_
        intro hrequest
        have hfalse := hguard i worker rfl hworker hpc
        simp [hfalse] at hrequest
    | finish job hpc =>
      refine iff_of_true ?_ (hintime (by simp [hpc]))
      have hnew : WorkerThread.StopKept { worker with pc := .test } := hold
      intro other hmem
      simp only [JobsSet.setWorker, JobsSet.threads_finishedEvent] at hmem
      exact forall_mem_set hkept hnew other hmem
    | exit hpc =>
      refine iff_of_true (forall_mem_set hkept ?_) (hintime (by simp [hpc]))
      exact fun _ => Or.inr rfl
    | loop hpc _ =>
      exact iff_of_true (forall_mem_set hkept hold) (hintime (by simp [hpc]))
    | leave hpc _ =>
      exact iff_of_true (forall_mem_set hkept hold) (hintime (by simp [hpc]))
    | timeout hpc _ =>
      exact iff_of_true (forall_mem_set hkept hold) (hintime (by simp [hpc]))
    | take job rest hpc _ =>
      exact iff_of_true (forall_mem_set hkept hold) (hintime (by simp [hpc]))
    | target job hpc =>
      exact iff_of_true (forall_mem_set hkept hold) (hintime (by simp [hpc]))

/-- Every step keeps the workers in their loops running until they are stopped. -/
theorem runsUntilStop_step (hruns : ∀ worker ∈ s.set.threads, worker.RunsUntilStop)
    (hstep : s.step thread = some t) : ∀ worker ∈ t.set.threads, worker.RunsUntilStop := by
  rcases step_cases hstep with ⟨rfl, hmain⟩ | ⟨i, worker, set, rfl, hworker, hset, rfl⟩
  · refine forall_mem_mainStep hmain hruns ?_ ?_
    · intro _ hloop
      exact absurd rfl hloop.1
    · intro worker _ hrequest
      simp [WorkerThread.stop] at hrequest
  · have hold : worker.RunsUntilStop := hruns worker (List.mem_of_getElem? hworker)
    have hsame : ∀ pc, worker.pc ≠ .spawned → worker.pc ≠ .leaving → worker.pc ≠ .exited →
        WorkerThread.RunsUntilStop { worker with pc := pc } :=
      fun _ hspawned hleaving hexited hrequest _ =>
        hold hrequest ⟨hspawned, hleaving, hexited⟩
    cases hset with
    | begin hpc => exact forall_mem_set hruns fun _ _ => rfl
    | exit hpc => exact forall_mem_set hruns fun _ hloop => absurd rfl hloop.2.2
    | finish job hpc =>
      intro other hmem
      simp only [JobsSet.setWorker, JobsSet.threads_finishedEvent] at hmem
      exact forall_mem_set hruns
        (hsame .test (by simp [hpc]) (by simp [hpc]) (by simp [hpc])) other hmem
    | loop hpc _ =>
      exact forall_mem_set hruns (hsame _ (by simp [hpc]) (by simp [hpc]) (by simp [hpc]))
    | leave hpc _ =>
      exact forall_mem_set hruns (hsame _ (by simp [hpc]) (by simp [hpc]) (by simp [hpc]))
    | timeout hpc _ =>
      exact forall_mem_set hruns (hsame _ (by simp [hpc]) (by simp [hpc]) (by simp [hpc]))
    | take job rest hpc _ =>
      exact forall_mem_set hruns (hsame _ (by simp [hpc]) (by simp [hpc]) (by simp [hpc]))
    | target job hpc =>
      exact forall_mem_set hruns (hsame _ (by simp [hpc]) (by simp [hpc]) (by simp [hpc]))

/-! ## Jobs that are added before `start` -/

/-- `__jobDoneHandler` is attached to every unfinished job, but for the one to
which it is attached next. -/
def Attached (s : System) : Prop :=
  ∀ job, job ∈ s.set.queue.items ∨ job ∈ s.set.held →
    Handler.jobDoneHandler ∈ s.set.handlers job ∨
      ∃ rest, s.main = .attachingDone job rest

theorem attached_step (hbalanced : s.set.Balanced) (hattached : s.Attached)
    (hstep : s.step thread = some t) : t.Attached := by
  rcases step_cases hstep with ⟨rfl, hmain⟩ | ⟨i, worker, set, rfl, hworker, hset, rfl⟩
  · have hkeep : s.main ≠ .ready → (∀ job rest, s.main ≠ .attachingDone job rest) →
        ∀ job, job ∈ s.set.queue.items ∨ job ∈ s.set.held →
          Handler.jobDoneHandler ∈ s.set.handlers job :=
      fun _ hne job hjob => (hattached job hjob).resolve_right
        fun ⟨rest, heq⟩ => hne job rest heq
    cases hmain with
    | put job rest set hpc hput =>
      obtain rfl := JobsSet.put_some hput
      intro other hother
      simp only [JobsSet.held, List.mem_append, List.mem_singleton] at hother
      rcases hother with (hitem | rfl) | hheld
      · exact Or.inl (hkeep (by simp [hpc]) (by simp [hpc]) other (Or.inl hitem))
      · exact Or.inr ⟨rest, rfl⟩
      · exact Or.inl (hkeep (by simp [hpc]) (by simp [hpc]) other (Or.inr hheld))
    | attachDone job rest hpc =>
      intro other hother
      refine Or.inl ((JobsSet.handlers_attach ..).mpr ?_)
      rcases hattached other hother with hmem | ⟨rest', heq⟩
      · exact Or.inr hmem
      · obtain ⟨rfl, _⟩ : job = other ∧ rest = rest' := by simpa [hpc] using heq
        exact Or.inl ⟨rfl, rfl⟩
    | attachAny job rest hpc =>
      intro other hother
      have hmem := hkeep (by simp [hpc]) (by simp [hpc]) other hother
      exact Or.inl ((JobsSet.handlers_attach ..).mpr (Or.inr hmem))
    | spawn count hpc =>
      intro other hother
      have hheld : s.set.spawn.held = s.set.held := by
        simp [JobsSet.held, JobsSet.spawn, WorkerThread.held, WorkerThread.new]
      rw [hheld] at hother
      exact Or.inl (hkeep (by simp [hpc]) (by simp [hpc]) other hother)
    | stop i hpc _ =>
      intro other hother
      have hheld : (s.set.stopWorker i).held = s.set.held := flatMap_modify _ fun _ => rfl
      rw [hheld] at hother
      exact Or.inl (hkeep (by simp [hpc]) (by simp [hpc]) other hother)
    | callAddJobs jobs rest hpc _ | callStart rest hpc _ | callJoin rest hpc _ =>
      intro other hother
      refine Or.inl ((hattached other hother).resolve_right ?_)
      rintro ⟨rest', heq⟩
      simp [hpc] at heq
    | added hpc | started hpc | released hpc _ | allStopped _ hpc _ | joined _ _ hpc _ _
    | allJoined _ hpc _ =>
      intro other hother
      exact Or.inl (hkeep (by simp [hpc]) (by simp [hpc]) other hother)
  · intro job hjob
    rw [JobsSet.handlers_workerStep hset]
    exact hattached job (JobsSet.pending_workerStep hbalanced hworker hset hjob)

/-- What every state of a run has in which all jobs are added before `start` and
no worker begins after `stop()`. -/
structure Orderly (s : System) : Prop where
  phase : Phase [] s
  balanced : s.set.Balanced
  missed : s.set.ledger.missed = []
  attached : s.Attached
  stopKept : s.StopKept
  running : ∀ worker ∈ s.set.threads, worker.RunsUntilStop

/-- While jobs are still being added there is no worker. -/
theorem Orderly.not_attaching (h : s.Orderly) (hworker : s.set.threads[i]? = some worker)
    (job : JobId) (rest : List JobId) : s.main ≠ .attachingDone job rest := by
  intro hmain
  have hphase := h.phase
  simp only [Phase, hmain] at hphase
  rcases hphase with ⟨hnil, _⟩ | ⟨hne, _⟩
  · simp [hnil] at hworker
  · exact hne rfl

theorem Orderly.healthy (h : s.Orderly) (hworker : s.set.threads[i]? = some worker) :
    s.set.Healthy where
  balanced := h.balanced
  missed := h.missed
  attached job hjob := (h.attached job hjob).resolve_right
    fun ⟨rest, heq⟩ => h.not_attaching hworker job rest heq

theorem Orderly.step (h : s.Orderly) (hguard : s.BeginsInTime thread)
    (hstep : s.step thread = some t) : t.Orderly where
  phase := phase_step h.phase hstep
  balanced := balanced_step h.balanced hstep
  missed := by
    rcases step_cases hstep with ⟨rfl, hmain⟩ | ⟨i, worker, set, rfl, hworker, hset, rfl⟩
    · cases hmain with
      | put job rest set _ hput =>
        obtain rfl := JobsSet.put_some hput
        exact h.missed
      | _ => exact h.missed
    · exact ((h.healthy hworker).step hworker hset).missed
  attached := attached_step h.balanced h.attached hstep
  stopKept := (stopKept_step_iff h.stopKept hstep).mpr hguard
  running := runsUntilStop_step h.running hstep

theorem orderly_init (numWorkerThreads : Option Int) (queueSize : Int)
    (userHandlers : JobId → List Nat) (pre : List (List JobId)) :
    (init numWorkerThreads queueSize userHandlers (addStartAddJoin pre [])).Orderly where
  phase := phase_init ..
  balanced := .new ..
  missed := rfl
  attached job hjob := by simp [init, JobsSet.new, JobsSet.held] at hjob
  stopKept worker hmem := by simp [init, JobsSet.new] at hmem
  running worker hmem := by simp [init, JobsSet.new] at hmem

/-! ## Every worker in its loop can leave it -/

/-- `__stopWorkers` comes to the thread `i`. -/
theorem reach_stop :
    ∀ (n : Nat) {s : System} {k : Nat}, s.main = .stopping k → k + n = i →
      s.set.threads[i]? = some worker →
      ∃ t, Reaches step s t ∧ t.set.threads[i]? = some worker.stop
  | n, s, k, hmain, hk, hworker => by
      have hi : i < s.set.threads.length := by
        obtain ⟨hi, _⟩ := List.getElem?_eq_some_iff.mp hworker
        exact hi
      have hstep : s.step .main = some
          { s with set := s.set.stopWorker k, main := .stopping (k + 1) } := by
        have hlt : k < s.set.threads.length := by omega
        simp [System.step, mainStep, hmain, hlt]
      cases n with
      | zero =>
        obtain rfl : k = i := by omega
        refine ⟨_, Reaches.single hstep, ?_⟩
        simp [JobsSet.getElem?_stopWorker, hworker]
      | succ n =>
        have hne : k ≠ i := by omega
        have hsame : (s.set.stopWorker k).threads[i]? = some worker := by
          simp [JobsSet.getElem?_stopWorker, hworker, hne]
        obtain ⟨t, hreach, hstopped⟩ := reach_stop n
          (s := { s with set := s.set.stopWorker k, main := .stopping (k + 1) })
          rfl (by omega) hsame
        exact ⟨t, Reaches.head hstep hreach, hstopped⟩

/-- A worker that was told to stop and kept it does not loop for ever. -/
theorem not_loopsForever_of_state (hworker : s.set.threads[i]? = some worker)
    (hloop : worker.InLoop) (hstate : worker.state ≠ some .running) : ¬ s.LoopsForever i := by
  intro hforever
  obtain ⟨set, hreach, hleaving⟩ := JobsSet.reach_leaving hworker hloop hstate
  obtain ⟨last, hlast, hin⟩ := hforever _ (reaches_of_workersReach hreach)
  obtain rfl : _ = last := Option.some.inj (hleaving.symm.trans hlast)
  exact hin.2.1 rfl

theorem LoopsForever.of_reaches (h : s.LoopsForever i) (hreach : Reaches System.step s t) :
    t.LoopsForever i :=
  fun _ hlater => h _ (hreach.trans hlater)

/-- A worker that `__stopWorkers` still comes to does not loop for ever. -/
theorem not_loopsForever_of_stopping {k : Nat} (hmain : s.main = .stopping k) (hk : k ≤ i)
    (hworker : s.set.threads[i]? = some worker) (hloop : worker.InLoop) : ¬ s.LoopsForever i := by
  intro hforever
  obtain ⟨t, hreach, hstopped⟩ := reach_stop (i - k) hmain (by omega) hworker
  have hstate : worker.stop.state ≠ some .running := by simp [WorkerThread.stop]
  exact not_loopsForever_of_state hstopped hloop hstate (hforever.of_reaches hreach)

/-- In an orderly run no worker loops for ever once `join()` is called. -/
theorem Orderly.not_loopsForever (h : s.Orderly) (hjoin : s.InJoin) (i : Nat) :
    ¬ s.LoopsForever i := by
  intro hforever
  obtain ⟨worker, hworker, hloop⟩ := hforever s (Reaches.refl s)
  have hmem := List.mem_of_getElem? hworker
  have hphase := h.phase
  cases hmain : s.main with
  | joiningQueue =>
    simp only [Phase, hmain] at hphase
    have hrequest : worker.stopRequested = false :=
      hphase.1 _ (List.mem_of_getElem? (JobsSet.getElem?_stopRequests hworker))
    have hserves : s.set.Serves i :=
      ⟨worker, hworker, hloop, h.running worker hmem hrequest hloop⟩
    obtain ⟨set, hreach, ⟨serving, hserving, hin, _⟩, hzero⟩ :=
      (h.healthy hworker).reach_drained _ hserves rfl
    have hdrained := reaches_of_workersReach hreach
    have hreleased : ({ s with set := set } : System).step .main =
        some { s with set := set, main := .stopping 0 } := by
      simp [System.step, mainStep, hmain, hzero]
    have hstopping := hdrained.trans (Reaches.single hreleased)
    exact not_loopsForever_of_stopping rfl (Nat.zero_le i) hserving hin
      (hforever.of_reaches hstopping)
  | stopping k =>
    simp only [Phase, hmain] at hphase
    by_cases hk : k ≤ i
    · exact not_loopsForever_of_stopping hmain hk hworker hloop hforever
    · have hrequest := hphase.1 i worker (by omega) hworker
      exact not_loopsForever_of_state hworker hloop
        ((h.stopKept worker hmem).state_ne_running hrequest) hforever
  | joining k =>
    simp only [Phase, hmain] at hphase
    obtain ⟨hi, _⟩ := List.getElem?_eq_some_iff.mp hworker
    have hrequest := hphase.1 i worker hi hworker
    exact not_loopsForever_of_state hworker hloop
      ((h.stopKept worker hmem).state_ne_running hrequest) hforever
  | _ => simp [InJoin, hmain] at hjoin

/-- Of every run in which all jobs are added before `start`: no `stop()` is ever
lost, and no worker loops for ever once `join()` is called, exactly if no worker
begins its `run` after `stop()` was called on it. -/
theorem stop_kept_iff_begins_in_time (numWorkerThreads : Option Int) (queueSize : Int)
    (userHandlers : JobId → List Nat) (pre : List (List JobId)) (schedule : List Thread) :
    EveryState step (fun s => s.StopKept ∧ (s.InJoin → ∀ i, ¬ s.LoopsForever i))
        (init numWorkerThreads queueSize userHandlers (addStartAddJoin pre [])) schedule ↔
      EveryStep step BeginsInTime
        (init numWorkerThreads queueSize userHandlers (addStartAddJoin pre [])) schedule := by
  have hinit := orderly_init numWorkerThreads queueSize userHandlers pre
  constructor
  · intro hstates
    have hkept := hstates.mono fun _ h => h.1
    refine (everyState_iff_everyStep (I := fun _ => True) (fun _ _ => trivial)
      (fun _ h hstep => stopKept_step_iff h hstep) trivial hinit.stopKept).mp hkept
  · intro hsteps
    have horderly := everyState_of_everyStep
      (fun h hguard hstep => Orderly.step h hguard hstep) hinit hsteps
    exact horderly.mono fun s h => ⟨h.stopKept, fun hjoin i => h.not_loopsForever hjoin i⟩

/-! ## What a lost `stop()` costs -/

/-- `__stopWorkers` is past the worker `i`, which is running all the same. -/
structure Lost (s : System) (i : Nat) : Prop where
  serves : s.set.Serves i
  todo : s.todo = []
  past : (∃ k, s.main = .stopping k ∧ i < k) ∨ ∃ k, s.main = .joining k ∧ k ≤ i

/-- A running worker in its loop stays there until it is told to stop. -/
theorem serves_workerStep {set set' : JobsSet} {k : Nat} (hserves : set.Serves i)
    (hworker : set.threads[k]? = some worker) (hstep : JobsSet.WorkerStep set k worker set') :
    set'.Serves i := by
  by_cases hik : k = i
  · subst hik
    obtain ⟨serving, hserving, ⟨hspawned, hleaving, hexited⟩, hrunning⟩ := id hserves
    obtain rfl : worker = serving := Option.some.inj (hworker.symm.trans hserving)
    cases hstep with
    | begin hpc => exact absurd hpc hspawned
    | exit hpc => exact absurd hpc hleaving
    | leave _ hstate => exact absurd hrunning hstate
    | loop => exact hserves.setWorker hworker (by simp [WorkerThread.InLoop]) rfl
    | timeout => exact hserves.setWorker hworker (by simp [WorkerThread.InLoop]) rfl
    | take => exact ⟨_, JobsSet.getElem?_setWorker_self hworker,
        by simp [WorkerThread.InLoop], hrunning⟩
    | target => exact ⟨_, JobsSet.getElem?_setWorker_self hworker,
        by simp [WorkerThread.InLoop], hrunning⟩
    | finish job => exact ⟨_, JobsSet.getElem?_setWorker_self
        (by rw [JobsSet.threads_finishedEvent]; exact hworker),
        by simp [WorkerThread.InLoop], hrunning⟩
  · obtain ⟨serving, hserving, hin, hrunning⟩ := hserves
    refine ⟨serving, ?_, hin, hrunning⟩
    cases hstep <;>
      simp [JobsSet.setWorker, JobsSet.startJob, JobsSet.threads_finishedEvent, hik, hserving]

theorem Lost.step (h : s.Lost i) (hstep : s.step thread = some t) : t.Lost i := by
  obtain ⟨hserves, htodo, hpast⟩ := h
  rcases step_cases hstep with ⟨rfl, hmain⟩ | ⟨k, worker, set, rfl, hworker, hset, rfl⟩
  · obtain ⟨serving, hserving, hin, hrunning⟩ := id hserves
    rcases hpast with ⟨k, hk, hlt⟩ | ⟨k, hk, hle⟩
    · cases hmain with
      | stop k' hpc hi =>
        obtain rfl : k = k' := by simpa [hk] using hpc
        refine ⟨⟨serving, ?_, hin, hrunning⟩, htodo, Or.inl ⟨k + 1, rfl, by omega⟩⟩
        have hne : k ≠ i := by omega
        simp [JobsSet.getElem?_stopWorker, hserving, hne]
      | allStopped => exact ⟨hserves, htodo, Or.inr ⟨0, rfl, Nat.zero_le i⟩⟩
      | _ => simp_all
    · cases hmain with
      | joined k' other hpc hother hexited =>
        obtain rfl : k = k' := by simpa [hk] using hpc
        refine ⟨hserves, htodo, Or.inr ⟨k + 1, rfl, ?_⟩⟩
        -- the main thread waits for `i`, which has not returned
        have hne : k ≠ i := by
          rintro rfl
          obtain rfl : other = serving := Option.some.inj (hother.symm.trans hserving)
          exact hin.2.2 hexited
        omega
      | allJoined k' hpc hnone =>
        obtain rfl : k = k' := by simpa [hk] using hpc
        obtain ⟨hlt, _⟩ := List.getElem?_eq_some_iff.mp hserving
        rw [List.getElem?_eq_none_iff] at hnone
        omega
      | _ => simp_all
  · exact ⟨serves_workerStep hserves hworker hset, htodo, hpast⟩

/-- A worker whose `stop()` was lost loops for ever. -/
theorem Lost.loopsForever (h : s.Lost i) : s.LoopsForever i := by
  intro t hreach
  obtain ⟨worker, hworker, hin, _⟩ := (hreach.invariant Lost.step h).serves
  exact ⟨worker, hworker, hin⟩

/-- One worker and no job: `join()` is released at once and stops the worker,
whose thread executes the first statement of `run` only then. -/
theorem stop_lost_of_late_worker : ∃ schedule s,
    run step (init (some 1) 0 (fun _ => []) (addStartAddJoin [] [])) schedule = some s ∧
      s.InJoin ∧ ¬ s.StopKept ∧ s.LoopsForever 0 := by
  refine ⟨[.main, .main, .main, .main, .main, .main, .worker 0], _, rfl, ?_, ?_, ?_⟩
  · decide
  · intro hkept
    have hstate := hkept ⟨some .running, .test, true⟩ (by decide) rfl
    simp at hstate
  · refine Lost.loopsForever ⟨⟨⟨some .running, .test, true⟩, rfl, by decide, rfl⟩, rfl, ?_⟩
    exact Or.inl ⟨1, rfl, by decide⟩

end System

end OvirtArt.Utils.Jobs
