import OvirtArt.Utils.JobsProgress

set_option autoImplicit false

/-!
# The phases of a main thread that adds, starts, adds and joins

The usual life of a `JobsSet`: some `addJobs` calls, `start`, perhaps more
`addJobs` calls, `join`.  What the main thread still has to do, and on which
workers it has called `stop`, follows from where it is.

These are invariants of the main thread, which no step of a worker can change.  The modules on
`stop` and `join` start from them.
-/

namespace OvirtArt.Utils.Jobs

open OvirtArt.Foundation

/-- The calls of such a main thread. -/
def addStartAddJoin (pre post : List (List JobId)) : List Call :=
  pre.map Call.addJobs ++ .start :: (post.map Call.addJobs ++ [.join])

namespace JobsSet

/-- On which workers `stop()` was called. -/
def stopRequests (set : JobsSet) : List Bool :=
  set.threads.map WorkerThread.stopRequested

variable {worker : WorkerThread} {set : JobsSet} {i : Nat}

/-- No worker calls `stop()`. -/
theorem stopRequests_workerStep {set' : JobsSet} (hworker : set.threads[i]? = some worker)
    (hstep : WorkerStep set i worker set') : set'.stopRequests = set.stopRequests := by
  cases hstep with
  | finish job _ =>
    simp only [stopRequests, setWorker, threads_finishedEvent]
    exact map_set_of_eq WorkerThread.stopRequested hworker rfl
  | _ => exact map_set_of_eq WorkerThread.stopRequested hworker rfl

theorem getElem?_stopRequests (hworker : set.threads[i]? = some worker) :
    set.stopRequests[i]? = some worker.stopRequested := by
  simp [stopRequests, hworker]

@[simp] theorem stopRequests_spawn (set : JobsSet) :
    set.spawn.stopRequests = set.stopRequests ++ [false] := by
  simp [stopRequests, spawn, WorkerThread.new]

theorem getElem?_stopWorker (set : JobsSet) (i k : Nat) :
    (set.stopWorker i).threads[k]? =
      (set.threads[k]?).map fun worker => if i = k then worker.stop else worker := by
  rw [stopWorker, List.getElem?_modify]
  cases set.threads[k]? with
  | none => rfl
  | some worker =>
    by_cases hik : i = k
    · simp [hik]
    · simp [hik]

/-- No `stop()` was called yet. -/
def Unstopped (set : JobsSet) : Prop := ∀ request ∈ set.stopRequests, request = false

/-- `stop()` was called on every worker before the thread `i`. -/
def StoppedBelow (set : JobsSet) (i : Nat) : Prop :=
  ∀ k worker, k < i → set.threads[k]? = some worker → worker.stopRequested = true

theorem StoppedBelow.workerStep {set' : JobsSet} {k : Nat} (h : set.StoppedBelow k)
    (hworker : set.threads[i]? = some worker) (hstep : WorkerStep set i worker set') :
    set'.StoppedBelow k := by
  intro j after hj hafter
  have hrequest := getElem?_stopRequests hafter
  rw [stopRequests_workerStep hworker hstep] at hrequest
  obtain ⟨before, hbefore, heq⟩ : ∃ before, set.threads[j]? = some before ∧
      before.stopRequested = after.stopRequested := by
    simpa [stopRequests] using hrequest
  rw [← heq]
  exact h j before hj hbefore

theorem StoppedBelow.stop (h : set.StoppedBelow i) : (set.stopWorker i).StoppedBelow (i + 1) := by
  intro k after hk hafter
  rw [getElem?_stopWorker] at hafter
  obtain ⟨before, hbefore, rfl⟩ := Option.map_eq_some_iff.mp hafter
  by_cases hik : i = k
  · simp [hik, WorkerThread.stop]
  · simp only [hik, if_false]
    exact h k before (by omega) hbefore

end JobsSet

namespace System

/-- Nothing is started, and `start` is still to be called. -/
def BeforeStart (post : List (List JobId)) (s : System) : Prop :=
  s.set.threads = [] ∧ ∃ pre, s.todo = addStartAddJoin pre post

/-- `start` was called, `join` is still to be called. -/
def AfterStart (post : List (List JobId)) (s : System) : Prop :=
  s.set.Unstopped ∧ ∃ rest, rest <:+ post ∧ s.todo = rest.map Call.addJobs ++ [.join]

/-- Which phase goes with which place of the main thread. -/
def Phase (post : List (List JobId)) (s : System) : Prop :=
  match s.main with
  | .ready => s.BeforeStart post ∨ s.AfterStart post ∨ s.todo = []
  | .adding _ => s.BeforeStart post ∨ (post ≠ [] ∧ s.AfterStart post)
  | .attachingDone _ _ => s.BeforeStart post ∨ (post ≠ [] ∧ s.AfterStart post)
  | .attachingAny _ _ => s.BeforeStart post ∨ (post ≠ [] ∧ s.AfterStart post)
  | .spawning _ => s.AfterStart post
  | .joiningQueue => s.set.Unstopped ∧ s.todo = []
  | .stopping i => s.set.StoppedBelow i ∧ s.todo = []
  | .joining _ => s.set.StoppedBelow s.set.threads.length ∧ s.todo = []

theorem phase_init (numWorkerThreads : Option Int) (queueSize : Int)
    (userHandlers : JobId → List Nat) (pre post : List (List JobId)) :
    Phase post (init numWorkerThreads queueSize userHandlers (addStartAddJoin pre post)) :=
  Or.inl ⟨rfl, pre, rfl⟩

variable {post : List (List JobId)} {rest : List Call} {s : System}

/-- A call of `addJobs`, before or after `start`. -/
theorem phase_callAddJobs {jobs : List JobId}
    (hphase : s.BeforeStart post ∨ s.AfterStart post ∨ s.todo = [])
    (htodo : s.todo = .addJobs jobs :: rest) :
    Phase post { s with main := .adding jobs, todo := rest } := by
  rcases hphase with ⟨hthreads, pre, hpre⟩ | ⟨hunstopped, later, hlater, heq⟩ | hnil
  · refine Or.inl ⟨hthreads, ?_⟩
    rw [htodo] at hpre
    cases pre with
    | nil => simp [addStartAddJoin] at hpre
    | cons first pre =>
      simp only [addStartAddJoin, List.map_cons, List.cons_append, List.cons.injEq] at hpre
      exact ⟨pre, hpre.2⟩
  · rw [htodo] at heq
    cases later with
    | nil => simp at heq
    | cons first later =>
      simp only [List.map_cons, List.cons_append, List.cons.injEq] at heq
      have hpost : post ≠ [] := by
        rintro rfl
        simp at hlater
      exact Or.inr ⟨hpost, hunstopped, later, (List.suffix_cons first later).trans hlater,
        heq.2⟩
  · simp [hnil] at htodo

/-- The call of `start`, which comes before all that is added afterwards. -/
theorem phase_callStart (hphase : s.BeforeStart post ∨ s.AfterStart post ∨ s.todo = [])
    (htodo : s.todo = .start :: rest) :
    Phase post ⟨s.set.prepareStart, .spawning s.set.workerCount, rest⟩ := by
  rcases hphase with ⟨hthreads, pre, hpre⟩ | ⟨_, later, _, heq⟩ | hnil
  · have hunstopped : s.set.prepareStart.Unstopped := by
      simp [JobsSet.Unstopped, JobsSet.stopRequests, JobsSet.prepareStart, hthreads]
    refine ⟨hunstopped, post, List.suffix_refl _, ?_⟩
    rw [htodo] at hpre
    cases pre with
    | nil => simpa [addStartAddJoin] using hpre
    | cons first pre => simp [addStartAddJoin] at hpre
  · rw [htodo] at heq
    cases later <;> simp at heq
  · simp [hnil] at htodo

/-- The call of `join`, which is the last one. -/
theorem phase_callJoin (hphase : s.BeforeStart post ∨ s.AfterStart post ∨ s.todo = [])
    (htodo : s.todo = .join :: rest) :
    Phase post { s with main := .joiningQueue, todo := rest } := by
  rcases hphase with ⟨_, pre, hpre⟩ | ⟨hunstopped, later, _, heq⟩ | hnil
  · rw [htodo] at hpre
    cases pre <;> simp [addStartAddJoin] at hpre
  · rw [htodo] at heq
    cases later with
    | nil => exact ⟨hunstopped, by simpa using heq⟩
    | cons first later => simp at heq
  · simp [hnil] at htodo

/-- A step of a worker stops nobody, so that the phase stays. -/
theorem phase_workerStep {i : Nat} {worker : WorkerThread} {set : JobsSet} (hphase : Phase post s)
    (hworker : s.set.threads[i]? = some worker) (hset : JobsSet.WorkerStep s.set i worker set) :
    Phase post { s with set := set } := by
  have hrequests := JobsSet.stopRequests_workerStep hworker hset
  have hlength : set.threads.length = s.set.threads.length := by
    have := congrArg List.length hrequests
    simpa [JobsSet.stopRequests] using this
  have hnonempty : s.set.threads ≠ [] := by
    rintro hnil
    simp [hnil] at hworker
  have hbefore : ¬ s.BeforeStart post := fun h => hnonempty h.1
  have hafter : s.AfterStart post → AfterStart post { s with set := set } := by
    rintro ⟨hunstopped, hrest⟩
    refine ⟨?_, hrest⟩
    unfold JobsSet.Unstopped at hunstopped ⊢
    rw [hrequests]
    exact hunstopped
  have hbelow : ∀ k, s.set.StoppedBelow k → set.StoppedBelow k :=
    fun k h => h.workerStep hworker hset
  unfold Phase at hphase ⊢
  cases hmain : s.main with
  | ready =>
    simp only [hmain] at hphase ⊢
    exact hphase.imp (fun h => absurd h hbefore) (fun h => h.imp hafter id)
  | adding rest =>
    simp only [hmain] at hphase ⊢
    exact hphase.imp (fun h => absurd h hbefore) (fun h => ⟨h.1, hafter h.2⟩)
  | attachingDone job rest =>
    simp only [hmain] at hphase ⊢
    exact hphase.imp (fun h => absurd h hbefore) (fun h => ⟨h.1, hafter h.2⟩)
  | attachingAny job rest =>
    simp only [hmain] at hphase ⊢
    exact hphase.imp (fun h => absurd h hbefore) (fun h => ⟨h.1, hafter h.2⟩)
  | spawning count =>
    simp only [hmain] at hphase ⊢
    exact hafter hphase
  | joiningQueue =>
    simp only [hmain] at hphase ⊢
    unfold JobsSet.Unstopped at hphase ⊢
    rw [hrequests]
    exact hphase
  | stopping k =>
    simp only [hmain] at hphase ⊢
    exact ⟨hbelow k hphase.1, hphase.2⟩
  | joining k =>
    simp only [hmain] at hphase ⊢
    rw [hlength]
    exact ⟨hbelow _ hphase.1, hphase.2⟩

/-- Every step keeps the phase in step with the main thread. -/
theorem phase_step {t : System} {thread : Thread} (hphase : Phase post s)
    (hstep : s.step thread = some t) : Phase post t := by
  rcases step_cases hstep with ⟨rfl, hmainStep⟩ | ⟨i, worker, set, rfl, hworker, hset, rfl⟩
  · cases hmainStep with
    | callAddJobs jobs rest hmain htodo =>
      simp only [Phase, hmain] at hphase
      exact phase_callAddJobs hphase htodo
    | callStart rest hmain htodo =>
      simp only [Phase, hmain] at hphase
      exact phase_callStart hphase htodo
    | callJoin rest hmain htodo =>
      simp only [Phase, hmain] at hphase
      exact phase_callJoin hphase htodo
    | added hmain =>
      simp only [Phase, hmain] at hphase
      rcases hphase with hbefore | ⟨_, hafter⟩
      · exact Or.inl hbefore
      · exact Or.inr (Or.inl hafter)
    | put job rest set hmain hput =>
      simp only [Phase, hmain] at hphase
      obtain rfl := JobsSet.put_some hput
      exact hphase
    | attachDone job rest hmain =>
      simp only [Phase, hmain] at hphase
      exact hphase
    | attachAny job rest hmain =>
      simp only [Phase, hmain] at hphase
      exact hphase
    | started hmain =>
      simp only [Phase, hmain] at hphase
      exact Or.inr (Or.inl hphase)
    | spawn count hmain =>
      simp only [Phase, hmain] at hphase
      obtain ⟨hunstopped, hrest⟩ := hphase
      refine ⟨?_, hrest⟩
      intro request hrequest
      simp only [JobsSet.stopRequests_spawn, List.mem_append, List.mem_singleton] at hrequest
      exact hrequest.elim (hunstopped request) id
    | released hmain hunf =>
      simp only [Phase, hmain] at hphase
      exact ⟨fun k _ hk => absurd hk (Nat.not_lt_zero k), hphase.2⟩
    | stop i hmain hi =>
      simp only [Phase, hmain] at hphase
      exact ⟨hphase.1.stop, hphase.2⟩
    | allStopped i hmain hi =>
      simp only [Phase, hmain] at hphase
      refine ⟨fun k worker hk hworker => hphase.1 k worker ?_ hworker, hphase.2⟩
      exact Nat.lt_of_lt_of_le hk (Nat.le_of_not_lt hi)
    | joined i worker hmain hworker hpc =>
      simp only [Phase, hmain] at hphase
      exact hphase
    | allJoined i hmain hnone =>
      simp only [Phase, hmain] at hphase
      exact Or.inr (Or.inr hphase.2)
  · exact phase_workerStep hphase hworker hset

end System

end OvirtArt.Utils.Jobs
