import OvirtArt.Utils.JobsAccounting

set_option autoImplicit false

/-!
# What workers can still do

Progress of the workers alone, the main thread waiting: a worker that was told
to stop and is not set running again leaves its loop, and one worker that still
serves the queue is enough for every accounted job to be finished.

A worker is followed alone: the others may stand still.  Each lemma gives the schedule by which
the worker gets from one place to the next.
-/

namespace OvirtArt.Utils.Jobs

open OvirtArt.Foundation

namespace JobsSet

variable {worker : WorkerThread} {set set' : JobsSet} {i : Nat} {job : JobId}

@[simp] theorem getElem?_setWorker_self {old new : WorkerThread} (h : set.threads[i]? = some old) :
    (set.setWorker i new).threads[i]? = some new := by
  obtain ⟨hi, _⟩ := List.getElem?_eq_some_iff.mp h
  simp [setWorker, hi]

/-- Only steps of workers. -/
abbrev WorkersReach (set set' : JobsSet) : Prop := Reaches workerStep set set'

theorem WorkersReach.step (hworker : set.threads[i]? = some worker)
    (h : WorkerStep set i worker set') : WorkersReach set set' :=
  Reaches.single (workerStep_of_step hworker h)

/-! ## Leaving the loop -/

/-- The two steps that finish a job lead back to the test of the state. -/
theorem reach_test_of_holding (hworker : set.threads[i]? = some worker)
    (hpc : worker.pc = .holding job) :
    ∃ set', WorkersReach set set' ∧
      set'.threads[i]? = some { worker with pc := .test } := by
  have hfirst := WorkersReach.step hworker (.target job hpc)
  have hnext : ((set.startJob job).setWorker i
      { worker with pc := .finishing job }).threads[i]? =
        some { worker with pc := .finishing job } := getElem?_setWorker_self hworker
  refine ⟨_, hfirst.trans (WorkersReach.step hnext (.finish job rfl)), ?_⟩
  exact getElem?_setWorker_self (by rw [threads_finishedEvent]; exact hnext)

/-- From anywhere in the loop a worker comes back to the test of its state. -/
theorem reach_test (hworker : set.threads[i]? = some worker) (hloop : worker.InLoop) :
    ∃ set', WorkersReach set set' ∧
      set'.threads[i]? = some { worker with pc := .test } := by
  obtain ⟨hspawned, hleaving, hexited⟩ := hloop
  cases hpc : worker.pc with
  | spawned => exact absurd hpc hspawned
  | leaving => exact absurd hpc hleaving
  | exited => exact absurd hpc hexited
  | test => exact ⟨set, Reaches.refl set, by rw [hworker, ← hpc]⟩
  | holding job => exact reach_test_of_holding hworker hpc
  | finishing job =>
    refine ⟨_, WorkersReach.step hworker (.finish job hpc), ?_⟩
    exact getElem?_setWorker_self (by rw [threads_finishedEvent]; exact hworker)
  | get =>
    cases hitems : set.queue.items with
    | nil =>
      exact ⟨_, WorkersReach.step hworker (.timeout hpc hitems),
        getElem?_setWorker_self hworker⟩
    | cons job rest =>
      have htake := WorkersReach.step hworker (.take job rest hpc hitems)
      have hthread : (({ set with queue := { set.queue with items := rest } } :
          JobsSet).setWorker i { worker with pc := .holding job }).threads[i]? =
            some { worker with pc := .holding job } := getElem?_setWorker_self hworker
      obtain ⟨set', hreach, htest⟩ := reach_test_of_holding hthread rfl
      exact ⟨set', htake.trans hreach, htest⟩

/-- A worker whose state is not `RUNNING` leaves the loop. -/
theorem reach_leaving (hworker : set.threads[i]? = some worker) (hloop : worker.InLoop)
    (hstate : worker.state ≠ some .running) :
    ∃ set', WorkersReach set set' ∧
      set'.threads[i]? = some { worker with pc := .leaving } := by
  obtain ⟨set', hreach, htest⟩ := reach_test hworker hloop
  exact ⟨_, hreach.trans (WorkersReach.step htest (.leave rfl hstate)),
    getElem?_setWorker_self htest⟩

/-- A worker that has begun, and whose state is not `RUNNING`, returns from
`run`. -/
theorem reach_exited (hworker : set.threads[i]? = some worker) (hbegun : worker.pc ≠ .spawned)
    (hstate : worker.state ≠ some .running) :
    ∃ set' worker', WorkersReach set set' ∧ set'.threads[i]? = some worker' ∧
      worker'.pc = .exited := by
  by_cases hexited : worker.pc = .exited
  · exact ⟨set, worker, Reaches.refl set, hworker, hexited⟩
  · have hleaving : ∃ set' worker', WorkersReach set set' ∧
        set'.threads[i]? = some worker' ∧ worker'.pc = .leaving := by
      by_cases hleave : worker.pc = .leaving
      · exact ⟨set, worker, Reaches.refl set, hworker, hleave⟩
      · obtain ⟨set', hreach, hthread⟩ :=
          reach_leaving hworker ⟨hbegun, hleave, hexited⟩ hstate
        exact ⟨set', _, hreach, hthread, rfl⟩
    obtain ⟨set', worker', hreach, hthread, hpc⟩ := hleaving
    exact ⟨_, _, hreach.trans (WorkersReach.step hthread (.exit hpc)),
      getElem?_setWorker_self hthread, rfl⟩

/-! ## Serving the queue -/

/-- The worker `i` serves the queue. -/
def Serves (set : JobsSet) (i : Nat) : Prop :=
  ∃ worker, set.threads[i]? = some worker ∧ worker.InLoop ∧
    worker.state = some .running

theorem Serves.setWorker {k : Nat} {old new : WorkerThread} (h : set.Serves i)
    (hold : set.threads[k]? = some old) (hloop : new.InLoop) (hstate : new.state = old.state) :
    (set.setWorker k new).Serves i := by
  obtain ⟨worker, hworker, hin, hrunning⟩ := h
  by_cases hik : k = i
  · subst hik
    obtain rfl : old = worker := Option.some.inj (hold.symm.trans hworker)
    exact ⟨new, getElem?_setWorker_self hworker, hloop, hstate.trans hrunning⟩
  · refine ⟨worker, ?_, hin, hrunning⟩
    simp [JobsSet.setWorker, hik, hworker]

/-- The ledger only grows, and workers put nothing. -/
theorem ledger_workerStep (hbalanced : set.Balanced) (hworker : set.threads[i]? = some worker)
    (hstep : WorkerStep set i worker set') (job : JobId) :
    set'.ledger.put = set.ledger.put ∧
      set.ledger.doneFor.count job ≤ set'.ledger.doneFor.count job ∧
      set.ledger.missed.count job ≤ set'.ledger.missed.count job := by
  cases hstep with
  | finish done hpc =>
    have hheld := WorkerThread.held_of_finishing hpc
    obtain ⟨unfinished, hunf⟩ := hbalanced.unfinished_pos hworker hheld
    by_cases hmem : Handler.jobDoneHandler ∈ set.handlers done
    · obtain ⟨_, _, hledger⟩ := finishedEvent_done hmem hunf
      simp [JobsSet.setWorker, hledger, List.count_cons]
    · obtain ⟨_, _, hledger⟩ := finishedEvent_missed hmem
      simp [JobsSet.setWorker, hledger, List.count_cons]
  | _ => exact ⟨rfl, Nat.le_refl _, Nat.le_refl _⟩

/-- Workers attach no handler. -/
theorem handlers_workerStep (hstep : WorkerStep set i worker set') (job : JobId) :
    set'.handlers job = set.handlers job := by
  cases hstep with
  | target started hpc => exact handlers_startJob set started job
  | finish done hpc => exact handlers_finishedEvent set done job
  | _ => rfl

/-- What workers leave unfinished was unfinished before. -/
theorem pending_workerStep (hbalanced : set.Balanced) (hworker : set.threads[i]? = some worker)
    (hstep : WorkerStep set i worker set') (hjob : job ∈ set'.queue.items ∨ job ∈ set'.held) :
    job ∈ set.queue.items ∨ job ∈ set.held := by
  have hbefore := hbalanced.jobs job
  have hafter := (hbalanced.workerStep hworker hstep).jobs job
  obtain ⟨hput, hdone, hmissed⟩ := ledger_workerStep hbalanced hworker hstep job
  rw [hput] at hafter
  simp only [← List.count_pos_iff] at hjob ⊢
  omega

/-- Nothing was missed and nothing will be: `__jobDoneHandler` is attached to
every job that is not finished yet. -/
structure Healthy (set : JobsSet) : Prop where
  balanced : set.Balanced
  missed : set.ledger.missed = []
  attached : ∀ job, job ∈ set.queue.items ∨ job ∈ set.held →
    Handler.jobDoneHandler ∈ set.handlers job

theorem mem_held (hworker : set.threads[i]? = some worker) (hheld : worker.held = [job]) :
    job ∈ set.held :=
  List.mem_flatMap.mpr ⟨worker, List.mem_of_getElem? hworker, by simp [hheld]⟩

/-- Where the set is healthy, a job that is finished is accounted. -/
theorem Healthy.finish (h : set.Healthy) (hworker : set.threads[i]? = some worker)
    (hpc : worker.pc = .finishing job) :
    ∃ unfinished, set.queue.unfinishedTasks = unfinished + 1 ∧
      (set.finishedEvent job).queue = { set.queue with unfinishedTasks := unfinished } ∧
      (set.finishedEvent job).allDone = (if unfinished = 0 then true else set.allDone) ∧
      (set.finishedEvent job).ledger =
        { set.ledger with doneFor := job :: set.ledger.doneFor } := by
  have hheld := WorkerThread.held_of_finishing hpc
  have hmem := h.attached job (Or.inr (mem_held hworker hheld))
  obtain ⟨unfinished, hunf⟩ := h.balanced.unfinished_pos hworker hheld
  exact ⟨unfinished, hunf, finishedEvent_done hmem hunf⟩

theorem Healthy.step (h : set.Healthy) (hworker : set.threads[i]? = some worker)
    (hstep : WorkerStep set i worker set') : set'.Healthy where
  balanced := h.balanced.workerStep hworker hstep
  missed := by
    cases hstep with
    | finish job hpc =>
      obtain ⟨unfinished, -, -, -, hledger⟩ := h.finish hworker hpc
      simp only [JobsSet.setWorker, hledger]
      exact h.missed
    | _ => exact h.missed
  attached job hjob := by
    rw [handlers_workerStep hstep]
    exact h.attached job (pending_workerStep h.balanced hworker hstep hjob)

theorem Healthy.workersReach (h : set.Healthy) (hreach : WorkersReach set set') : set'.Healthy := by
  refine hreach.invariant ?_ h
  intro before after i hbefore hstep
  obtain ⟨worker, hworker, hworkerStep⟩ := workerStep_cases hstep
  exact hbefore.step hworker hworkerStep

/-- A held job is finished by two steps of its worker at most. -/
theorem Healthy.reach_finished {k : Nat} (h : set.Healthy) (hserves : set.Serves i)
    (hworker : set.threads[k]? = some worker) (hpc : worker.pc = .finishing job) :
    ∃ set', WorkersReach set set' ∧ set'.Serves i ∧
      set'.queue.unfinishedTasks + 1 = set.queue.unfinishedTasks := by
  obtain ⟨unfinished, hunf, hqueue, -, -⟩ := h.finish hworker hpc
  refine ⟨_, WorkersReach.step hworker (.finish job hpc), ?_, ?_⟩
  · obtain ⟨serving, hserving, hin, hrunning⟩ := hserves
    have hafter : (set.finishedEvent job).Serves i :=
      ⟨serving, by rw [threads_finishedEvent]; exact hserving, hin, hrunning⟩
    have hthread : (set.finishedEvent job).threads[k]? = some worker := by
      rw [threads_finishedEvent]
      exact hworker
    exact hafter.setWorker hthread (by simp [WorkerThread.InLoop]) rfl
  · simp [JobsSet.setWorker, hqueue, hunf]

theorem Healthy.reach_finished_of_holding {k : Nat} (h : set.Healthy) (hserves : set.Serves i)
    (hworker : set.threads[k]? = some worker) (hpc : worker.pc = .holding job) :
    ∃ set', WorkersReach set set' ∧ set'.Serves i ∧
      set'.queue.unfinishedTasks + 1 = set.queue.unfinishedTasks := by
  have hfirst := WorkersReach.step hworker (.target job hpc)
  have hserving : ((set.startJob job).setWorker k
      { worker with pc := .finishing job }).Serves i := by
    have hstart : (set.startJob job).Serves i := hserves
    exact hstart.setWorker hworker (by simp [WorkerThread.InLoop]) rfl
  obtain ⟨set', hreach, hserves', hunf⟩ :=
    (h.workersReach hfirst).reach_finished hserving (getElem?_setWorker_self hworker) rfl
  exact ⟨set', hfirst.trans hreach, hserves', hunf⟩

/-- With a job in the queue, a worker that serves it takes and finishes the next
one, if its hands are empty. -/
theorem Healthy.reach_served {rest : List JobId} (h : set.Healthy)
    (hworker : set.threads[i]? = some worker) (hrunning : worker.state = some .running)
    (hpc : worker.pc = .get) (hitems : set.queue.items = job :: rest) :
    ∃ set', WorkersReach set set' ∧ set'.Serves i ∧
      set'.queue.unfinishedTasks + 1 = set.queue.unfinishedTasks := by
  have htake := WorkersReach.step hworker (.take job rest hpc hitems)
  have hthread : (({ set with queue := { set.queue with items := rest } } :
      JobsSet).setWorker i { worker with pc := .holding job }).threads[i]? =
        some { worker with pc := .holding job } := getElem?_setWorker_self hworker
  have hserves : (({ set with queue := { set.queue with items := rest } } :
      JobsSet).setWorker i { worker with pc := .holding job }).Serves i :=
    ⟨_, hthread, by simp [WorkerThread.InLoop], hrunning⟩
  obtain ⟨set', hreach, hserves', hunf⟩ :=
    (h.workersReach htake).reach_finished_of_holding hserves hthread rfl
  exact ⟨set', htake.trans hreach, hserves', hunf⟩

/-- While a task is unfinished and a worker serves, one more can be finished. -/
theorem Healthy.reach_one_less (h : set.Healthy) (hserves : set.Serves i)
    (hpos : 0 < set.queue.unfinishedTasks) :
    ∃ set', WorkersReach set set' ∧ set'.Serves i ∧
      set'.queue.unfinishedTasks + 1 = set.queue.unfinishedTasks := by
  by_cases hheld : set.held = []
  · obtain ⟨worker, hworker, ⟨hspawned, hleaving, hexited⟩, hrunning⟩ := hserves
    have hitems : ∃ job rest, set.queue.items = job :: rest := by
      apply List.exists_cons_of_ne_nil
      intro hempty
      have hunf := h.balanced.unfinished
      simp [hempty, hheld, h.missed] at hunf
      omega
    obtain ⟨job, rest, hitems⟩ := hitems
    have hnone : ∀ other, worker.held ≠ [other] := by
      intro other hother
      have hmem := mem_held hworker hother
      simp [hheld] at hmem
    cases hpc : worker.pc with
    | spawned => exact absurd hpc hspawned
    | leaving => exact absurd hpc hleaving
    | exited => exact absurd hpc hexited
    | holding other => exact absurd (WorkerThread.held_of_holding hpc) (hnone other)
    | finishing other => exact absurd (WorkerThread.held_of_finishing hpc) (hnone other)
    | get => exact h.reach_served hworker hrunning hpc hitems
    | test =>
      have hloop := WorkersReach.step hworker (.loop hpc hrunning)
      obtain ⟨set', hreach, hserves', hunf⟩ := (h.workersReach hloop).reach_served
        (getElem?_setWorker_self hworker) hrunning rfl hitems
      exact ⟨set', hloop.trans hreach, hserves', hunf⟩
  · obtain ⟨job, hjob⟩ := List.exists_mem_of_ne_nil _ hheld
    obtain ⟨worker, hmem, hin⟩ := List.mem_flatMap.mp hjob
    obtain ⟨k, hk⟩ := List.getElem?_of_mem hmem
    cases hpc : worker.pc with
    | holding other => exact h.reach_finished_of_holding hserves hk hpc
    | finishing other => exact h.reach_finished hserves hk hpc
    | _ => simp [WorkerThread.held, hpc] at hin

/-- One serving worker is enough for the queue to be drained. -/
theorem Healthy.reach_drained :
    ∀ (n : Nat) {set : JobsSet}, set.Healthy → set.Serves i →
      set.queue.unfinishedTasks = n →
      ∃ set', WorkersReach set set' ∧ set'.Serves i ∧ set'.queue.unfinishedTasks = 0
  | 0, set, _, hserves, hunf => ⟨set, Reaches.refl set, hserves, hunf⟩
  | n + 1, set, h, hserves, hunf => by
      obtain ⟨next, hfirst, hserves', hless⟩ := h.reach_one_less hserves (by omega)
      obtain ⟨set', hreach, hserves'', hzero⟩ :=
        Healthy.reach_drained n (h.workersReach hfirst) hserves' (by omega)
      exact ⟨set', hfirst.trans hreach, hserves'', hzero⟩

end JobsSet

/-- What the workers can do alone they can do in the system. -/
theorem System.reaches_of_workersReach {s : System} {set : JobsSet}
    (h : JobsSet.WorkersReach s.set set) : Reaches System.step s { s with set := set } := by
  obtain ⟨schedule, hrun⟩ := h
  refine ⟨schedule.map Thread.worker, ?_⟩
  induction schedule generalizing s with
  | nil =>
    obtain rfl : s.set = set := Option.some.inj hrun
    rfl
  | cons i rest ih =>
    obtain ⟨next, hstep, htail⟩ := run_cons_some hrun
    have hhead : s.step (.worker i) = some { s with set := next } := by
      simp [System.step, hstep]
    simp only [List.map_cons, run_cons, hhead, Option.bind_some]
    have htail' : run JobsSet.workerStep ({ s with set := next } : System).set rest =
        some set := htail
    exact ih htail'

end OvirtArt.Utils.Jobs
