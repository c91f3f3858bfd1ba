import Mathlib.Algebra.BigOperators.Group.List.Basic
import Mathlib.Algebra.GroupWithZero.Nat

set_option autoImplicit false

/-!
# Workers that take one task each

Tasks are put into a queue that counts those that are not finished.  Each worker takes one task,
works on it until it has an outcome, reports that, and says that the task is done.  The books of
such a pool say where every task and every report is; they are kept by every step of every
worker.

Tasks and outcomes are of any type.  A schedule is any order of the steps, and every run of the
pool ends, since each step makes its rank smaller.
-/

namespace OvirtArt.Foundation

/-- A queue that counts the tasks that are not done. -/
structure TaskQueue (τ : Type) where
  items : List τ
  unfinishedTasks : Nat
  deriving DecidableEq, Repr

/-- Where a worker is. -/
inductive Worker (τ ρ : Type) where
  /-- it waits for a task -/
  | waiting
  | working (task : τ)
  /-- it has the outcome, and the report is next -/
  | reporting (task : τ) (outcome : ρ)
  /-- it has reported, and the task is called done next -/
  | finishing (task : τ) (outcome : ρ)
  | exited (task : τ) (outcome : ρ)
  deriving DecidableEq, Repr

/-- The queue of tasks, the queue of reports and the workers. -/
structure Pool (τ ρ β : Type) where
  tasks : TaskQueue τ
  results : List β
  workers : List (Worker τ ρ)

variable {τ ρ β : Type}

namespace Worker

/-- The task that the worker has taken. -/
def task? : Worker τ ρ → Option τ
  | waiting => none
  | working task => some task
  | reporting task _ => some task
  | finishing task _ => some task
  | exited task _ => some task

/-- The worker has a task that is not done. -/
def busy : Worker τ ρ → Bool
  | working _ => true
  | reporting _ _ => true
  | finishing _ _ => true
  | _ => false

/-- What the worker has reported. -/
def report? (report : τ → ρ → β) : Worker τ ρ → Option β
  | finishing task outcome => some (report task outcome)
  | exited task outcome => some (report task outcome)
  | _ => none

/-- What the worker still has to do, with the report that has to be read. -/
def rank : Worker τ ρ → Nat
  | waiting => 5
  | working _ => 4
  | reporting _ _ => 3
  | finishing _ _ => 1
  | exited _ _ => 0

end Worker

namespace Pool

/-- `put` of a task. -/
def put (pool : Pool τ ρ β) (task : τ) : Pool τ ρ β :=
  { pool with
    tasks :=
      { items := pool.tasks.items ++ [task]
        unfinishedTasks := pool.tasks.unfinishedTasks + 1 } }

/-- A new worker. -/
def spawn (pool : Pool τ ρ β) : Pool τ ρ β :=
  { pool with workers := pool.workers ++ [.waiting] }

/-- A worker that has got so far. -/
def setWorker (pool : Pool τ ρ β) (i : Nat) (worker : Worker τ ρ) : Pool τ ρ β :=
  { pool with workers := pool.workers.set i worker }

/-- `task_done`: an exception, without a change, if there are no tasks to be done. -/
def taskDone (pool : Pool τ ρ β) : Pool τ ρ β :=
  { pool with tasks := { pool.tasks with unfinishedTasks := pool.tasks.unfinishedTasks - 1 } }

/-- A step of a worker; `outcome` is what its work comes to, if that is what is next.  It is
`none` where the worker waits for a task or has exited. -/
def workerStep (report : τ → ρ → β) (pool : Pool τ ρ β) (i : Nat) (outcome : ρ) :
    Option (Pool τ ρ β) :=
  match pool.workers[i]? with
  | none => none
  | some .waiting =>
    match pool.tasks.items with
    | [] => none
    | task :: rest => some
        { pool.setWorker i (.working task) with tasks := { pool.tasks with items := rest } }
  | some (.working task) => some (pool.setWorker i (.reporting task outcome))
  | some (.reporting task outcome) => some
      { pool.setWorker i (.finishing task outcome) with
        results := pool.results ++ [report task outcome] }
  | some (.finishing task outcome) => some (pool.taskDone.setWorker i (.exited task outcome))
  | some (.exited _ _) => none

/-- What one step of a worker can do. -/
inductive WorkerStep (report : τ → ρ → β) (pool : Pool τ ρ β) (i : Nat) (outcome : ρ) :
    Worker τ ρ → Pool τ ρ β → Prop
  | take (task : τ) (rest : List τ) (hitems : pool.tasks.items = task :: rest) :
      WorkerStep report pool i outcome .waiting
        { pool.setWorker i (.working task) with tasks := { pool.tasks with items := rest } }
  | work (task : τ) :
      WorkerStep report pool i outcome (.working task)
        (pool.setWorker i (.reporting task outcome))
  | report (task : τ) (found : ρ) :
      WorkerStep report pool i outcome (.reporting task found)
        { pool.setWorker i (.finishing task found) with
          results := pool.results ++ [report task found] }
  | finish (task : τ) (found : ρ) :
      WorkerStep report pool i outcome (.finishing task found)
        (pool.taskDone.setWorker i (.exited task found))

variable {report : τ → ρ → β} {pool next : Pool τ ρ β} {i : Nat} {outcome : ρ}

theorem workerStep_cases (h : pool.workerStep report i outcome = some next) :
    ∃ worker, pool.workers[i]? = some worker ∧ WorkerStep report pool i outcome worker next := by
  unfold workerStep at h
  cases hworker : pool.workers[i]? with
  | none =>
    rw [hworker] at h
    exact nomatch h
  | some worker =>
    refine ⟨worker, rfl, ?_⟩
    rw [hworker] at h
    cases worker with
    | waiting =>
      cases hitems : pool.tasks.items with
      | nil =>
        simp only [hitems] at h
        exact nomatch h
      | cons task rest =>
        simp only [hitems] at h
        rw [← Option.some.inj h]
        exact .take task rest hitems
    | working task =>
      rw [← Option.some.inj h]
      exact .work task
    | reporting task found =>
      rw [← Option.some.inj h]
      exact .report task found
    | finishing task found =>
      rw [← Option.some.inj h]
      exact .finish task found
    | exited task found => exact nomatch h

/-! ## The books -/

/-- Where the tasks and the reports are: `unstarted` workers and the tasks `unput` are still to
come, and the reports `read` have been read. -/
structure Books (report : τ → ρ → β) (names : List τ) (unstarted : Nat) (unput : List τ)
    (read : List β) (pool : Pool τ ρ β) : Prop where
  workers : pool.workers.length + unstarted = names.length
  tasks : (pool.workers.filterMap Worker.task? ++ pool.tasks.items ++ unput).Perm names
  unfinished : pool.tasks.unfinishedTasks
    = pool.tasks.items.length + pool.workers.countP Worker.busy
  reports : (read ++ pool.results).Perm (pool.workers.filterMap (Worker.report? report))

variable {names unput : List τ} {unstarted : Nat} {read : List β}

/-- A pool without workers and tasks. -/
def empty : Pool τ ρ β where
  tasks := { items := [], unfinishedTasks := 0 }
  results := []
  workers := []

theorem books_empty (report : τ → ρ → β) (names : List τ) :
    Books report names names.length names [] empty where
  workers := Nat.zero_add _
  tasks := List.Perm.refl _
  unfinished := rfl
  reports := List.Perm.refl _

theorem Books.spawn (h : Books report names (unstarted + 1) unput read pool) :
    Books report names unstarted unput read pool.spawn where
  workers := by
    rw [← h.workers]
    simp only [Pool.spawn, List.length_append, List.length_singleton]
    omega
  tasks := by
    simpa [Pool.spawn, List.filterMap_cons, Worker.task?] using h.tasks
  unfinished := by
    simpa [Pool.spawn, Worker.busy] using h.unfinished
  reports := by
    simpa [Pool.spawn, List.filterMap_cons, Worker.report?] using h.reports

theorem Books.put {task : τ} (h : Books report names unstarted (task :: unput) read pool) :
    Books report names unstarted unput read (pool.put task) where
  workers := h.workers
  tasks := by
    simpa [Pool.put] using h.tasks
  unfinished := by
    have hunfinished := h.unfinished
    simp only [Pool.put, List.length_append, List.length_singleton]
    omega
  reports := h.reports

/-- A report is read. -/
theorem Books.read_result {result : β} {rest : List β} (hresults : pool.results = result :: rest)
    (h : Books report names unstarted unput read pool) :
    Books report names unstarted unput (read ++ [result]) { pool with results := rest } where
  workers := h.workers
  tasks := h.tasks
  unfinished := h.unfinished
  reports := by
    have hreports := h.reports
    rw [hresults] at hreports
    rwa [List.append_assoc]

variable {worker : Worker τ ρ}

/-- The workers before and after the one that makes a step. -/
theorem exists_append_of_getElem? (h : pool.workers[i]? = some worker) :
    ∃ before after, pool.workers = before ++ worker :: after
      ∧ ∀ changed, pool.workers.set i changed = before ++ changed :: after := by
  obtain ⟨hi, hworker⟩ := List.getElem?_eq_some_iff.mp h
  refine ⟨pool.workers.take i, pool.workers.drop (i + 1), ?_, fun changed => ?_⟩
  · rw [← hworker, List.getElem_cons_drop, List.take_append_drop]
  · exact List.set_eq_take_append_cons_drop.trans (if_pos hi)

/-- A piece in the middle moves to the end of what stands before it. -/
theorem perm_moved {α : Type} (before piece after last : List α) :
    ((before ++ (piece ++ after)) ++ last).Perm ((before ++ after) ++ (piece ++ last)) := by
  rw [List.append_assoc, List.append_assoc, List.append_assoc]
  refine List.Perm.append_left before ?_
  rw [← List.append_assoc, ← List.append_assoc]
  exact List.perm_append_comm.append_right last

theorem filterMap_append_cons {α γ : Type} (f : α → Option γ) (before after : List α) (a : α) :
    (before ++ a :: after).filterMap f
      = before.filterMap f ++ ((f a).toList ++ after.filterMap f) := by
  rw [List.filterMap_append, List.filterMap_cons]
  cases f a with
  | none => rfl
  | some c => rfl

theorem countP_append_cons {α : Type} (p : α → Bool) (before after : List α) (a : α) :
    (before ++ a :: after).countP p = before.countP p + after.countP p + (p a).toNat := by
  rw [List.countP_append, List.countP_cons]
  cases p a with
  | false => simp
  | true =>
    simp only [if_true, Bool.toNat_true]
    omega

/-- The books after a change of one worker, from the changes of its task and its report. -/
theorem Books.setWorker {changed : Worker τ ρ} (h : Books report names unstarted unput read pool)
    (hworker : pool.workers[i]? = some worker)
    (hworkers : next.workers = pool.workers.set i changed)
    (htasks : worker.task?.toList ++ pool.tasks.items = changed.task?.toList ++ next.tasks.items)
    (hunfinished : next.tasks.unfinishedTasks + pool.tasks.items.length + worker.busy.toNat
      = pool.tasks.unfinishedTasks + next.tasks.items.length + changed.busy.toNat)
    (hresults : next.results ++ (worker.report? report).toList
      = pool.results ++ (changed.report? report).toList) :
    Books report names unstarted unput read next := by
  obtain ⟨before, after, hsplit, hset⟩ := exists_append_of_getElem? hworker
  rw [hset] at hworkers
  refine ⟨?_, ?_, ?_, ?_⟩
  · rw [← h.workers, hsplit, hworkers]
    simp
  · refine List.Perm.trans ?_ h.tasks
    rw [hsplit, hworkers, filterMap_append_cons, filterMap_append_cons]
    refine List.Perm.append_right unput ?_
    refine (perm_moved _ _ _ _).trans ?_
    rw [← htasks]
    exact (perm_moved _ _ _ _).symm
  · have hold := h.unfinished
    rw [hsplit, countP_append_cons] at hold
    rw [hworkers, countP_append_cons]
    omega
  · have hold := h.reports
    rw [hsplit, filterMap_append_cons] at hold
    rw [hworkers, filterMap_append_cons, ← List.perm_append_right_iff (worker.report? report).toList,
      List.append_assoc, hresults, ← List.append_assoc]
    refine (hold.append_right _).trans ((perm_moved _ _ _ _).trans ?_)
    refine List.Perm.trans ?_ (perm_moved _ _ _ _).symm
    exact List.Perm.append_left _ List.perm_append_comm

/-- Every step of a worker keeps the books. -/
theorem Books.workerStep (h : Books report names unstarted unput read pool)
    (hstep : pool.workerStep report i outcome = some next) :
    Books report names unstarted unput read next := by
  obtain ⟨worker, hworker, hcase⟩ := workerStep_cases hstep
  cases hcase with
  | take task rest hitems =>
    exact h.setWorker hworker rfl hitems (by rw [hitems]; rfl) rfl
  | work task => exact h.setWorker hworker rfl rfl rfl rfl
  | report task found =>
    exact h.setWorker hworker rfl rfl rfl (List.append_nil _)
  | finish task found =>
    have hbusy : 0 < pool.workers.countP Worker.busy :=
      List.countP_pos_iff.mpr ⟨_, List.mem_of_getElem? hworker, rfl⟩
    have hunfinished := h.unfinished
    refine h.setWorker hworker rfl rfl ?_ rfl
    change pool.tasks.unfinishedTasks - 1 + pool.tasks.items.length + 1
      = pool.tasks.unfinishedTasks + pool.tasks.items.length + 0
    omega

/-! ## The end of the work -/

theorem isSome_workerStep_of_busy (hworker : pool.workers[i]? = some worker)
    (hbusy : worker.busy = true) (outcome : ρ) : (pool.workerStep report i outcome).isSome := by
  unfold Pool.workerStep
  rw [hworker]
  cases worker with
  | waiting => exact nomatch hbusy
  | working task => rfl
  | reporting task found => rfl
  | finishing task found => rfl
  | exited task found => exact nomatch hbusy

theorem isSome_workerStep_of_waiting (hworker : pool.workers[i]? = some .waiting)
    (hitems : pool.tasks.items ≠ []) (outcome : ρ) :
    (pool.workerStep report i outcome).isSome := by
  unfold Pool.workerStep
  rw [hworker]
  cases htasks : pool.tasks.items with
  | nil => exact absurd htasks hitems
  | cons task rest => rfl

/-- All workers have started and all tasks been put, so as many tasks are waited for as are in
the queue. -/
theorem Books.length_taken (h : Books report names 0 [] read pool) :
    (pool.workers.filterMap Worker.task?).length + pool.tasks.items.length
      = pool.workers.length := by
  have htasks := h.tasks.length_eq
  rw [List.append_nil, List.length_append, ← h.workers] at htasks
  exact htasks

/-- While tasks are not done, some worker can make a step. -/
theorem Books.exists_workerStep (h : Books report names 0 [] read pool)
    (hunfinished : pool.tasks.unfinishedTasks ≠ 0) :
    ∃ i, ∀ outcome, (pool.workerStep report i outcome).isSome := by
  by_cases hbusy : pool.workers.countP Worker.busy = 0
  · -- a task is in the queue, so some worker has taken none
    have hitems : pool.tasks.items ≠ [] := by
      intro hnil
      have hcount := h.unfinished
      rw [hnil, hbusy] at hcount
      exact hunfinished hcount
    have hwaiting : ∃ worker ∈ pool.workers, worker.task? = none := by
      by_contra hall
      have htaken : (pool.workers.filterMap Worker.task?).length = pool.workers.length := by
        refine List.filterMap_length_eq_length.mpr fun worker hworker => ?_
        rw [Option.isSome_iff_ne_none]
        exact fun hnone => hall ⟨worker, hworker, hnone⟩
      have hlength := h.length_taken
      have hpos := List.length_pos_of_ne_nil hitems
      omega
    obtain ⟨worker, hmem, htask⟩ := hwaiting
    obtain ⟨i, hi⟩ := List.mem_iff_getElem?.mp hmem
    cases worker with
    | waiting => exact ⟨i, isSome_workerStep_of_waiting hi hitems⟩
    | working task => exact nomatch htask
    | reporting task found => exact nomatch htask
    | finishing task found => exact nomatch htask
    | exited task found => exact nomatch htask
  · obtain ⟨worker, hmem, hworker⟩ := List.countP_pos_iff.mp (Nat.pos_of_ne_zero hbusy)
    obtain ⟨i, hi⟩ := List.mem_iff_getElem?.mp hmem
    exact ⟨i, isSome_workerStep_of_busy hi hworker⟩

/-- When all tasks are done, every worker has taken one of them, reported its outcome and
exited. -/
structure Settled (report : τ → ρ → β) (names : List τ) (read : List β) (pool : Pool τ ρ β) :
    Prop where
  exited : ∀ worker ∈ pool.workers, ∃ task outcome, worker = .exited task outcome
  taken : (pool.workers.filterMap Worker.task?).Perm names
  reports : (read ++ pool.results).Perm (pool.workers.filterMap (Worker.report? report))

theorem Books.settled (h : Books report names 0 [] read pool)
    (hunfinished : pool.tasks.unfinishedTasks = 0) : Settled report names read pool := by
  have hcount := h.unfinished
  rw [hunfinished] at hcount
  have hitems : pool.tasks.items = [] := List.eq_nil_of_length_eq_zero (by omega)
  have hbusy : pool.workers.countP Worker.busy = 0 := by omega
  have hlength := h.length_taken
  rw [hitems] at hlength
  have htaken := List.filterMap_length_eq_length.mp hlength
  refine ⟨fun worker hworker => ?_, ?_, h.reports⟩
  · have hsome := htaken worker hworker
    have hidle := List.countP_eq_zero.mp hbusy worker hworker
    cases worker with
    | waiting => exact nomatch hsome
    | working task => exact absurd rfl hidle
    | reporting task found => exact absurd rfl hidle
    | finishing task found => exact absurd rfl hidle
    | exited task found => exact ⟨task, found, rfl⟩
  · have htasks := h.tasks
    rwa [hitems, List.append_nil, List.append_nil] at htasks

theorem Settled.workerStep_eq_none (h : Settled report names read pool) (i : Nat) (outcome : ρ) :
    pool.workerStep report i outcome = none := by
  unfold Pool.workerStep
  cases hworker : pool.workers[i]? with
  | none => rfl
  | some worker =>
    obtain ⟨task, found, rfl⟩ := h.exited worker (List.mem_of_getElem? hworker)
    rfl

/-! ## The work that is left -/

/-- The steps that the workers still have to make, and the reports that have to be read. -/
def rank (pool : Pool τ ρ β) : Nat := (pool.workers.map Worker.rank).sum + pool.results.length

theorem rank_put (pool : Pool τ ρ β) (task : τ) : (pool.put task).rank = pool.rank := rfl

theorem rank_spawn (pool : Pool τ ρ β) : pool.spawn.rank = pool.rank + 5 := by
  simp only [rank, spawn, List.map_append, List.sum_append, List.map_singleton,
    List.sum_singleton, Worker.rank]
  omega

theorem sum_rank_set (hworker : pool.workers[i]? = some worker) (changed : Worker τ ρ) :
    ((pool.workers.set i changed).map Worker.rank).sum + worker.rank
      = (pool.workers.map Worker.rank).sum + changed.rank := by
  obtain ⟨before, after, hsplit, hset⟩ := exists_append_of_getElem? hworker
  rw [hset, hsplit]
  simp only [List.map_append, List.map_cons, List.sum_append, List.sum_cons]
  omega

/-- Every step of a worker leaves less to do. -/
theorem rank_workerStep_lt (hstep : pool.workerStep report i outcome = some next) :
    next.rank < pool.rank := by
  obtain ⟨worker, hworker, hcase⟩ := workerStep_cases hstep
  unfold rank
  cases hcase with
  | take task rest hitems =>
    have hsum := sum_rank_set hworker (.working task)
    simp only [setWorker, Worker.rank] at hsum ⊢
    omega
  | work task =>
    have hsum := sum_rank_set hworker (.reporting task outcome)
    simp only [setWorker, Worker.rank] at hsum ⊢
    omega
  | report task found =>
    have hsum := sum_rank_set hworker (.finishing task found)
    simp only [setWorker, Worker.rank, List.length_append, List.length_singleton] at hsum ⊢
    omega
  | finish task found =>
    have hsum := sum_rank_set hworker (.exited task found)
    simp only [setWorker, taskDone, Worker.rank] at hsum ⊢
    omega

end Pool

end OvirtArt.Foundation
