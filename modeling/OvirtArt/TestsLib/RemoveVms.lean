import OvirtArt.CoreApi.PyText
import OvirtArt.Foundation.Runs
import OvirtArt.Foundation.TaskPool

set_option autoImplicit false

/-!
# `removeVms` of `low_level/vms.py`

The function starts a thread for each VM, puts the names into a queue, and waits until all of
them are done.  Each thread runs `removeVmAsynch`: it takes a name, tries to remove the VM, and
reports in any case.  One label makes one atomic step of one thread; a step is `none` where the
thread would block.

The parameter that stops each VM first is left out: no caller passes it.  That a thread cannot be
started is not modelled.
-/

namespace OvirtArt.TestsLib.RemoveVms

open OvirtArt.CoreApi OvirtArt.Foundation

/-! ## A worker -/

/-- What comes of a call to the engine: a value, `EntityNotFound` or another exception. -/
inductive Answer (α : Type) where
  | value (a : α)
  | notFound
  | raised
  deriving DecidableEq, Repr

/-- What the engine answers to one worker. -/
structure Attempt where
  /-- The status of the VM that `VM_API.find` gives. -/
  find : Answer Text
  stopVm : Answer Bool
  /-- `VM_API.delete`. -/
  delete : Answer Bool
  deriving DecidableEq, Repr

/-- What the removal of a VM comes to. -/
inductive Removal where
  | deleted
  | refused
  | notFound
  | raised
  deriving DecidableEq, Repr

namespace Removal

/-- `status` in the `finally` block. -/
def status : Removal → Bool
  | deleted => true
  | refused => false
  | notFound => true
  | raised => false

/-- The removal of the answer to `VM_API.delete`. -/
def ofDelete : Answer Bool → Removal
  | .value true => deleted
  | .value false => refused
  | .notFound => notFound
  | .raised => raised

end Removal

/-- The `try` block of `removeVmAsynch`. -/
def removal (stopVmBool : Bool) (attempt : Attempt) : Removal :=
  match attempt.find with
  | .notFound => .notFound
  | .raised => .raised
  | .value status =>
    if stopVmBool && status != "down".toList then
      match attempt.stopVm with
      | .value true => .ofDelete attempt.delete
      | .value false => .refused
      | .notFound => .notFound
      | .raised => .raised
    else .ofDelete attempt.delete

/-- `resultsQ.put((vm, status))`; `removeVms` leaves `stopVmBool` at its default. -/
def report (vm : Text) (attempt : Attempt) : Text × Bool :=
  (vm, (removal false attempt).status)

/-! ## The arguments -/

/-- What the function raises before it starts threads. -/
inductive RemoveException where
  | assertionError
  /-- `vms cannot be empty` -/
  | valueError
  /-- The exception of `stop_vms`. -/
  | ofStopVms
  deriving DecidableEq, Repr

/-- A string of names, or a list of them. -/
inductive VmsArg where
  | text (vms : Text)
  | list (vms : List Text)

/-- `vmsList`. -/
def VmsArg.vmsList : VmsArg → List Text
  | .text vms => (vms.replace [','] [' ']).words
  | .list vms => vms

/-- The names for which threads are started. -/
structure VmNames where
  vmsList : List Text
  ne_nil : vmsList ≠ []

/-- The function before it starts threads; `stop` is `str(stop)`. -/
def checkArguments (positive : Bool) (vms : VmsArg) (stop : Text)
    (stopVms : List Text → Except RemoveException PUnit) : Except RemoveException VmNames :=
  if positive then
    if h : vms.vmsList = [] then .error .valueError
    else do
      if stop.lower == "true".toList then stopVms vms.vmsList else .ok ⟨⟩
      .ok ⟨vms.vmsList, h⟩
  else .error .assertionError

/-- Threads are started for the names of every argument that has some, unless `stop_vms` raises. -/
theorem checkArguments_of_ne_nil {vms : VmsArg} {stop : Text}
    {stopVms : List Text → Except RemoveException PUnit} (h : vms.vmsList ≠ [])
    (hstop : stop.lower = "true".toList → stopVms vms.vmsList = .ok ⟨⟩) :
    checkArguments true vms stop stopVms = .ok ⟨vms.vmsList, h⟩ := by
  unfold checkArguments
  rw [if_pos rfl, dif_neg h]
  by_cases htrue : stop.lower = "true".toList
  · rw [if_pos (beq_iff_eq.mpr htrue), hstop htrue]
    rfl
  · rw [if_neg (fun heq => htrue (beq_iff_eq.mp heq))]
    rfl

/-- The threads of a call: the names, and the order in which the set of threads is iterated. -/
structure Threads extends VmNames where
  order : List Nat
  perm : order.Perm (List.range vmsList.length)

/-! ## The threads -/

/-- Where the main thread is. -/
inductive MainPc where
  /-- in the loop that starts the threads, with as many to start -/
  | starting (rest : Nat)
  /-- in the loop that puts the names -/
  | putting (rest : List Text)
  /-- in `tasksQ.join()` -/
  | joiningTasks
  /-- in the loop that joins the threads -/
  | joiningThreads (rest : List Nat)
  /-- in the loop that reads the results -/
  | reading (status : Bool)
  /-- in `waitForVmsGone` -/
  | waitingForVmsGone (status : Bool)
  /-- after `return waitForVmsGone(...) and status`, with the two values -/
  | returned (gone status : Bool)
  | raised
  deriving DecidableEq, Repr

/-- The main thread, and the pool of the workers.  `read` is a ghost: the results that the main
thread has read. -/
structure System where
  main : MainPc
  pool : Pool Text Attempt (Text × Bool)
  read : List (Text × Bool)

/-- A step of the main thread, with what `waitForVmsGone(positive, vmsList, ...)` comes to if that
is what is next (`none` where it raises), or of a worker, with what the engine answers to it. -/
inductive Label where
  | main (gone : Option Bool)
  | worker (i : Nat) (attempt : Attempt)

namespace System

variable (threads : Threads)

/-- The function at the start of its first loop. -/
def init : System := ⟨.starting threads.vmsList.length, .empty, []⟩

/-- One atomic step of the main thread. -/
def mainStep (s : System) (gone : Option Bool) : Option System :=
  match s.main with
  | .starting 0 => some { s with main := .putting threads.vmsList }
  | .starting (rest + 1) => some { s with main := .starting rest, pool := s.pool.spawn }
  | .putting [] => some { s with main := .joiningTasks }
  | .putting (vm :: rest) => some { s with main := .putting rest, pool := s.pool.put vm }
  | .joiningTasks =>
    if s.pool.tasks.unfinishedTasks = 0 then
      some { s with main := .joiningThreads threads.order }
    else none
  | .joiningThreads [] => some { s with main := .reading true }
  | .joiningThreads (i :: rest) =>
    match s.pool.workers[i]? with
    | some (.exited _ _) => some { s with main := .joiningThreads rest }
    | _ => none
  | .reading status =>
    match s.pool.results with
    | [] => some { s with main := .waitingForVmsGone status }
    | result :: rest => some
        { main := .reading (status && result.2)
          pool := { s.pool with results := rest }
          read := s.read ++ [result] }
  | .waitingForVmsGone status =>
    match gone with
    | some gone => some { s with main := .returned gone status }
    | none => some { s with main := .raised }
  | .returned _ _ => none
  | .raised => none

/-- One atomic step of one thread. -/
def step (s : System) : Label → Option System
  | .main gone => s.mainStep threads gone
  | .worker i attempt =>
    (s.pool.workerStep report i attempt).map fun pool => { s with pool := pool }

/-- What one step of the main thread can do. -/
inductive MainStep (threads : Threads) : System → System → Prop
  | started (pool : Pool Text Attempt (Text × Bool)) (read : List (Text × Bool)) :
      MainStep threads ⟨.starting 0, pool, read⟩ ⟨.putting threads.vmsList, pool, read⟩
  | start (rest : Nat) (pool : Pool Text Attempt (Text × Bool)) (read : List (Text × Bool)) :
      MainStep threads ⟨.starting (rest + 1), pool, read⟩ ⟨.starting rest, pool.spawn, read⟩
  | allPut (pool : Pool Text Attempt (Text × Bool)) (read : List (Text × Bool)) :
      MainStep threads ⟨.putting [], pool, read⟩ ⟨.joiningTasks, pool, read⟩
  | put (vm : Text) (rest : List Text) (pool : Pool Text Attempt (Text × Bool))
      (read : List (Text × Bool)) :
      MainStep threads ⟨.putting (vm :: rest), pool, read⟩ ⟨.putting rest, pool.put vm, read⟩
  | tasksJoined (pool : Pool Text Attempt (Text × Bool)) (read : List (Text × Bool))
      (hdone : pool.tasks.unfinishedTasks = 0) :
      MainStep threads ⟨.joiningTasks, pool, read⟩ ⟨.joiningThreads threads.order, pool, read⟩
  | threadsJoined (pool : Pool Text Attempt (Text × Bool)) (read : List (Text × Bool)) :
      MainStep threads ⟨.joiningThreads [], pool, read⟩ ⟨.reading true, pool, read⟩
  | joined (i : Nat) (rest : List Nat) (vm : Text) (attempt : Attempt)
      (pool : Pool Text Attempt (Text × Bool)) (read : List (Text × Bool))
      (hworker : pool.workers[i]? = some (.exited vm attempt)) :
      MainStep threads ⟨.joiningThreads (i :: rest), pool, read⟩ ⟨.joiningThreads rest, pool, read⟩
  | allRead (status : Bool) (pool : Pool Text Attempt (Text × Bool)) (read : List (Text × Bool))
      (hresults : pool.results = []) :
      MainStep threads ⟨.reading status, pool, read⟩ ⟨.waitingForVmsGone status, pool, read⟩
  | readResult (status : Bool) (result : Text × Bool) (rest : List (Text × Bool))
      (pool : Pool Text Attempt (Text × Bool)) (read : List (Text × Bool))
      (hresults : pool.results = result :: rest) :
      MainStep threads ⟨.reading status, pool, read⟩
        ⟨.reading (status && result.2), { pool with results := rest }, read ++ [result]⟩
  | waited (gone status : Bool) (pool : Pool Text Attempt (Text × Bool))
      (read : List (Text × Bool)) :
      MainStep threads ⟨.waitingForVmsGone status, pool, read⟩ ⟨.returned gone status, pool, read⟩
  | waitRaised (status : Bool) (pool : Pool Text Attempt (Text × Bool))
      (read : List (Text × Bool)) :
      MainStep threads ⟨.waitingForVmsGone status, pool, read⟩ ⟨.raised, pool, read⟩

theorem mainStep_cases {threads : Threads} {s t : System} {gone : Option Bool}
    (h : s.mainStep threads gone = some t) : MainStep threads s t := by
  obtain ⟨main, pool, read⟩ := s
  unfold mainStep at h
  cases main with
  | starting rest =>
    cases rest with
    | zero =>
      rw [← Option.some.inj h]
      exact .started pool read
    | succ rest =>
      rw [← Option.some.inj h]
      exact .start rest pool read
  | putting rest =>
    cases rest with
    | nil =>
      rw [← Option.some.inj h]
      exact .allPut pool read
    | cons vm rest =>
      rw [← Option.some.inj h]
      exact .put vm rest pool read
  | joiningTasks =>
    by_cases hdone : pool.tasks.unfinishedTasks = 0
    · simp only [if_pos hdone] at h
      rw [← Option.some.inj h]
      exact .tasksJoined pool read hdone
    · simp only [if_neg hdone] at h
      exact nomatch h
  | joiningThreads rest =>
    cases rest with
    | nil =>
      rw [← Option.some.inj h]
      exact .threadsJoined pool read
    | cons i rest =>
      simp only at h
      split at h
      next vm attempt hworker =>
        rw [← Option.some.inj h]
        exact .joined i rest vm attempt pool read hworker
      next => exact nomatch h
  | reading status =>
    cases hresults : pool.results with
    | nil =>
      simp only [hresults] at h
      rw [← Option.some.inj h]
      exact .allRead status pool read hresults
    | cons result rest =>
      simp only [hresults] at h
      rw [← Option.some.inj h]
      exact .readResult status result rest pool read hresults
  | waitingForVmsGone status =>
    cases gone with
    | none =>
      rw [← Option.some.inj h]
      exact .waitRaised status pool read
    | some gone =>
      rw [← Option.some.inj h]
      exact .waited gone status pool read
  | returned gone status => exact nomatch h
  | raised => exact nomatch h

end System

/-! ## What holds in every state -/

namespace MainPc

/-- The threads that are still to be started. -/
def unstarted : MainPc → Nat
  | starting rest => rest
  | _ => 0

/-- The names that are still to be put. -/
def unput (vmsList : List Text) : MainPc → List Text
  | starting _ => vmsList
  | putting rest => rest
  | _ => []

/-- `tasksQ.join()` has returned. -/
def pastJoin : MainPc → Bool
  | starting _ => false
  | putting _ => false
  | joiningTasks => false
  | _ => true

/-- The function has returned or raised. -/
def ended : MainPc → Bool
  | returned _ _ => true
  | raised => true
  | _ => false

variable {main : MainPc}

theorem pastJoin_of_ended (h : main.ended = true) : main.pastJoin = true := by
  cases main with
  | returned gone status => rfl
  | raised => rfl
  | _ => exact nomatch h

theorem unstarted_eq_zero (h : main.pastJoin = true) : main.unstarted = 0 := by
  cases main with
  | starting rest => exact nomatch h
  | _ => rfl

theorem unput_eq_nil {vmsList : List Text} (h : main.pastJoin = true) :
    main.unput vmsList = [] := by
  cases main with
  | starting rest => exact nomatch h
  | putting rest => exact nomatch h
  | _ => rfl

end MainPc

namespace System

/-- What the main thread knows where it is. -/
def Phase (threads : Threads) (s : System) : Prop :=
  match s.main with
  | .starting _ => s.read = []
  | .putting _ => s.read = []
  | .joiningTasks => s.read = []
  | .joiningThreads rest =>
    s.read = [] ∧ s.pool.tasks.unfinishedTasks = 0 ∧ ∀ i ∈ rest, i < threads.vmsList.length
  | .reading status => s.pool.tasks.unfinishedTasks = 0 ∧ status = s.read.all Prod.snd
  | .waitingForVmsGone status =>
    s.pool.tasks.unfinishedTasks = 0 ∧ s.pool.results = [] ∧ status = s.read.all Prod.snd
  | .returned _ status =>
    s.pool.tasks.unfinishedTasks = 0 ∧ s.pool.results = [] ∧ status = s.read.all Prod.snd
  | .raised => s.pool.tasks.unfinishedTasks = 0 ∧ s.pool.results = []

/-- The books are right, and so is what the main thread knows. -/
structure Inv (threads : Threads) (s : System) : Prop where
  books : s.pool.Books report threads.vmsList s.main.unstarted (s.main.unput threads.vmsList)
    s.read
  phase : s.Phase threads

variable {threads : Threads} {s t : System}

theorem inv_init (threads : Threads) : (init threads).Inv threads where
  books := Pool.books_empty report threads.vmsList
  phase := rfl

/-- Past `tasksQ.join()` no task is left. -/
theorem Phase.unfinishedTasks_eq_zero (h : s.Phase threads) (hpast : s.main.pastJoin = true) :
    s.pool.tasks.unfinishedTasks = 0 := by
  obtain ⟨main, pool, read⟩ := s
  cases main with
  | starting rest => exact nomatch hpast
  | putting rest => exact nomatch hpast
  | joiningTasks => exact nomatch hpast
  | joiningThreads rest => exact h.2.1
  | reading status => exact h.1
  | waitingForVmsGone status => exact h.1
  | returned gone status => exact h.1
  | raised => exact h.1

/-- Before that it matters only that no result has been read. -/
theorem phase_iff_of_not_pastJoin (hpast : s.main.pastJoin = false) :
    s.Phase threads ↔ s.read = [] := by
  obtain ⟨main, pool, read⟩ := s
  cases main with
  | starting rest => exact Iff.rfl
  | putting rest => exact Iff.rfl
  | joiningTasks => exact Iff.rfl
  | _ => exact nomatch hpast

/-- Past `tasksQ.join()` all the work is done. -/
theorem Inv.settled (h : s.Inv threads) (hpast : s.main.pastJoin = true) :
    s.pool.Settled report threads.vmsList s.read := by
  have hbooks := h.books
  rw [MainPc.unstarted_eq_zero hpast, MainPc.unput_eq_nil hpast] at hbooks
  exact hbooks.settled (h.phase.unfinishedTasks_eq_zero hpast)

variable {pool : Pool Text Attempt (Text × Bool)} {workers : List (Worker Text Attempt)}

/-- A worker makes steps only before `tasksQ.join()` has returned. -/
theorem Inv.pastJoin_eq_false {i : Nat} {attempt : Attempt} (h : s.Inv threads)
    (hstep : s.pool.workerStep report i attempt = some pool) : s.main.pastJoin = false := by
  cases hpast : s.main.pastJoin with
  | false => rfl
  | true =>
    rw [(h.settled hpast).workerStep_eq_none] at hstep
    exact nomatch hstep

theorem Inv.workerStep {i : Nat} {attempt : Attempt} (h : s.Inv threads)
    (hstep : s.pool.workerStep report i attempt = some pool) :
    Inv threads { s with pool := pool } where
  books := h.books.workerStep hstep
  phase := by
    have hpast := h.pastJoin_eq_false hstep
    have hread := (phase_iff_of_not_pastJoin hpast).mp h.phase
    apply (phase_iff_of_not_pastJoin _).mpr
    · exact hread
    · exact hpast

theorem Inv.mainStep {gone : Option Bool} (h : s.Inv threads)
    (hstep : s.mainStep threads gone = some t) : t.Inv threads := by
  obtain ⟨hbooks, hphase⟩ := h
  cases mainStep_cases hstep with
  | started pool read => exact ⟨hbooks, hphase⟩
  | start rest pool read => exact ⟨hbooks.spawn, hphase⟩
  | allPut pool read => exact ⟨hbooks, hphase⟩
  | put vm rest pool read => exact ⟨hbooks.put, hphase⟩
  | tasksJoined pool read hdone =>
    refine ⟨hbooks, hphase, hdone, fun i hi => ?_⟩
    exact List.mem_range.mp (threads.perm.mem_iff.mp hi)
  | threadsJoined pool read =>
    obtain ⟨hread, hdone, -⟩ := hphase
    obtain rfl : read = [] := hread
    exact ⟨hbooks, hdone, rfl⟩
  | joined i rest vm attempt pool read hworker =>
    obtain ⟨hread, hdone, hlt⟩ := hphase
    exact ⟨hbooks, hread, hdone, fun j hj => hlt j (List.mem_cons_of_mem i hj)⟩
  | allRead status pool read hresults =>
    obtain ⟨hdone, hstatus⟩ := hphase
    exact ⟨hbooks, hdone, hresults, hstatus⟩
  | readResult status result rest pool read hresults =>
    obtain ⟨hdone, hstatus⟩ := hphase
    refine ⟨hbooks.read_result hresults, hdone, ?_⟩
    change (status && result.2) = (read ++ [result]).all Prod.snd
    rw [List.all_append, hstatus]
    simp
  | waited gone status pool read => exact ⟨hbooks, hphase⟩
  | waitRaised status pool read => exact ⟨hbooks, hphase.1, hphase.2.1⟩

theorem Inv.step {label : Label} (h : s.Inv threads) (hstep : s.step threads label = some t) :
    t.Inv threads := by
  cases label with
  | main gone => exact h.mainStep hstep
  | worker i attempt =>
    obtain ⟨pool, hpool, rfl⟩ := Option.map_eq_some_iff.mp hstep
    exact h.workerStep hpool

theorem inv_of_reaches (h : Reaches (step threads) (init threads) s) : s.Inv threads :=
  h.invariant (fun hinv hstep => hinv.step hstep) (inv_init threads)

/-! ## Runs end -/

/-- What the main thread still has to do. -/
def mainRank (threads : Threads) : MainPc → Nat
  | .starting rest => 6 + 2 * threads.vmsList.length + 6 * rest
  | .putting rest => 5 + threads.vmsList.length + rest.length
  | .joiningTasks => 4 + threads.vmsList.length
  | .joiningThreads rest => 3 + rest.length
  | .reading _ => 2
  | .waitingForVmsGone _ => 1
  | .returned _ _ => 0
  | .raised => 0

/-- What all the threads still have to do. -/
def rank (threads : Threads) (s : System) : Nat := mainRank threads s.main + s.pool.rank

theorem rank_init (threads : Threads) :
    (init threads).rank threads = 8 * threads.vmsList.length + 6 := by
  change 6 + 2 * threads.vmsList.length + 6 * threads.vmsList.length + 0 = _
  omega

theorem rank_mainStep_lt {gone : Option Bool} (hstep : s.mainStep threads gone = some t) :
    t.rank threads < s.rank threads := by
  cases mainStep_cases hstep with
  | started pool read =>
    simp only [rank, mainRank]
    omega
  | start rest pool read =>
    simp only [rank, mainRank, Pool.rank_spawn]
    omega
  | allPut pool read =>
    simp only [rank, mainRank, List.length_nil]
    omega
  | put vm rest pool read =>
    simp only [rank, mainRank, Pool.rank_put, List.length_cons]
    omega
  | tasksJoined pool read hdone =>
    have horder := threads.perm.length_eq
    rw [List.length_range] at horder
    simp only [rank, mainRank]
    omega
  | threadsJoined pool read =>
    simp only [rank, mainRank, List.length_nil]
    omega
  | joined i rest vm attempt pool read hworker =>
    simp only [rank, mainRank, List.length_cons]
    omega
  | allRead status pool read hresults =>
    simp only [rank, mainRank]
    omega
  | readResult status result rest pool read hresults =>
    simp only [rank, mainRank, Pool.rank, hresults, List.length_cons]
    omega
  | waited gone status pool read =>
    simp only [rank, mainRank]
    omega
  | waitRaised status pool read =>
    simp only [rank, mainRank]
    omega

/-- Every step leaves less to do. -/
theorem rank_step_lt {label : Label} (hstep : s.step threads label = some t) :
    t.rank threads < s.rank threads := by
  cases label with
  | main gone => exact rank_mainStep_lt hstep
  | worker i attempt =>
    obtain ⟨pool, hpool, rfl⟩ := Option.map_eq_some_iff.mp hstep
    exact Nat.add_lt_add_left (Pool.rank_workerStep_lt hpool) _

/-! ## No thread blocks another for ever -/

/-- Past `tasksQ.join()` every thread that has been started has exited. -/
theorem Inv.exists_exited {i : Nat} (h : s.Inv threads) (hpast : s.main.pastJoin = true)
    (hunstarted : s.main.unstarted = 0) (hi : i < threads.vmsList.length) :
    ∃ vm attempt, s.pool.workers[i]? = some (.exited vm attempt) := by
  have hlength := h.books.workers
  rw [hunstarted, Nat.add_zero] at hlength
  rw [← hlength] at hi
  obtain ⟨vm, attempt, hworker⟩ :=
    (h.settled hpast).exited s.pool.workers[i] (List.getElem_mem hi)
  exact ⟨vm, attempt, by rw [List.getElem?_eq_getElem hi, hworker]⟩

/-- Unless the function has ended, some thread can make a step. -/
theorem Inv.exists_step (h : s.Inv threads) (hended : s.main.ended = false) :
    ∃ label, (s.step threads label).isSome := by
  have hpast := h
  obtain ⟨hbooks, hphase⟩ := h
  obtain ⟨main, pool, read⟩ := s
  cases main with
  | starting rest =>
    cases rest with
    | zero => exact ⟨.main none, rfl⟩
    | succ rest => exact ⟨.main none, rfl⟩
  | putting rest =>
    cases rest with
    | nil => exact ⟨.main none, rfl⟩
    | cons vm rest => exact ⟨.main none, rfl⟩
  | joiningTasks =>
    by_cases hdone : pool.tasks.unfinishedTasks = 0
    · refine ⟨.main none, ?_⟩
      simp only [System.step, System.mainStep, if_pos hdone]
      rfl
    · obtain ⟨i, hi⟩ := hbooks.exists_workerStep hdone
      refine ⟨.worker i ⟨.raised, .raised, .raised⟩, ?_⟩
      simp only [System.step, Option.isSome_map]
      exact hi _
  | joiningThreads rest =>
    cases rest with
    | nil => exact ⟨.main none, rfl⟩
    | cons i rest =>
      obtain ⟨-, -, hlt⟩ := hphase
      obtain ⟨vm, attempt, hworker⟩ :=
        hpast.exists_exited rfl rfl (hlt i List.mem_cons_self)
      refine ⟨.main none, ?_⟩
      simp only at hworker
      simp only [System.step, System.mainStep, hworker]
      rfl
  | reading status =>
    refine ⟨.main none, ?_⟩
    cases hresults : pool.results with
    | nil =>
      simp only [System.step, System.mainStep, hresults]
      rfl
    | cons result rest =>
      simp only [System.step, System.mainStep, hresults]
      rfl
  | waitingForVmsGone status => exact ⟨.main none, rfl⟩
  | returned gone status => exact nomatch hended
  | raised => exact nomatch hended

/-! ## The account of the names -/

/-- Where the names are: with a worker, in the queue, or not yet put. -/
def names (threads : Threads) (s : System) : List Text :=
  s.pool.workers.filterMap Worker.task? ++ s.pool.tasks.items ++ s.main.unput threads.vmsList

/-- Every worker has taken a name, and there is a result for each name. -/
structure AccountedFor (threads : Threads) (s : System) : Prop where
  workers : s.pool.workers.length = threads.vmsList.length
  exited : ∀ worker ∈ s.pool.workers, ∃ vm attempt, worker = .exited vm attempt
  taken : (s.pool.workers.filterMap Worker.task?).Perm threads.vmsList
  reports : (s.read ++ s.pool.results).Perm (s.pool.workers.filterMap (Worker.report? report))
  results : ((s.read ++ s.pool.results).map Prod.fst).Perm threads.vmsList

/-- The worker's VM has been removed, or was not found. -/
def Removed (worker : Worker Text Attempt) : Prop :=
  ∃ vm attempt, worker = .exited vm attempt
    ∧ (removal false attempt = .deleted ∨ removal false attempt = .notFound)

theorem status_eq_true_iff (removal : Removal) :
    removal.status = true ↔ removal = .deleted ∨ removal = .notFound := by
  cases removal <;> decide

/-- The results of workers that have exited are about the names that they have taken. -/
theorem map_fst_reports (h : ∀ worker ∈ workers, ∃ vm attempt, worker = Worker.exited vm attempt) :
    (workers.filterMap (Worker.report? report)).map Prod.fst = workers.filterMap Worker.task? := by
  rw [List.map_filterMap]
  refine List.filterMap_congr fun worker hworker => ?_
  obtain ⟨vm, attempt, rfl⟩ := h worker hworker
  rfl

theorem Inv.accountedFor (h : s.Inv threads) (hpast : s.main.pastJoin = true) :
    s.AccountedFor threads := by
  have hsettled := h.settled hpast
  have hlength := h.books.workers
  rw [MainPc.unstarted_eq_zero hpast, Nat.add_zero] at hlength
  refine ⟨hlength, hsettled.exited, hsettled.taken, hsettled.reports, ?_⟩
  have hresults := hsettled.reports.map Prod.fst
  rw [map_fst_reports hsettled.exited] at hresults
  exact hresults.trans hsettled.taken

/-- All reports are good if every worker's VM has been removed, or was not found. -/
theorem all_reports_iff (h : ∀ worker ∈ workers, ∃ vm attempt, worker = Worker.exited vm attempt) :
    (workers.filterMap (Worker.report? report)).all Prod.snd = true
      ↔ ∀ worker ∈ workers, Removed worker := by
  rw [List.all_eq_true]
  constructor
  · intro hall worker hworker
    obtain ⟨vm, attempt, rfl⟩ := h worker hworker
    refine ⟨vm, attempt, rfl, (status_eq_true_iff _).mp ?_⟩
    exact hall (report vm attempt) (List.mem_filterMap.mpr ⟨_, hworker, rfl⟩)
  · intro hall result hresult
    obtain ⟨worker, hworker, hreport⟩ := List.mem_filterMap.mp hresult
    obtain ⟨vm, attempt, rfl, hremoval⟩ := hall worker hworker
    rw [← Option.some.inj hreport]
    exact (status_eq_true_iff _).mpr hremoval

theorem Inv.value_eq_true_iff {gone status : Bool} (h : s.Inv threads)
    (hmain : s.main = .returned gone status) :
    (gone && status) = true ↔ gone = true ∧ ∀ worker ∈ s.pool.workers, Removed worker := by
  have hsettled := h.settled (by rw [hmain]; rfl)
  have hphase := h.phase
  unfold Phase at hphase
  rw [hmain] at hphase
  obtain ⟨-, hresults, hstatus⟩ := hphase
  have hreports := hsettled.reports
  rw [hresults, List.append_nil] at hreports
  rw [Bool.and_eq_true, hstatus, hreports.all_eq, all_reports_iff hsettled.exited]

/-- What a call of `removeVms` guarantees, whatever the engine answers and however the threads
are interleaved. -/
structure Guarantees (threads : Threads) : Prop where
  /-- A run has at most so many steps. -/
  ends : ∀ {schedule : List Label} {s : System},
    run (step threads) (init threads) schedule = some s →
      schedule.length ≤ 8 * threads.vmsList.length + 6
  /-- Where no thread can make a step, the function has returned or raised: in particular it is
  not blocked in `tasksQ.join()`. -/
  joins : ∀ {s : System}, Reaches (step threads) (init threads) s →
    (∀ label, s.step threads label = none) → s.main.ended = true ∧ s.main.pastJoin = true
  /-- No name is lost or taken twice. -/
  conserves : ∀ {s : System}, Reaches (step threads) (init threads) s →
    (s.names threads).Perm threads.vmsList
  /-- Past `tasksQ.join()` every name has been taken by one worker, and there is one result of
  it. -/
  accounts : ∀ {s : System}, Reaches (step threads) (init threads) s →
    s.main.pastJoin = true → s.AccountedFor threads
  /-- The value is true if the VMs are gone and each has been removed or was not found, and not
  otherwise. -/
  value : ∀ {s : System} {gone status : Bool}, Reaches (step threads) (init threads) s →
    s.main = .returned gone status →
      ((gone && status) = true ↔ gone = true ∧ ∀ worker ∈ s.pool.workers, Removed worker)

/-- A call for one VM. -/
def oneVm : Threads where
  vmsList := ["vm_1".toList]
  ne_nil := List.cons_ne_nil _ _
  order := [0]
  perm := List.Perm.refl _

/-- A VM that is not found counts as removed, after as many steps as a run can have. -/
example : (run (step oneVm) (init oneVm)
    (List.replicate 4 (.main none) ++ List.replicate 4 (.worker 0 ⟨.notFound, .raised, .raised⟩)
      ++ List.replicate 6 (.main (some true)))).map System.main = some (.returned true true) := rfl

end System

end OvirtArt.TestsLib.RemoveVms
