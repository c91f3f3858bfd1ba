import OvirtArt.CoreApi.PyText
import OvirtArt.Foundation.Recordings

set_option autoImplicit false

/-!
# `start_vms` and `run_vms_once` of `low_level/vms.py`

Only the VMs that are down are started, and the results are paired by position with the list of all
VMs.  The VM that an exception names is the one at the place of the result.

The results come in the order of the submissions, so the threads are left out.  Names may repeat
in the list, and a VM that is up is in it without a result.
-/

namespace OvirtArt.TestsLib.ParallelStart

open OvirtArt.CoreApi OvirtArt.Foundation

/-- What a start comes to; an exception with its text. -/
abbrev Outcome : Type := Except Text Bool

/-- A VM of the list, and what its start comes to if it is down. -/
structure Machine where
  name : Text
  down : Bool
  outcome : Outcome

/-- What the functions raise. -/
inductive StartException where
  /-- `VMException("Cannot start vm %s")`. -/
  | vmException (machine : Text)
  /-- The exception of a start, logged with the name of a VM. -/
  | raised (machine : Text) (exception : Text)
  /-- What `ThreadPoolExecutor` raises without workers. -/
  | valueError
  | keyError (name : Text)
  deriving DecidableEq, Repr

/-! ## The source -/

/-- `ThreadPoolExecutor(max_workers=max_workers)`. -/
def executor (maxWorkers : Nat) : Except StartException Unit :=
  if maxWorkers = 0 then .error .valueError else .ok ⟨⟩

section

variable (arguments : Text → Except StartException Unit)

/-- The body of the first loop: what is appended to `results`.  An entry is a VM that is started. -/
def submit (machine : Machine) : Recorded StartException Text (List Outcome) :=
  if machine.down then do
    Recorded.call (arguments machine.name)
    Recorded.ask machine.name (.ok [machine.outcome])
  else pure []

/-- The first loop. -/
def submitAll : List Machine → Recorded StartException Text (List Outcome)
  | [] => pure []
  | machine :: rest => do
      let own ← submit arguments machine
      let later ← submitAll rest
      return own ++ later

/-- The body of the second loop. -/
def checkResult (machine : Text) : Outcome → Except StartException Unit
  | .error exception => .error (.raised machine exception)
  | .ok false => .error (.vmException machine)
  | .ok true => .ok ⟨⟩

/-- The second loop, over `zip(vm_list, results)`. -/
def checkResults : List (Text × Outcome) → Except StartException Unit
  | [] => .ok ⟨⟩
  | (machine, res) :: rest => do
      checkResult machine res
      checkResults rest

/-- The common part of the two functions; `arguments` gets the arguments of a start. -/
def startAll (maxWorkers : Nat) (vmList : List Machine) : Recorded StartException Text Unit := do
  Recorded.call (executor maxWorkers)
  let results ← submitAll arguments vmList
  Recorded.call (checkResults ((vmList.map Machine.name).zip results))

end

/-- `start_vms`. -/
def startVms (vmList : List Machine) (maxWorkers : Nat) : Recorded StartException Text Unit :=
  startAll (fun _ => .ok ⟨⟩) maxWorkers vmList

/-- `kwargs[vm_name]`, of the names that are keys. -/
def runOnceArguments (kwargs : List Text) (vmName : Text) : Except StartException Unit :=
  if vmName ∈ kwargs then .ok ⟨⟩ else .error (.keyError vmName)

/-- `max_workers`, or as many as there are VMs where it is no true value. -/
def runOnceWorkers (vms : List Machine) : Option Nat → Nat
  | some (n + 1) => n + 1
  | _ => vms.length

/-- `run_vms_once`. -/
def runVmsOnce (vms : List Machine) (maxWorkers : Option Nat) (kwargs : List Text) :
    Recorded StartException Text Unit :=
  startAll (runOnceArguments kwargs) (runOnceWorkers vms maxWorkers) vms

/-! ## What is asked of them -/

/-- The start is made, and is no success. -/
def Machine.Fails (machine : Machine) : Prop :=
  machine.down = true ∧ machine.outcome ≠ .ok true

/-- The VM that an exception names. -/
def StartException.blamed : StartException → Option Text
  | .vmException machine => some machine
  | .raised machine _ => some machine
  | _ => none

/-- Exactly the VMs that are down are started, something is raised exactly if the start of one of
them fails, and what is raised names such a one. -/
structure BlamesRight (vmList : List Machine) (run : Recorded StartException Text Unit) :
    Prop where
  starts : run.entries = (vmList.filter Machine.down).map Machine.name
  raises : (∃ e, run.result = .error e) ↔ ∃ machine ∈ vmList, machine.Fails
  blames : ∀ e, run.result = .error e →
    ∃ machine ∈ vmList, machine.Fails ∧ e.blamed = some machine.name

/-- So many starts are made before the first one that fails. -/
def FirstFailure (vmList : List Machine) (i : Nat) : Prop :=
  (∃ machine, (vmList.filter Machine.down)[i]? = some machine ∧ machine.Fails) ∧
    ∀ j < i, ∀ machine, (vmList.filter Machine.down)[j]? = some machine → ¬ machine.Fails

/-- The VM at the place in the list that is the number of the starts before the first one that fails
has the name of one whose start fails. -/
def Aligned (vmList : List Machine) : Prop :=
  ∀ i, FirstFailure vmList i → ∃ other, vmList[i]? = some other ∧
    ∃ machine ∈ vmList, machine.Fails ∧ machine.name = other.name

/-! ## The starts -/

section

variable {arguments : Text → Except StartException Unit} {vmList : List Machine}
  {machine : Machine} {maxWorkers : Nat}

/-- The outcomes of the starts that are made. -/
def outcomes (vmList : List Machine) : List Outcome :=
  (vmList.filter Machine.down).map Machine.outcome

/-- Each VM that is down has its arguments. -/
def HasArguments (arguments : Text → Except StartException Unit) (vmList : List Machine) : Prop :=
  ∀ machine ∈ vmList, machine.down = true → arguments machine.name = .ok ⟨⟩

theorem submit_of_down (hdown : machine.down = true) (h : arguments machine.name = .ok ⟨⟩) :
    submit arguments machine =
      { entries := [machine.name], result := .ok [machine.outcome] } := by
  unfold submit
  rw [if_pos hdown, h, Recorded.bind_eq_of_ok rfl]
  rfl

theorem submit_of_not_down (hdown : machine.down = false) :
    submit arguments machine = { entries := [], result := .ok [] } := by
  unfold submit
  rw [if_neg (Bool.eq_false_iff.mp hdown)]
  rfl

/-- With all arguments, the VMs that are down are started in their order. -/
theorem submitAll_of_hasArguments (h : HasArguments arguments vmList) :
    submitAll arguments vmList =
      { entries := (vmList.filter Machine.down).map Machine.name
        result := .ok (outcomes vmList) } := by
  induction vmList with
  | nil => rfl
  | cons machine rest ih =>
    have hrest := ih fun other hother => h other (List.mem_cons_of_mem machine hother)
    unfold outcomes at hrest ⊢
    rw [submitAll, List.filter_cons]
    cases hdown : machine.down with
    | true =>
      rw [if_pos rfl, submit_of_down hdown (h machine List.mem_cons_self hdown),
        Recorded.bind_eq_of_ok rfl, hrest, Recorded.bind_eq_of_ok rfl]
      exact congrArg (Recorded.mk · _) (congrArg (machine.name :: ·) (List.append_nil _))
    | false =>
      rw [if_neg Bool.false_ne_true, submit_of_not_down hdown, Recorded.bind_eq_of_ok rfl,
        hrest, Recorded.bind_eq_of_ok rfl]
      exact congrArg (Recorded.mk · _) (List.append_nil _)

/-- Where arguments are missing, not all VMs that are down are started. -/
theorem length_entries_submitAll_lt (h : ¬ HasArguments arguments vmList) :
    ((submitAll arguments vmList).entries.length < (vmList.filter Machine.down).length) ∧
      ∃ e, (submitAll arguments vmList).result = .error e := by
  induction vmList with
  | nil => exact absurd (fun _ hmem => absurd hmem List.not_mem_nil) h
  | cons machine rest ih =>
    rw [submitAll, List.filter_cons]
    have hrest (hfirst : machine.down = true → arguments machine.name = .ok ⟨⟩) :
        ¬ HasArguments arguments rest := by
      intro hall
      apply h
      intro other hother hdown
      cases hother with
      | head => exact hfirst hdown
      | tail _ hother => exact hall other hother hdown
    cases hdown : machine.down with
    | false =>
      obtain ⟨hlt, e, he⟩ := ih (hrest fun htrue => nomatch hdown.symm.trans htrue)
      rw [if_neg Bool.false_ne_true, submit_of_not_down hdown, Recorded.bind_eq_of_ok rfl,
        Recorded.bind_eq_of_error he]
      exact ⟨hlt, e, rfl⟩
    | true =>
      rw [if_pos rfl, List.length_cons]
      cases hargs : arguments machine.name with
      | ok value =>
        obtain ⟨hlt, e, he⟩ := ih (hrest fun _ => hargs)
        rw [submit_of_down hdown hargs, Recorded.bind_eq_of_ok rfl,
          Recorded.bind_eq_of_error he]
        exact ⟨Nat.succ_lt_succ hlt, e, rfl⟩
      | error e =>
        have hsubmit : submit arguments machine = { entries := [], result := .error e } := by
          unfold submit
          rw [if_pos hdown, hargs, Recorded.bind_eq_of_error rfl]
          rfl
        rw [hsubmit, Recorded.bind_eq_of_error rfl]
        exact ⟨Nat.succ_pos _, e, rfl⟩

/-! ## The results -/

variable {pairs : List (Text × Outcome)} {e : StartException} {outcome : Outcome} {name : Text}
  {i : Nat}

theorem checkResult_eq_ok_iff : checkResult name outcome = .ok ⟨⟩ ↔ outcome = .ok true := by
  cases outcome with
  | error exception => exact iff_of_false nofun nofun
  | ok started =>
    cases started with
    | false => exact iff_of_false nofun nofun
    | true => exact iff_of_true rfl rfl

theorem blamed_of_checkResult (h : checkResult name outcome = .error e) :
    outcome ≠ .ok true ∧ e.blamed = some name := by
  cases outcome with
  | error exception =>
    obtain rfl := Except.error.inj h
    exact ⟨nofun, rfl⟩
  | ok started =>
    cases started with
    | false =>
      obtain rfl := Except.error.inj h
      exact ⟨nofun, rfl⟩
    | true => exact nomatch h

/-- What the second loop raises names the VM that is paired with the first failure. -/
theorem blamed_of_checkResults (h : checkResults pairs = .error e) :
    ∃ (i : Nat) (name : Text) (outcome : Outcome), pairs[i]? = some (name, outcome) ∧
      outcome ≠ .ok true ∧
      (∀ j < i, ∀ pair, pairs[j]? = some pair → pair.2 = .ok true) ∧ e.blamed = some name := by
  induction pairs with
  | nil => exact nomatch h
  | cons pair rest ih =>
    obtain ⟨name, outcome⟩ := pair
    cases hfirst : checkResult name outcome with
    | error first =>
      rw [checkResults, hfirst] at h
      obtain rfl := Except.error.inj h
      obtain ⟨hfails, hblamed⟩ := blamed_of_checkResult hfirst
      exact ⟨0, name, outcome, rfl, hfails, fun j hj => absurd hj (Nat.not_lt_zero j), hblamed⟩
    | ok value =>
      obtain rfl := checkResult_eq_ok_iff.mp hfirst
      obtain ⟨i, found, other, hi, hfails, hbefore, hblamed⟩ := ih h
      refine ⟨i + 1, found, other, hi, hfails, fun j hj earlier hearlier => ?_, hblamed⟩
      cases j with
      | zero =>
        obtain rfl := Option.some.inj hearlier
        rfl
      | succ j => exact hbefore j (Nat.lt_of_succ_lt_succ hj) earlier hearlier

/-- The second loop ends exactly if all results are successes. -/
theorem checkResults_eq_ok_iff :
    checkResults pairs = .ok ⟨⟩ ↔ ∀ pair ∈ pairs, pair.2 = .ok true := by
  induction pairs with
  | nil => exact iff_of_true rfl nofun
  | cons pair rest ih =>
    obtain ⟨name, outcome⟩ := pair
    rw [List.forall_mem_cons, ← ih, ← checkResult_eq_ok_iff]
    cases hfirst : checkResult name outcome with
    | error first =>
      rw [checkResults, hfirst]
      exact iff_of_false nofun fun h => nomatch h.1
    | ok value =>
      rw [checkResults, hfirst]
      exact (and_iff_right rfl).symm

/-! ## The pairing -/

/-- The list of all VMs, paired by position with the outcomes. -/
def paired (vmList : List Machine) : List (Text × Outcome) :=
  (vmList.map Machine.name).zip (outcomes vmList)

theorem paired_eq_some_iff :
    (paired vmList)[i]? = some (name, outcome) ↔
      (∃ other, vmList[i]? = some other ∧ other.name = name) ∧
        ∃ machine, (vmList.filter Machine.down)[i]? = some machine ∧
          machine.outcome = outcome := by
  unfold paired outcomes
  rw [List.getElem?_zip_eq_some, List.getElem?_map, List.getElem?_map, Option.map_eq_some_iff,
    Option.map_eq_some_iff]

/-- At each place of a start there is a VM in the whole list. -/
theorem exists_at_place (h : (vmList.filter Machine.down)[i]? = some machine) :
    ∃ other, vmList[i]? = some other := by
  obtain ⟨hi, -⟩ := List.getElem?_eq_some_iff.mp h
  have hlength := Nat.lt_of_lt_of_le hi (List.length_filter_le _ vmList)
  exact ⟨vmList[i], List.getElem?_eq_getElem hlength⟩

theorem mem_of_started (h : (vmList.filter Machine.down)[i]? = some machine) :
    machine ∈ vmList ∧ machine.down = true :=
  List.mem_filter.mp (List.mem_of_getElem? h)

theorem not_fails_iff (h : (vmList.filter Machine.down)[i]? = some machine) :
    ¬ machine.Fails ↔ machine.outcome = .ok true := by
  unfold Machine.Fails
  rw [(mem_of_started h).2, and_iff_right rfl, not_not]

/-- Something is raised exactly if a start fails. -/
theorem checkResults_paired_raises_iff :
    (∃ e, checkResults (paired vmList) = .error e) ↔ ∃ machine ∈ vmList, machine.Fails := by
  constructor
  · intro ⟨e, he⟩
    obtain ⟨i, name, outcome, hi, hfails, -⟩ := blamed_of_checkResults he
    obtain ⟨-, machine, hmachine, rfl⟩ := paired_eq_some_iff.mp hi
    obtain ⟨hmem, hdown⟩ := mem_of_started hmachine
    exact ⟨machine, hmem, hdown, hfails⟩
  · intro ⟨machine, hmem, hdown, hfails⟩
    cases hresult : checkResults (paired vmList) with
    | error e => exact ⟨e, rfl⟩
    | ok value =>
      obtain ⟨i, hi⟩ := List.mem_iff_getElem?.mp (List.mem_filter.mpr ⟨hmem, hdown⟩)
      obtain ⟨other, hother⟩ := exists_at_place hi
      have hpair := paired_eq_some_iff.mpr ⟨⟨other, hother, rfl⟩, machine, hi, rfl⟩
      exact absurd (checkResults_eq_ok_iff.mp hresult _ (List.mem_of_getElem? hpair)) hfails

/-- What is raised names the VM at the place of the first failure. -/
theorem exists_firstFailure (h : checkResults (paired vmList) = .error e) :
    ∃ i other, FirstFailure vmList i ∧ vmList[i]? = some other ∧ e.blamed = some other.name := by
  obtain ⟨i, name, outcome, hi, hfails, hbefore, hblamed⟩ := blamed_of_checkResults h
  obtain ⟨⟨other, hother, rfl⟩, machine, hmachine, rfl⟩ := paired_eq_some_iff.mp hi
  refine ⟨i, other, ⟨⟨machine, hmachine, (mem_of_started hmachine).2, hfails⟩, ?_⟩, hother,
    hblamed⟩
  intro j hj earlier hearlier
  obtain ⟨place, hplace⟩ := exists_at_place hearlier
  have hpair := paired_eq_some_iff.mpr ⟨⟨place, hplace, rfl⟩, earlier, hearlier, rfl⟩
  exact (not_fails_iff hearlier).mpr (hbefore j hj _ hpair)

theorem firstFailure_unique {j : Nat} (hi : FirstFailure vmList i) (hj : FirstFailure vmList j) :
    i = j := by
  obtain ⟨⟨machine, hmachine, hfails⟩, hbefore⟩ := hi
  obtain ⟨⟨other, hother, hfails'⟩, hbefore'⟩ := hj
  apply Nat.le_antisymm
  · exact Nat.le_of_not_lt fun hlt => hbefore j hlt other hother hfails'
  · exact Nat.le_of_not_lt fun hlt => hbefore' i hlt machine hmachine hfails

theorem blames_iff_aligned :
    (∀ e, checkResults (paired vmList) = .error e →
      ∃ machine ∈ vmList, machine.Fails ∧ e.blamed = some machine.name) ↔ Aligned vmList := by
  constructor
  · intro h i hfirst
    obtain ⟨⟨failing, hfailing, hfails⟩, -⟩ := id hfirst
    obtain ⟨e, he⟩ := checkResults_paired_raises_iff.mpr
      ⟨failing, (mem_of_started hfailing).1, hfails⟩
    obtain ⟨j, other, hother⟩ := exists_firstFailure he
    obtain rfl := firstFailure_unique hfirst hother.1
    obtain ⟨machine, hmem, hmachine, hblamed⟩ := h e he
    refine ⟨other, hother.2.1, machine, hmem, hmachine, ?_⟩
    exact Option.some.inj (hblamed.symm.trans hother.2.2)
  · intro h e he
    obtain ⟨i, place, hfirst, hplace, hblamed⟩ := exists_firstFailure he
    obtain ⟨other, hother, machine, hmem, hfails, hname⟩ := h i hfirst
    obtain rfl := Option.some.inj (hplace.symm.trans hother)
    exact ⟨machine, hmem, hfails, hblamed.trans (congrArg some hname.symm)⟩

/-- The common part blames the right VM exactly if it has workers, all arguments, and an alignment
of the starts with the list. -/
theorem startAll_blamesRight_iff :
    BlamesRight vmList (startAll arguments maxWorkers vmList) ↔
      0 < maxWorkers ∧ HasArguments arguments vmList ∧ Aligned vmList := by
  cases maxWorkers with
  | zero =>
    have hrun : startAll arguments 0 vmList = { entries := [], result := .error .valueError } :=
      rfl
    rw [hrun]
    refine iff_of_false (fun h => ?_) fun h => absurd h.1 (Nat.lt_irrefl 0)
    obtain ⟨machine, -, -, hblamed⟩ := h.blames _ rfl
    exact nomatch hblamed
  | succ workers =>
    rw [and_iff_right (Nat.succ_pos workers)]
    by_cases hargs : HasArguments arguments vmList
    · have hrun : startAll arguments (workers + 1) vmList =
          { entries := (vmList.filter Machine.down).map Machine.name
            result := checkResults (paired vmList) } := by
        unfold startAll
        rw [Recorded.bind_eq_of_ok rfl, submitAll_of_hasArguments hargs,
          Recorded.bind_eq_of_ok rfl]
        exact congrArg (Recorded.mk · _) (List.append_nil _)
      rw [hrun, and_iff_right hargs, ← blames_iff_aligned]
      exact ⟨BlamesRight.blames, fun h => ⟨rfl, checkResults_paired_raises_iff, h⟩⟩
    · obtain ⟨hlt, e, he⟩ := length_entries_submitAll_lt hargs
      refine iff_of_false (fun h => ?_) fun h => hargs h.1
      have hlength := congrArg List.length h.starts
      unfold startAll at hlength
      rw [Recorded.bind_eq_of_ok rfl, Recorded.bind_eq_of_error he, List.length_map] at hlength
      exact absurd hlength (Nat.ne_of_lt hlt)

end

theorem runOnceWorkers_pos_iff {vms : List Machine} {maxWorkers : Option Nat} :
    0 < runOnceWorkers vms maxWorkers ↔ (∃ n, maxWorkers = some (n + 1)) ∨ vms ≠ [] := by
  rw [← List.length_pos_iff]
  cases maxWorkers with
  | none => exact (or_iff_right nofun).symm
  | some workers =>
    cases workers with
    | zero => exact (or_iff_right nofun).symm
    | succ n => exact iff_of_true (Nat.succ_pos n) (Or.inl ⟨n, rfl⟩)

theorem hasArguments_runOnce_iff {vms : List Machine} {kwargs : List Text} :
    HasArguments (runOnceArguments kwargs) vms ↔
      ∀ machine ∈ vms, machine.down = true → machine.name ∈ kwargs := by
  refine forall_congr' fun machine => forall_congr' fun _ => forall_congr' fun _ => ?_
  unfold runOnceArguments
  split
  · next h => exact iff_of_true rfl h
  · next h => exact iff_of_false nofun h

/-- The two functions blame the right VM exactly if they have workers, `run_vms_once` has parameters
for each VM that is down, and the VM at the place of the first failure has the name of one whose
start fails. -/
theorem parallel_start_iff (vmList : List Machine) (maxWorkers : Nat)
    (onceWorkers : Option Nat) (kwargs : List Text) :
    (BlamesRight vmList (startVms vmList maxWorkers) ↔ 0 < maxWorkers ∧ Aligned vmList) ∧
    (BlamesRight vmList (runVmsOnce vmList onceWorkers kwargs) ↔
      ((∃ n, onceWorkers = some (n + 1)) ∨ vmList ≠ []) ∧
      (∀ machine ∈ vmList, machine.down = true → machine.name ∈ kwargs) ∧ Aligned vmList) := by
  constructor
  · unfold startVms
    rw [startAll_blamesRight_iff]
    exact and_congr_right fun _ => and_iff_right fun _ _ _ => rfl
  · unfold runVmsOnce
    rw [startAll_blamesRight_iff, runOnceWorkers_pos_iff, hasArguments_runOnce_iff]

/-! ## A VM that is up before one that fails -/

/-- A VM that is up, and one whose start fails. -/
def upAndFailing : List Machine :=
  [{ name := "vm_1".toList, down := false, outcome := .ok true },
    { name := "vm_2".toList, down := true, outcome := .ok false }]

/-- The exception names the VM that was up and was not started. -/
theorem running_vm_is_blamed :
    (startVms upAndFailing 2).entries = ["vm_2".toList] ∧
      (startVms upAndFailing 2).result = .error (.vmException "vm_1".toList) ∧
      ¬ BlamesRight upAndFailing (startVms upAndFailing 2) := by
  refine ⟨rfl, rfl, fun h => ?_⟩
  obtain ⟨machine, hmem, hfails, hblamed⟩ := h.blames _ rfl
  unfold upAndFailing at hmem
  simp only [List.mem_cons, List.not_mem_nil, or_false] at hmem
  obtain rfl | rfl := hmem
  · exact nomatch hfails.1
  · exact absurd (Option.some.inj hblamed) (by decide)

end OvirtArt.TestsLib.ParallelStart
