import OvirtArt.CoreApi.SampledLoops
import OvirtArt.TestsLib.HostStates

set_option autoImplicit false

/-!
# Starting the VMs of a pool

`start_vms` and `wait_for_vms_in_pool_to_start` of `high_level/vmpools.py`, with
`get_vms_in_pool_by_states` of `low_level/vmpools.py` and `start_vms` of `low_level/vms.py`.

The states of the VMs are given at each sample, and each start has its own answer.  The order in
which the threads run is left out.
-/

namespace OvirtArt.TestsLib.VmPools

open OvirtArt.CoreApi
open OvirtArt.TestsLib.HostStates (TextOrList contains_text_iff)

/-- What is read of a VM; `vmPool` is the id of its pool. -/
structure Vm where
  name : Text
  status : Text
  vmPool : Option Text
  deriving DecidableEq, Repr

/-- What the functions raise. -/
inductive PoolException where
  | vmPoolException
  | vmException
  | entityNotFound
  /-- The exception of a `startVm`. -/
  | ofStartVm
  deriving DecidableEq, Repr

/-- How a `startVm` ends. -/
inductive StartVm where
  | started
  | refused
  | raised
  deriving DecidableEq, Repr

/-- The engine: its VMs, whose names are distinct, and what comes of starting them. -/
structure VmApi where
  vms : List Vm
  nodup : (vms.map Vm.name).Nodup
  startVm : Text → StartVm

/-- The VMs that were started, and the exception, if one is raised. -/
structure Outcome where
  started : List Text
  raised : Option PoolException
  deriving DecidableEq, Repr

/-! ## The source -/

/-- `ENUMS['vm_state_down']`. -/
def vmStateDown : Text := "down".toList

/-- `ENUMS['vm_state_up']`. -/
def vmStateUp : Text := "up".toList

/-- `ENUMS['vm_state_powering_up']`. -/
def vmStatePoweringUp : Text := "powering_up".toList

/-- `get_vms_in_pool`. -/
def getVmsInPool (vms : List Vm) (pool : Text) : List Vm :=
  vms.filter fun vm => vm.vmPool.any (· == pool)

/-- `get_vms_in_pool_by_states`. -/
def getVmsInPoolByStates (vms : List Vm) (pool : Text) (states : Option TextOrList) : List Vm :=
  (getVmsInPool vms pool).filter fun vm =>
    (states.getD (.list [vmStateUp, vmStatePoweringUp])).contains vm.status

section

variable (api : VmApi)

/-- `VM_API.find`. -/
def find (name : Text) : Except PoolException Vm :=
  match api.vms.find? fun vm => vm.name == name with
  | some vm => .ok vm
  | none => .error .entityNotFound

/-- The loop of `start_vms` in `low_level/vms.py` that submits the starts. -/
def submit : List Text → Outcome
  | [] => { started := [], raised := none }
  | machine :: rest =>
    match find api machine with
    | .error e => { started := [], raised := some e }
    | .ok vm =>
      if vm.status = vmStateDown then
        { submit rest with started := machine :: (submit rest).started }
      else submit rest

/-- What the result of a start raises. -/
def failure (machine : Text) : Option PoolException :=
  match api.startVm machine with
  | .started => none
  | .refused => some .vmException
  | .raised => some .ofStartVm

/-- `start_vms` of `low_level/vms.py`. -/
def llStartVms (vmList : List Text) : Outcome :=
  let submitted := submit api vmList
  match submitted.raised with
  | some e => { submitted with raised := some e }
  | none => { submitted with raised := submitted.started.findSome? (failure api) }

/-- `start_vms`. -/
def startVms (pool : Text) (numberOfVms : Nat) : Outcome :=
  let freeVmsObj := getVmsInPoolByStates api.vms pool (some (.text vmStateDown))
  if ¬ freeVmsObj.length = numberOfVms then { started := [], raised := some .vmPoolException }
  else llStartVms api (freeVmsObj.map Vm.name)

end

/-- `expected_states`. -/
def expectedStates (waitUntilUp : Bool) : Option TextOrList :=
  if waitUntilUp then some (.list [vmStateUp]) else none

/-- The body of the loop of `wait_for_vms_in_pool_to_start`. -/
def numberReached (pool : Text) (numberOfVms : Nat) (waitUntilUp : Bool) (vms : List Vm) :
    Option Bool :=
  if (getVmsInPoolByStates vms pool (expectedStates waitUntilUp)).length = numberOfVms then
    some true
  else none

/-- `wait_for_vms_in_pool_to_start`; the sampler gives what `VM_UTIL.get` returns.  After the
timeout, which is caught, and after the loop `False` is returned. -/
def waitForVmsInPoolToStart (sampler : TimeoutingSampler (List Vm)) (clock : ℚ≥0) (pool : Text)
    (numberOfVms : Nat) (waitUntilUp : Bool) : Bool :=
  match sampler.forLoop clock (stateless (numberReached pool numberOfVms waitUntilUp)) ⟨⟩ with
  | some value => value
  | none => false

/-! ## What is asked of it -/

/-- The VMs of the pool that are down. -/
def downVms (vms : List Vm) (pool : Text) : List Vm :=
  (getVmsInPool vms pool).filter fun vm => vm.status == vmStateDown

/-- `start_vms` raises `VmPoolException` exactly if fewer VMs are down, and starts so many of those
that are down otherwise. -/
structure StartsVms (api : VmApi) (pool : Text) (numberOfVms : Nat) : Prop where
  raises : (startVms api pool numberOfVms).raised = some .vmPoolException ↔
    (downVms api.vms pool).length < numberOfVms
  starts : ¬ (downVms api.vms pool).length < numberOfVms →
    ∃ chosen : List Vm, chosen.Sublist (downVms api.vms pool) ∧ chosen.length = numberOfVms ∧
      (startVms api pool numberOfVms).started = chosen.map Vm.name

/-- How many VMs of the pool are in the expected states. -/
def startedAt (sampler : TimeoutingSampler (List Vm)) (pool : Text) (waitUntilUp : Bool)
    (i : Nat) : Nat :=
  (getVmsInPoolByStates (sampler.resultAt i) pool (expectedStates waitUntilUp)).length

/-- The wait returns `True` exactly if at least so many VMs are in the expected states at a sample
in time, and `False` otherwise. -/
def WaitsForVms (sampler : TimeoutingSampler (List Vm)) (clock : ℚ≥0) (pool : Text)
    (numberOfVms : Nat) (waitUntilUp : Bool) : Prop :=
  waitForVmsInPoolToStart sampler clock pool numberOfVms waitUntilUp = true ↔
    ∃ i, sampler.InTime clock i ∧ numberOfVms ≤ startedAt sampler pool waitUntilUp i

/-! ## Starting -/

section

variable {api : VmApi} {pool : Text} {numberOfVms : Nat} {vms : List Vm}

/-- A name of a VM is found again. -/
theorem find_eq_ok (api : VmApi) {vm : Vm} (h : vm ∈ api.vms) : find api vm.name = .ok vm := by
  have hfound : api.vms.find? (fun other => other.name == vm.name) = some vm := by
    obtain ⟨before, after, hsplit⟩ := List.append_of_mem h
    have hnodup := api.nodup
    rw [hsplit, List.map_append, List.map_cons] at hnodup
    have hbefore : ∀ other ∈ before, (other.name == vm.name) = false := by
      intro other hother
      rw [beq_eq_false_iff_ne]
      intro heq
      refine (List.disjoint_of_nodup_append hnodup) (List.mem_map_of_mem hother) ?_
      rw [heq]
      exact List.mem_cons_self
    rw [hsplit, List.find?_append, List.find?_eq_none.mpr, Option.none_or,
      List.find?_cons, beq_self_eq_true]
    intro other hother
    rw [hbefore other hother]
    exact Bool.false_ne_true
  rw [find, hfound]

/-- Those of the machines that are down are started, and no machine is unknown. -/
theorem submit_map (h : ∀ vm ∈ vms, vm ∈ api.vms) : submit api (vms.map Vm.name) =
    { started := (vms.filter fun vm => vm.status == vmStateDown).map Vm.name, raised := none } := by
  induction vms with
  | nil => rfl
  | cons vm rest ih =>
    rw [List.forall_mem_cons] at h
    rw [List.map_cons, submit, find_eq_ok api h.1, ih h.2]
    dsimp only
    by_cases hdown : vm.status = vmStateDown
    · rw [if_pos hdown, List.filter_cons, if_pos (beq_iff_eq.mpr hdown), List.map_cons]
    · rw [if_neg hdown, List.filter_cons, if_neg fun heq => hdown (beq_iff_eq.mp heq)]

theorem failure_ne_vmPoolException (machine : Text) :
    failure api machine ≠ some .vmPoolException := by
  unfold failure
  cases api.startVm machine <;> exact nofun

/-- The VMs that are down are among those that are found. -/
theorem filter_freeVms :
    ((getVmsInPoolByStates vms pool (some (.text vmStateDown))).filter
      fun vm => vm.status == vmStateDown) = downVms vms pool := by
  rw [getVmsInPoolByStates, List.filter_filter, downVms]
  refine List.filter_congr fun vm _ => ?_
  by_cases hdown : (vm.status == vmStateDown) = true
  · rw [hdown, Bool.true_and, beq_iff_eq.mp hdown]
    exact contains_text_iff.mpr (List.infix_refl _)
  · rw [Bool.eq_false_iff.mpr hdown, Bool.false_and]

theorem llStartVms_freeVms (api : VmApi) (pool : Text) :
    llStartVms api
        ((getVmsInPoolByStates api.vms pool (some (.text vmStateDown))).map Vm.name) =
      { started := (downVms api.vms pool).map Vm.name
        raised := ((downVms api.vms pool).map Vm.name).findSome? (failure api) } := by
  have hmem : ∀ vm ∈ getVmsInPoolByStates api.vms pool (some (.text vmStateDown)),
      vm ∈ api.vms :=
    fun vm hvm => (List.mem_filter.mp (List.mem_filter.mp hvm).1).1
  rw [llStartVms, submit_map hmem, filter_freeVms]

theorem startVms_raised_iff (api : VmApi) (pool : Text) (numberOfVms : Nat) :
    (startVms api pool numberOfVms).raised = some .vmPoolException ↔
      (getVmsInPoolByStates api.vms pool (some (.text vmStateDown))).length ≠ numberOfVms := by
  unfold startVms
  dsimp only
  split
  · rename_i hne
    exact iff_of_true rfl hne
  · rename_i heq
    refine iff_of_false ?_ heq
    rw [llStartVms_freeVms]
    intro h
    obtain ⟨machine, -, hmachine⟩ := List.exists_of_findSome?_eq_some h
    exact failure_ne_vmPoolException machine hmachine

theorem startsVms_iff :
    StartsVms api pool numberOfVms ↔ (downVms api.vms pool).length ≤ numberOfVms ∧
      ((getVmsInPoolByStates api.vms pool (some (.text vmStateDown))).length = numberOfVms ↔
        (downVms api.vms pool).length = numberOfVms) := by
  have hle : (downVms api.vms pool).length ≤
      (getVmsInPoolByStates api.vms pool (some (.text vmStateDown))).length := by
    rw [← filter_freeVms]
    exact List.length_filter_le _ _
  constructor
  · rintro ⟨hraises, -⟩
    rw [startVms_raised_iff] at hraises
    omega
  · rintro ⟨hmany, hfound⟩
    refine ⟨(startVms_raised_iff api pool numberOfVms).trans ?_, fun hfew => ?_⟩
    · omega
    · have hdown : (downVms api.vms pool).length = numberOfVms := by omega
      refine ⟨downVms api.vms pool, List.Sublist.refl _, hdown, ?_⟩
      rw [startVms]
      rw [if_neg (not_not.mpr (hfound.mpr hdown)), llStartVms_freeVms]

end

/-! ## Waiting -/

section

variable {sampler : TimeoutingSampler (List Vm)} {clock : ℚ≥0} {pool : Text} {numberOfVms : Nat}
  {waitUntilUp : Bool}

/-- The wait returns `True` exactly if so many VMs, and no more, are in the expected states at a
sample in time. -/
theorem waitForVmsInPoolToStart_iff :
    waitForVmsInPoolToStart sampler clock pool numberOfVms waitUntilUp = true ↔
      ∃ i, sampler.InTime clock i ∧ startedAt sampler pool waitUntilUp i = numberOfVms := by
  have hverdict : ∀ vms value, numberReached pool numberOfVms waitUntilUp vms = some value →
      value = true ∧
        (getVmsInPoolByStates vms pool (expectedStates waitUntilUp)).length = numberOfVms := by
    intro vms value h
    unfold numberReached at h
    split at h
    · rename_i hlength
      exact ⟨(Option.some.inj h).symm, hlength⟩
    · exact nomatch h
  unfold waitForVmsInPoolToStart
  cases hloop : sampler.forLoop clock
      (stateless (numberReached pool numberOfVms waitUntilUp)) ⟨⟩ with
  | some value =>
    obtain ⟨n, ⟨htime, -⟩, hvalue⟩ := TimeoutingSampler.forLoop_stateless_eq_some_iff.mp hloop
    obtain ⟨rfl, hlength⟩ := hverdict _ _ hvalue
    exact iff_of_true rfl ⟨n, htime, hlength⟩
  | none =>
    refine iff_of_false Bool.false_ne_true ?_
    rintro ⟨i, htime, hlength⟩
    have hnone := TimeoutingSampler.forLoop_stateless_eq_none_iff.mp hloop i htime
    rw [numberReached] at hnone
    exact nomatch hnone.symm.trans (if_pos hlength)

theorem waitsForVms_iff :
    WaitsForVms sampler clock pool numberOfVms waitUntilUp ↔
      ((∃ i, sampler.InTime clock i ∧ numberOfVms ≤ startedAt sampler pool waitUntilUp i) →
        ∃ i, sampler.InTime clock i ∧ startedAt sampler pool waitUntilUp i = numberOfVms) := by
  unfold WaitsForVms
  rw [waitForVmsInPoolToStart_iff]
  constructor
  · exact fun h => h.mpr
  · refine fun h => ⟨?_, h⟩
    rintro ⟨i, htime, hnumber⟩
    exact ⟨i, htime, hnumber.ge⟩

end

/-- Starting is right exactly if no more VMs are down than are to be started, and as many are found
if so many are down; waiting is right exactly if the number is hit at some sample, should it be
reached. -/
theorem vm_pool_start_iff (api : VmApi) (sampler : TimeoutingSampler (List Vm)) (clock : ℚ≥0)
    (pool : Text) (numberOfVms : Nat) (waitUntilUp : Bool) :
    (StartsVms api pool numberOfVms ↔ (downVms api.vms pool).length ≤ numberOfVms ∧
      ((getVmsInPoolByStates api.vms pool (some (.text vmStateDown))).length = numberOfVms ↔
        (downVms api.vms pool).length = numberOfVms)) ∧
    (WaitsForVms sampler clock pool numberOfVms waitUntilUp ↔
      ((∃ i, sampler.InTime clock i ∧ numberOfVms ≤ startedAt sampler pool waitUntilUp i) →
        ∃ i, sampler.InTime clock i ∧ startedAt sampler pool waitUntilUp i = numberOfVms)) :=
  ⟨startsVms_iff, waitsForVms_iff⟩

/-- An engine with two VMs of a pool that have this status. -/
def twoVms (status : Text) : VmApi where
  vms := [⟨"vm_1".toList, status, some "pool_1".toList⟩,
    ⟨"vm_2".toList, status, some "pool_1".toList⟩]
  nodup := by
    change ["vm_1".toList, "vm_2".toList].Nodup
    decide
  startVm _ := .started

/-- Two VMs of the pool are up from the second sample on. -/
def upTogether : TimeoutingSampler (List Vm) where
  timeout := (300 : Nat)
  sleep := (5 : Nat)
  sleep_pos := five_seconds_pos
  func i :=
    { result := (twoVms (if i = 0 then "down".toList else "up".toList)).vms, duration := 0 }

/-- With two VMs down one cannot be started, and with two VMs up the wait for one goes on. -/
theorem two_down_refused_and_two_up_missed :
    ((startVms (twoVms "down".toList) "pool_1".toList 1).raised = some .vmPoolException ∧
      ¬ StartsVms (twoVms "down".toList) "pool_1".toList 1) ∧
    (waitForVmsInPoolToStart upTogether 0 "pool_1".toList 1 false = false ∧
      ¬ WaitsForVms upTogether 0 "pool_1".toList 1 false) := by
  have hraised : (startVms (twoVms "down".toList) "pool_1".toList 1).raised =
      some .vmPoolException := by decide
  have hstarted : ∀ i, startedAt upTogether "pool_1".toList false i = if i = 0 then 0 else 2 := by
    intro i
    cases i with
    | zero => decide
    | succ i => rfl
  have hmissed : waitForVmsInPoolToStart upTogether 0 "pool_1".toList 1 false = false := by
    rw [Bool.eq_false_iff, ne_eq, waitForVmsInPoolToStart_iff]
    rintro ⟨i, -, hone⟩
    rw [hstarted] at hone
    split at hone
    · exact nomatch hone
    · exact nomatch hone
  refine ⟨⟨hraised, fun h => ?_⟩, hmissed, fun h => ?_⟩
  · exact absurd (h.raises.mp hraised) (by decide)
  · have htime : upTogether.InTime 0 1 := by
      intro j hj
      obtain rfl : j = 0 := by omega
      change (0 : ℚ≥0) + 0 ≤ 0 + upTogether.timeout
      rw [add_zero]
      exact zero_le
    have htrue := h.mpr ⟨1, htime, by rw [hstarted]; decide⟩
    exact nomatch hmissed.symm.trans htrue

end OvirtArt.TestsLib.VmPools
