import OvirtArt.CoreApi.PyText
import OvirtArt.CoreApi.SampledLoops
import OvirtArt.Foundation.Collecting
import OvirtArt.Foundation.Lists

set_option autoImplicit false

/-!
# `check_vms_after_migration` of `high_level/vms.py`

The host of each VM is sampled until it is another one than the source host, and the VM is waited
for.  The hosts that were seen are checked at the end.

Each VM has its own samples of its host, and its own outcome of the wait.
-/

namespace OvirtArt.TestsLib.VmsMigration

open OvirtArt.CoreApi OvirtArt.Foundation

/-- What the function can raise. -/
inductive MigrationException where
  /-- `TimeoutExpiredError` of `core_api/timeout.py`. -/
  | timeoutExpired
  /-- `APITimeout` of `core_api/apis_exceptions.py`. -/
  | apiTimeout
  | entityNotFound
  deriving DecidableEq, Repr

/-- How the body of the function is left before its end. -/
inductive Exit where
  | returns (value : Bool)
  | raises (e : MigrationException)
  deriving DecidableEq, Repr

/-- What is seen of a VM. -/
structure Vm where
  /-- What the calls of `vms.get_vm_host` return. -/
  getVmHost : Nat → Sample (Option Text)
  /-- `VM_API.find(vm)`, and then `VM_API.waitForElemStatus(vm_obj, "up", MIGRATION_TIMEOUT)`. -/
  up : Except MigrationException Bool
  /-- `vms.check_vm_connectivity`. -/
  connectivity : Except MigrationException Bool
  /-- The host that is reported once the VM has been seen up. -/
  hostOnceUp : Option Text

/-! ## The source -/

/-- `TimeoutingSampler(timeout=MIGRATION_TIMEOUT, sleep=1, func=vms.get_vm_host, vm_name=vm)`. -/
def hostSampler (vm : Vm) : TimeoutingSampler (Option Text) where
  timeout := (300 : Nat)
  sleep := 1
  sleep_pos := one_second_pos
  func := vm.getVmHost

/-- `timeout_exc_cls` of the sampler, which is that of `core_api/timeout.py`. -/
def timeoutExcCls : MigrationException := .timeoutExpired

/-- A check after which the function returns `False` if it fails. -/
def require : Except MigrationException Bool → Except Exit Unit
  | .ok true => .ok ⟨⟩
  | .ok false => .error (.returns false)
  | .error e => .error (.raises e)

section

variable (srcHost : Text) (dstHost : Option Text)

/-- The body of the loop over the sampler: a host other than the source host is kept. -/
def otherHost (sample : Option Text) : Option (Option Text) :=
  if sample ≠ some srcHost then some sample else none

/-- The loop over the sampler, with its `except APITimeout`. -/
def leaveSource (vm : Vm) : Except Exit (Option Text) :=
  match (hostSampler vm).forLoop 0 (stateless (otherHost srcHost)) ⟨⟩ with
  | some host => .ok host
  | none =>
    if timeoutExcCls = .apiTimeout then .error (.returns false)
    else .error (.raises timeoutExcCls)

/-- A round of the loop over the VMs: the host that is put into `vms_host`. -/
def checkVm (vm : Vm) : Except Exit (Option Text) := do
  let host ← leaveSource srcHost vm
  require vm.up
  require vm.connectivity
  return host

/-- The destination host, if it is given; an empty one counts as not given. -/
def given : Option Text := dstHost.filter fun host => !host.isEmpty

/-- The check of the hosts at the end. -/
def checkHosts (vmsHost : List (Option Text)) : Bool :=
  match given dstHost with
  | some dst => vmsHost.all fun host => host == some dst
  | none => vmsHost.all fun host => host != some srcHost

/-- What the caller gets: a value that is returned early, too. -/
def finished : Except Exit Bool → Except MigrationException Bool
  | .ok value => .ok value
  | .error (.returns value) => .ok value
  | .error (.raises e) => .error e

/-- `check_vms_after_migration`. -/
def checkVmsAfterMigration (vms : List Vm) : Except MigrationException Bool :=
  finished ((vms.mapM (checkVm srcHost)).map (checkHosts srcHost dstHost))

end

/-! ## What is asked of it -/

section

variable (srcHost : Text) (dstHost : Option Text)

/-- The VM is on another host than the source host, on the destination host if that is given. -/
def Migrated (vm : Vm) : Prop :=
  ∃ host, vm.hostOnceUp = some host ∧ host ≠ srcHost ∧ ∀ dst, given dstHost = some dst → host = dst

/-- No sample in time shows another host than the source host. -/
def Stays (vm : Vm) : Prop :=
  ∀ n, (hostSampler vm).InTime 0 n →
    (hostSampler vm).resultAt n = none ∨ (hostSampler vm).resultAt n = some srcHost

/-- The check returns `True` only if each VM has migrated, and returns `False` if one of them does
not leave the source host. -/
structure ChecksMigration (vms : List Vm) : Prop where
  moved : checkVmsAfterMigration srcHost dstHost vms = .ok true →
    ∀ vm ∈ vms, Migrated srcHost dstHost vm
  stayed : (∃ vm ∈ vms, Stays srcHost vm) → checkVmsAfterMigration srcHost dstHost vms = .ok false

/-! ## What decides -/

/-- All samples in time show the source host. -/
def Stuck (vm : Vm) : Prop :=
  ∀ n, (hostSampler vm).InTime 0 n → (hostSampler vm).resultAt n = some srcHost

/-- The first sample that does not show the source host shows this. -/
def FirstSeen (vm : Vm) (host : Option Text) : Prop :=
  ∃ n, (hostSampler vm).InTime 0 n ∧ (∀ i < n, (hostSampler vm).resultAt i = some srcHost) ∧
    (hostSampler vm).resultAt n = host ∧ host ≠ some srcHost

/-- A sample does not show the source host, and the VM is seen up and can be connected to. -/
def Passes (vm : Vm) : Prop := ¬ Stuck srcHost vm ∧ vm.up = .ok true ∧ vm.connectivity = .ok true

/-- The VM stays on the source host in all samples, or is not found. -/
def Raising (vm : Vm) : Prop :=
  Stuck srcHost vm ∨ (∃ e, vm.up = .error e) ∨ vm.up = .ok true ∧ ∃ e, vm.connectivity = .error e

/-- What is seen first is the destination host, if that is given. -/
def Accepted (vm : Vm) : Prop := ∀ dst, given dstHost = some dst → FirstSeen srcHost vm (some dst)

/-- If a VM stays on the source host, none that the check comes to raises; and if all pass, all are
where they are to be once they are up. -/
structure Reliable (vms : List Vm) : Prop where
  returns : (∃ vm ∈ vms, Stays srcHost vm) → ∀ before vm after, vms = before ++ vm :: after →
    (∀ other ∈ before, Passes srcHost other) → ¬ Raising srcHost vm
  hosts : (∀ vm ∈ vms, Passes srcHost vm ∧ Accepted srcHost dstHost vm) →
    ∀ vm ∈ vms, Migrated srcHost dstHost vm ∧ ¬ Stays srcHost vm

end

/-! ## One VM -/

section

variable {srcHost : Text} {dstHost : Option Text} {vm : Vm} {host : Option Text} {vms : List Vm}

theorem otherHost_eq_some_iff {sample : Option Text} :
    otherHost srcHost sample = some host ↔ sample = host ∧ host ≠ some srcHost := by
  unfold otherHost
  split
  · rename_i hne
    constructor
    · intro h
      obtain rfl : sample = host := Option.some.inj h
      exact ⟨rfl, hne⟩
    · rintro ⟨rfl, -⟩
      rfl
  · rename_i heq
    refine iff_of_false nofun ?_
    rintro ⟨rfl, hne⟩
    exact heq hne

theorem otherHost_eq_none_iff {sample : Option Text} :
    otherHost srcHost sample = none ↔ sample = some srcHost := by
  unfold otherHost
  split
  · rename_i hne
    exact iff_of_false nofun hne
  · rename_i heq
    exact iff_of_true rfl (not_not.mp heq)

theorem sampling_eq_some_iff :
    (hostSampler vm).forLoop 0 (stateless (otherHost srcHost)) ⟨⟩ = some host ↔
      FirstSeen srcHost vm host := by
  rw [TimeoutingSampler.forLoop_stateless_eq_some_iff]
  simp only [TimeoutingSampler.Reached, otherHost_eq_none_iff, otherHost_eq_some_iff, and_assoc]
  rfl

theorem sampling_eq_none_iff :
    (hostSampler vm).forLoop 0 (stateless (otherHost srcHost)) ⟨⟩ = none ↔ Stuck srcHost vm := by
  rw [TimeoutingSampler.forLoop_stateless_eq_none_iff]
  simp only [otherHost_eq_none_iff]
  rfl

theorem FirstSeen.not_stuck (h : FirstSeen srcHost vm host) : ¬ Stuck srcHost vm := by
  obtain ⟨n, htime, -, hseen, hne⟩ := h
  exact fun hstuck => hne (hseen.symm.trans (hstuck n htime))

theorem FirstSeen.unique {other : Option Text} (h : FirstSeen srcHost vm host)
    (hother : FirstSeen srcHost vm other) : host = other :=
  Option.some.inj ((sampling_eq_some_iff.mpr h).symm.trans (sampling_eq_some_iff.mpr hother))

theorem exists_firstSeen (h : ¬ Stuck srcHost vm) : ∃ host, FirstSeen srcHost vm host := by
  cases hloop : (hostSampler vm).forLoop 0 (stateless (otherHost srcHost)) ⟨⟩ with
  | none => exact absurd (sampling_eq_none_iff.mp hloop) h
  | some host => exact ⟨host, sampling_eq_some_iff.mp hloop⟩

/-- A sampling that times out is not caught. -/
theorem leaveSource_of_stuck (h : Stuck srcHost vm) :
    leaveSource srcHost vm = .error (.raises .timeoutExpired) := by
  rw [leaveSource, sampling_eq_none_iff.mpr h]
  exact if_neg nofun

theorem leaveSource_of_firstSeen (h : FirstSeen srcHost vm host) :
    leaveSource srcHost vm = .ok host := by
  rw [leaveSource, sampling_eq_some_iff.mpr h]

/-- A round raises, returns `False`, or keeps the host that was seen first. -/
theorem checkVm_cases (srcHost : Text) (vm : Vm) :
    (Raising srcHost vm ∧ ∃ e, checkVm srcHost vm = .error (.raises e)) ∨
    (¬ Raising srcHost vm ∧ ¬ Passes srcHost vm ∧
      checkVm srcHost vm = .error (.returns false)) ∨
    (¬ Raising srcHost vm ∧ Passes srcHost vm ∧
      ∃ host, FirstSeen srcHost vm host ∧ checkVm srcHost vm = .ok host) := by
  by_cases hstuck : Stuck srcHost vm
  · refine .inl ⟨.inl hstuck, .timeoutExpired, ?_⟩
    rw [checkVm, leaveSource_of_stuck hstuck]
    rfl
  obtain ⟨host, hseen⟩ := exists_firstSeen hstuck
  unfold checkVm Raising Passes
  rw [leaveSource_of_firstSeen hseen]
  cases hup : vm.up with
  | error e => exact .inl ⟨.inr (.inl ⟨e, rfl⟩), e, rfl⟩
  | ok up =>
    cases up with
    | false =>
      refine .inr (.inl ⟨?_, (fun h => nomatch h.2.1), rfl⟩)
      rintro (h | ⟨e, h⟩ | ⟨h, -⟩)
      · exact hstuck h
      · exact nomatch h
      · exact nomatch h
    | true =>
      cases hconnectivity : vm.connectivity with
      | error e => exact .inl ⟨.inr (.inr ⟨rfl, e, rfl⟩), e, rfl⟩
      | ok connected =>
        have hraising : ¬ (Stuck srcHost vm ∨
            (∃ e, (.ok true : Except MigrationException Bool) = .error e) ∨
            (.ok true : Except MigrationException Bool) = .ok true ∧
              ∃ e, (.ok connected : Except MigrationException Bool) = .error e) := by
          rintro (h | ⟨e, h⟩ | ⟨-, e, h⟩)
          · exact hstuck h
          · exact nomatch h
          · exact nomatch h
        cases connected with
        | false => exact .inr (.inl ⟨hraising, (fun h => nomatch h.2.2), rfl⟩)
        | true => exact .inr (.inr ⟨hraising, ⟨hstuck, rfl, rfl⟩, host, hseen, rfl⟩)

theorem checkVm_eq_ok_iff : checkVm srcHost vm = .ok host ↔
    Passes srcHost vm ∧ FirstSeen srcHost vm host := by
  rcases checkVm_cases srcHost vm with
    ⟨hraising, e, h⟩ | ⟨-, hnot, h⟩ | ⟨-, hpasses, other, hseen, h⟩
  · rw [h]
    refine iff_of_false nofun ?_
    rintro ⟨⟨hstuck, hup, hconnectivity⟩, -⟩
    rcases hraising with hstuck' | ⟨e, he⟩ | ⟨-, e, he⟩
    · exact hstuck hstuck'
    · exact nomatch hup.symm.trans he
    · exact nomatch hconnectivity.symm.trans he
  · rw [h]
    exact iff_of_false nofun fun hboth => hnot hboth.1
  · rw [h]
    constructor
    · intro heq
      obtain rfl : other = host := Except.ok.inj heq
      exact ⟨hpasses, hseen⟩
    · rintro ⟨-, hhost⟩
      rw [hseen.unique hhost]

theorem checkVm_raises_iff :
    (∃ e, checkVm srcHost vm = .error (.raises e)) ↔ Raising srcHost vm := by
  rcases checkVm_cases srcHost vm with ⟨hraising, h⟩ | ⟨hnot, -, h⟩ | ⟨hnot, -, host, -, h⟩
  · exact iff_of_true h hraising
  · refine iff_of_false ?_ hnot
    rintro ⟨e, he⟩
    exact nomatch h.symm.trans he
  · refine iff_of_false ?_ hnot
    rintro ⟨e, he⟩
    exact nomatch h.symm.trans he

theorem eq_false_of_checkVm_returns {value : Bool}
    (h : checkVm srcHost vm = .error (.returns value)) : value = false := by
  rcases checkVm_cases srcHost vm with ⟨-, e, he⟩ | ⟨-, -, he⟩ | ⟨-, -, host, -, he⟩
  · exact nomatch he.symm.trans h
  · exact (Exit.returns.inj (Except.error.inj (he.symm.trans h))).symm
  · exact nomatch he.symm.trans h

/-! ## All VMs -/

theorem passes_iff_exists_checkVm :
    (∃ host, checkVm srcHost vm = .ok host) ↔ Passes srcHost vm := by
  constructor
  · rintro ⟨host, h⟩
    exact (checkVm_eq_ok_iff.mp h).1
  · intro h
    obtain ⟨host, hseen⟩ := exists_firstSeen h.1
    exact ⟨host, checkVm_eq_ok_iff.mpr ⟨h, hseen⟩⟩

/-- What was seen first passes the check at the end exactly if each of the VMs is accepted. -/
theorem checkHosts_iff {vmsHost : List (Option Text)}
    (h : List.Forall₂ (fun vm host => checkVm srcHost vm = .ok host) vms vmsHost) :
    checkHosts srcHost dstHost vmsHost = true ↔ ∀ vm ∈ vms, Accepted srcHost dstHost vm := by
  unfold checkHosts Accepted
  cases hgiven : given dstHost with
  | none =>
    refine iff_of_true (List.all_eq_true.mpr fun host hhost => ?_)
      fun vm _ dst hdst => absurd hdst.symm (Option.some_ne_none dst)
    obtain ⟨vm, -, hvm⟩ := exists_left_of_forall₂ h hhost
    obtain ⟨n, -, -, -, hne⟩ := (checkVm_eq_ok_iff.mp hvm).2
    exact bne_iff_ne.mpr hne
  | some dst =>
    constructor
    · intro hall vm hvm dst' hdst'
      obtain rfl := Option.some.inj hdst'
      obtain ⟨host, hhost, hcheck⟩ := exists_right_of_forall₂ h hvm
      obtain rfl := beq_iff_eq.mp (List.all_eq_true.mp hall host hhost)
      exact (checkVm_eq_ok_iff.mp hcheck).2
    · intro hall
      refine List.all_eq_true.mpr fun host hhost => beq_iff_eq.mpr ?_
      obtain ⟨vm, hvm, hcheck⟩ := exists_left_of_forall₂ h hhost
      exact (checkVm_eq_ok_iff.mp hcheck).2.unique (hall vm hvm dst rfl)

theorem checkVmsAfterMigration_eq_true_iff :
    checkVmsAfterMigration srcHost dstHost vms = .ok true ↔
      ∀ vm ∈ vms, Passes srcHost vm ∧ Accepted srcHost dstHost vm := by
  unfold checkVmsAfterMigration
  cases hloop : vms.mapM (checkVm srcHost) with
  | error exit =>
    obtain ⟨before, vm, after, rfl, -, hvm⟩ := mapM_eq_error_iff.mp hloop
    refine iff_of_false (fun h => ?_) fun h => ?_
    · cases exit with
      | raises e => exact nomatch h
      | returns value =>
        rw [eq_false_of_checkVm_returns hvm] at h
        exact nomatch h
    · have hpasses := (h vm (List.mem_append_right _ List.mem_cons_self)).1
      obtain ⟨host, hhost⟩ := passes_iff_exists_checkVm.mpr hpasses
      exact nomatch hhost.symm.trans hvm
  | ok vmsHost =>
    have hall := mapM_eq_ok_iff.mp hloop
    have hpasses : ∀ vm ∈ vms, Passes srcHost vm := by
      intro vm hvm
      obtain ⟨host, -, hcheck⟩ := exists_right_of_forall₂ hall hvm
      exact (checkVm_eq_ok_iff.mp hcheck).1
    change (Except.ok (checkHosts srcHost dstHost vmsHost) = _) ↔ _
    rw [Except.ok.injEq, checkHosts_iff hall]
    exact ⟨fun h vm hvm => ⟨hpasses vm hvm, h vm hvm⟩, fun h vm hvm => (h vm hvm).2⟩

theorem checkVmsAfterMigration_raises_iff :
    (∃ e, checkVmsAfterMigration srcHost dstHost vms = .error e) ↔
      ∃ before vm after, vms = before ++ vm :: after ∧
        (∀ other ∈ before, Passes srcHost other) ∧ Raising srcHost vm := by
  unfold checkVmsAfterMigration
  constructor
  · rintro ⟨e, h⟩
    cases hloop : vms.mapM (checkVm srcHost) with
    | ok vmsHost =>
      rw [hloop] at h
      exact nomatch h
    | error exit =>
      obtain ⟨before, vm, after, heq, hbefore, hvm⟩ := mapM_eq_error_iff.mp hloop
      rw [hloop] at h
      cases exit with
      | returns value => exact nomatch h
      | raises e =>
        refine ⟨before, vm, after, heq, fun other hother => ?_, checkVm_raises_iff.mp ⟨e, hvm⟩⟩
        exact passes_iff_exists_checkVm.mp (hbefore other hother)
  · rintro ⟨before, vm, after, heq, hbefore, hraising⟩
    obtain ⟨e, he⟩ := checkVm_raises_iff.mpr hraising
    have hloop : vms.mapM (checkVm srcHost) = .error (.raises e) :=
      mapM_eq_error_iff.mpr ⟨before, vm, after, heq,
        fun other hother => passes_iff_exists_checkVm.mpr (hbefore other hother), he⟩
    rw [hloop]
    exact ⟨e, rfl⟩

end

/-- The check of the migration is right exactly if none of the VMs that it comes to raises while one
of them stays on the source host, and those that pass are where they are to be once they are up. -/
theorem checks_migration_iff (srcHost : Text) (dstHost : Option Text) (vms : List Vm) :
    ChecksMigration srcHost dstHost vms ↔ Reliable srcHost dstHost vms := by
  constructor
  · rintro ⟨hmoved, hstayed⟩
    refine ⟨fun hstays before vm after heq hbefore hraising => ?_, fun hall vm hvm => ?_⟩
    · obtain ⟨e, he⟩ := checkVmsAfterMigration_raises_iff.mpr
        ⟨before, vm, after, heq, hbefore, hraising⟩
      exact nomatch (hstayed hstays).symm.trans he
    · have htrue := checkVmsAfterMigration_eq_true_iff.mpr hall
      refine ⟨hmoved htrue vm hvm, fun hstays => ?_⟩
      exact nomatch htrue.symm.trans (hstayed ⟨vm, hvm, hstays⟩)
  · rintro ⟨hreturns, hhosts⟩
    refine ⟨fun htrue vm hvm => ?_, fun hstays => ?_⟩
    · exact (hhosts (checkVmsAfterMigration_eq_true_iff.mp htrue) vm hvm).1
    · cases hresult : checkVmsAfterMigration srcHost dstHost vms with
      | error e =>
        obtain ⟨before, vm, after, heq, hbefore, hraising⟩ :=
          checkVmsAfterMigration_raises_iff.mp ⟨e, hresult⟩
        exact absurd hraising (hreturns hstays before vm after heq hbefore)
      | ok value =>
        cases value with
        | false => rfl
        | true =>
          obtain ⟨vm, hvm, hstay⟩ := hstays
          exact absurd hstay
            (hhosts (checkVmsAfterMigration_eq_true_iff.mp hresult) vm hvm).2

/-- A VM that is on the source host at all times. -/
def neverLeaves : Vm where
  getVmHost _ := { result := some "host_1".toList, duration := 0 }
  up := .ok true
  connectivity := .ok true
  hostOnceUp := some "host_1".toList

/-- A VM that has no host for a moment, and is on the source host after that. -/
def comesBack : Vm where
  getVmHost i := { result := if i = 0 then none else some "host_1".toList, duration := 0 }
  up := .ok true
  connectivity := .ok true
  hostOnceUp := some "host_1".toList

/-- A VM that does not leave the source host raises, and one that has no host for a moment counts
as migrated. -/
theorem never_leaving_raises_and_coming_back_counts :
    (checkVmsAfterMigration "host_1".toList none [neverLeaves] = .error .timeoutExpired ∧
      ¬ ChecksMigration "host_1".toList none [neverLeaves]) ∧
    (checkVmsAfterMigration "host_1".toList none [comesBack] = .ok true ∧
      ¬ ChecksMigration "host_1".toList none [comesBack]) := by
  have hstuck : Stuck "host_1".toList neverLeaves := fun _ _ => rfl
  have hraises : checkVmsAfterMigration "host_1".toList none [neverLeaves] =
      .error .timeoutExpired := by
    rw [checkVmsAfterMigration, List.mapM_cons, checkVm, leaveSource_of_stuck hstuck]
    rfl
  have hseen : FirstSeen "host_1".toList comesBack none :=
    ⟨0, TimeoutingSampler.inTime_zero _ _, nofun, rfl, nofun⟩
  have htrue : checkVmsAfterMigration "host_1".toList none [comesBack] = .ok true := by
    refine checkVmsAfterMigration_eq_true_iff.mpr (List.forall_mem_singleton.mpr ?_)
    exact ⟨⟨hseen.not_stuck, rfl, rfl⟩, nofun⟩
  refine ⟨⟨hraises, fun h => ?_⟩, htrue, fun h => ?_⟩
  · have hstays : Stays "host_1".toList neverLeaves := fun _ _ => .inr rfl
    exact nomatch hraises.symm.trans (h.stayed ⟨_, List.mem_cons_self, hstays⟩)
  · obtain ⟨host, hhost, hne, -⟩ := h.moved htrue comesBack List.mem_cons_self
    exact hne (Option.some.inj hhost).symm

end OvirtArt.TestsLib.VmsMigration
