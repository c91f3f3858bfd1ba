import OvirtArt.CoreApi.PyText
import OvirtArt.CoreApi.SampledLoops

set_option autoImplicit false

/-!
# `removeDisk` of `low_level/vms.py`

A disk of a VM is deleted, and the disks of the VM are polled until it is not among them.  The list
of the disks is an argument of the sampler, and so is evaluated before the loop.

Of a disk its name and id are modelled, and of the request to delete it whether it is accepted.
-/

namespace OvirtArt.TestsLib.RemoveDisk

open OvirtArt.CoreApi

/-- What is read of a disk. -/
structure Disk where
  id : Text
  name : Text
  deriving DecidableEq, Repr

/-- `APITimeout`, which the sampler raises. -/
inductive RemoveException where
  | apiTimeout
  deriving DecidableEq, Repr

/-! ## The source -/

/-- `VM_IMAGE_OPT_TIMEOUT`. -/
def vmImageOptTimeout : ℚ≥0 := (900 : Nat)

/-- `VM_SAMPLING_PERIOD`. -/
def vmSamplingPeriod : ℚ≥0 := (3 : Nat)

theorem vmSamplingPeriod_pos : 0 < vmSamplingPeriod := by
  unfold vmSamplingPeriod
  norm_num

section

variable (disk diskId : Option Text)

/-- `does_disk_exist`: the first disk with the id or, if there is none, with the name. -/
def doesDiskExist (diskList : List Disk) : Option Disk :=
  diskList.find? fun diskObject =>
    if Text.truthy diskId then diskObject.id == diskId.getD []
    else Text.truthy disk && diskObject.name == disk.getD []

/-- The sampler, which is given the list that is reported first.  The lists are those that
`getVmDisks` would return at each of its polls. -/
def removalSampler (reported : Nat → Sample (List Disk)) : TimeoutingSampler (Option Disk) where
  timeout := vmImageOptTimeout
  sleep := vmSamplingPeriod
  sleep_pos := vmSamplingPeriod_pos
  func := fun i =>
    { result := doesDiskExist disk diskId (reported 0).result
      duration := (reported i).duration }

/-- `if not disk_obj: return True`. -/
def removed : Option Disk → Option Bool
  | none => some true
  | some _ => none

/-- `removeDisk`, whose loop begins at `clock`, with the disks of the VM before the delete and those
that are reported after it. -/
def removeDisk (clock : ℚ≥0) (positive wait : Bool) (disks : List Disk) (delete : Disk → Bool)
    (reported : Nat → Sample (List Disk)) : Except RemoveException Bool :=
  match doesDiskExist disk diskId disks with
  | none => .ok false
  | some diskObj =>
    if positive && delete diskObj && wait then
      match (removalSampler disk diskId reported).forLoop clock (stateless removed) ⟨⟩ with
      | some status => .ok status
      | none => .error .apiTimeout
    else .ok (delete diskObj)

/-- Some list that is reported before the timeout does not have the disk. -/
def SeenRemoved (clock : ℚ≥0) (reported : Nat → Sample (List Disk)) : Prop :=
  ∃ n, (removalSampler disk diskId reported).InTime clock n ∧
    doesDiskExist disk diskId (reported n).result = none

end

section

variable {disk diskId : Option Text} {clock : ℚ≥0} {disks : List Disk} {delete : Disk → Bool}
  {reported : Nat → Sample (List Disk)} {diskObj : Disk}

/-- The loop is left exactly if the list that is reported first does not have the disk. -/
theorem forLoop_removed_iff :
    (removalSampler disk diskId reported).forLoop clock (stateless removed) ⟨⟩ = some true ↔
      doesDiskExist disk diskId (reported 0).result = none := by
  have hconstant : ∀ result other, removed result = some other → other = true := by
    intro result other h
    cases result with
    | none => exact (Option.some.inj h).symm
    | some found => exact nomatch h
  rw [TimeoutingSampler.forLoop_constant_eq_some_iff hconstant]
  change (∃ n, _ ∧ removed (doesDiskExist disk diskId (reported 0).result) = some true) ↔ _
  cases doesDiskExist disk diskId (reported 0).result with
  | none => exact iff_of_true ⟨0, TimeoutingSampler.inTime_zero _ _, rfl⟩ rfl
  | some found =>
    refine iff_of_false ?_ nofun
    rintro ⟨n, -, h⟩
    exact nomatch h

/-- With the delete accepted, the result is that of the loop. -/
theorem removeDisk_eq_ok_iff (hdisk : doesDiskExist disk diskId disks = some diskObj)
    (haccepted : delete diskObj = true) :
    removeDisk disk diskId clock true true disks delete reported = .ok true ↔
      doesDiskExist disk diskId (reported 0).result = none := by
  rw [← @forLoop_removed_iff disk diskId clock reported]
  unfold removeDisk
  rw [hdisk]
  simp only [haccepted, Bool.and_self, if_true]
  cases (removalSampler disk diskId reported).forLoop clock (stateless removed) ⟨⟩ with
  | none => exact iff_of_false nofun nofun
  | some status => exact (Except.ok.injEq status true ▸ Option.some_inj.symm)

end

/-- `removeDisk` waits for the disk exactly if the list that is reported first does not have it any
more, or no list before the timeout is without it. -/
theorem removeDisk_waits_iff (disk diskId : Option Text) (clock : ℚ≥0) (disks : List Disk)
    (diskObj : Disk) (delete : Disk → Bool) (reported : Nat → Sample (List Disk))
    (hdisk : doesDiskExist disk diskId disks = some diskObj) (haccepted : delete diskObj = true) :
    (removeDisk disk diskId clock true true disks delete reported = .ok true ↔
        SeenRemoved disk diskId clock reported) ↔
      (SeenRemoved disk diskId clock reported →
        doesDiskExist disk diskId (reported 0).result = none) := by
  rw [removeDisk_eq_ok_iff hdisk haccepted]
  constructor
  · exact fun h => h.mpr
  · intro h
    exact ⟨fun hfirst => ⟨0, TimeoutingSampler.inTime_zero _ _, hfirst⟩, h⟩

/-- A disk. -/
def dataDisk : Disk where
  id := "d1".toList
  name := "data".toList

/-- The disk is reported once more, and then no disk. -/
def reportedOnceMore (n : Nat) : Sample (List Disk) where
  result := if n = 0 then [dataDisk] else []
  duration := 0

theorem removeDisk_of_dataDisk :
    (removeDisk (some "data".toList) none 0 true true [dataDisk] (fun _ => true)
        reportedOnceMore = .ok true ↔
      SeenRemoved (some "data".toList) none 0 reportedOnceMore) ↔
    (SeenRemoved (some "data".toList) none 0 reportedOnceMore →
      doesDiskExist (some "data".toList) none (reportedOnceMore 0).result = none) :=
  removeDisk_waits_iff (some "data".toList) none 0 [dataDisk] dataDisk (fun _ => true)
    reportedOnceMore rfl rfl

/-- The disk is gone at the second poll, and `removeDisk` runs into the timeout. -/
theorem disk_gone_at_second_poll :
    SeenRemoved (some "data".toList) none 0 reportedOnceMore ∧
      removeDisk (some "data".toList) none 0 true true [dataDisk] (fun _ => true)
        reportedOnceMore ≠ .ok true := by
  constructor
  · refine ⟨1, fun j hj => ?_, rfl⟩
    obtain rfl := Nat.lt_one_iff.mp hj
    change (0 : ℚ≥0) + 0 ≤ 0 + vmImageOptTimeout
    rw [add_zero]
    exact zero_le
  · intro h
    exact nomatch (@removeDisk_eq_ok_iff (some "data".toList) none 0 [dataDisk] (fun _ => true)
      reportedOnceMore dataDisk rfl rfl).mp h

end OvirtArt.TestsLib.RemoveDisk
