import OvirtArt.TestsLib.DisksStatus

set_option autoImplicit false

/-!
# `do_disk_action` of `low_level/disks.py`

A disk is copied or moved to another storage domain, and the disks of that domain are sampled.  The
last statement of the loop over the samples leaves it, so that one sample decides.

The samples are any lists of disks with names, ids and statuses.  The time between them is that of
the sampler.
-/

namespace OvirtArt.TestsLib.DiskAction

open OvirtArt.CoreApi
open OvirtArt.TestsLib.DisksStatus (Disk)

/-- The actions on a disk. -/
inductive Action where
  | copy
  | move
  deriving DecidableEq, Repr

/-- What a call of `do_disk_action` may raise. -/
inductive ActionException where
  | valueError (message : Text)
  | entityNotFound
  | apiTimeout
  deriving DecidableEq, Repr

/-- `ENUMS['disk_state_ok']`. -/
def diskStateOk : Text := "ok".toList

/-- The arguments, without those of the sampler. -/
structure ActionArgs where
  diskName : Option Text
  targetDomain : Text
  diskId : Option Text
  wait : Bool
  positive : Bool
  newDiskAlias : Option Text

/-- What the engine answers before the domain is sampled. -/
structure Engine where
  /-- `STORAGE_DOMAIN_API.find`. -/
  findStorageDomain : Text → Except ActionException Unit
  /-- `DISKS_API.find` with `attribute='id'`. -/
  findDiskById : Text → Except ActionException Disk
  /-- `DISKS_API.find`. -/
  findDisk : Text → Except ActionException Disk
  /-- `DISKS_API.syncAction`, with the alias of `disk=` if there is one. -/
  syncAction : Action → Disk → Text → Bool → Option Text → Except ActionException Bool

/-! ## The source -/

/-- The disk that is asked for. -/
def requestedDisk (engine : Engine) (args : ActionArgs) : Except ActionException Disk :=
  if Text.truthy args.diskId then engine.findDiskById (args.diskId.getD [])
  else if Text.truthy args.diskName then engine.findDisk (args.diskName.getD [])
  else .error (.valueError "Either specify disk_id or disk_name".toList)

/-- The alias of `updated_disk_alias`. -/
def updatedDiskAlias (action : Action) (args : ActionArgs) : Option Text :=
  if Text.truthy args.newDiskAlias && action == .copy then args.newDiskAlias else none

/-- The disk of the domain for which `True` is returned. -/
def targetDiskDone (action : Action) (disk targetDisk : Disk) : Bool :=
  match action with
  | .move => disk.id == targetDisk.id && targetDisk.status == diskStateOk
  | .copy => targetDisk.status == diskStateOk

/-- The body of the loop over the samples.  Its `return False` stands after the loop over the disks
and still in that over the samples. -/
def sampleVerdict (action : Action) (disk : Disk) : List Disk → Option Bool
  | [] => some false
  | targetDisk :: sample =>
    if targetDiskDone action disk targetDisk then some true
    else sampleVerdict action disk sample

/-- `do_disk_action`, whose loop begins at `clock`; the sampler calls `getStorageDomainDisks`. -/
def doDiskAction (engine : Engine) (clock : ℚ≥0) (sampler : TimeoutingSampler (List Disk))
    (action : Action) (args : ActionArgs) : Except ActionException Bool := do
  engine.findStorageDomain args.targetDomain
  let disk ← requestedDisk engine args
  let accepted ← engine.syncAction action disk args.targetDomain args.positive
    (updatedDiskAlias action args)
  if !accepted then return false
  else if args.wait && args.positive then
    match sampler.forLoop clock (stateless (sampleVerdict action disk)) ⟨⟩ with
    | some status => return status
    | none => throw .apiTimeout
  else return true

/-! ## What the samples show -/

/-- The request is sent for this disk and accepted, and a success is waited for. -/
structure Accepted (engine : Engine) (action : Action) (args : ActionArgs) (disk : Disk) :
    Prop where
  domain : engine.findStorageDomain args.targetDomain = .ok ()
  found : requestedDisk engine args = .ok disk
  accepted : engine.syncAction action disk args.targetDomain args.positive
    (updatedDiskAlias action args) = .ok true
  wait : args.wait = true
  positive : args.positive = true

section

variable (action : Action) (disk : Disk) (before contents : List Disk)

/-- The contents of the domain have a disk for which the action is done. -/
def Done : Prop := ∃ targetDisk ∈ contents, targetDiskDone action disk targetDisk = true

/-- Some contents before the timeout have such a disk. -/
def SeenDone (clock : ℚ≥0) (sampler : TimeoutingSampler (List Disk)) : Prop :=
  ∃ n, sampler.InTime clock n ∧ Done action disk (sampler.resultAt n)

/-- The disk was in the domain with the status `ok` before the request. -/
def wasOk (targetDisk : Disk) : Bool :=
  before.any fun other => other.id == targetDisk.id && other.status == diskStateOk

/-- The samples without the disks that were there with the status `ok`. -/
def withoutOld (sampler : TimeoutingSampler (List Disk)) : TimeoutingSampler (List Disk) :=
  { sampler with
    func := fun i =>
      { result := (sampler.resultAt i).filter fun targetDisk => !wasOk before targetDisk
        duration := (sampler.func i).duration } }

/-- The wait is for the disk itself: a move returns whether some sample shows it, and a copy that
succeeds would do so without the disks that were there. -/
def WaitsForItsDisk (engine : Engine) (clock : ℚ≥0) (sampler : TimeoutingSampler (List Disk))
    (args : ActionArgs) : Prop :=
  match action with
  | .move =>
    (doDiskAction engine clock sampler .move args = .ok true ↔
      SeenDone .move disk clock sampler) ∧
    (¬ SeenDone .move disk clock sampler →
      doDiskAction engine clock sampler .move args = .ok false)
  | .copy =>
    doDiskAction engine clock sampler .copy args = .ok true →
      doDiskAction engine clock (withoutOld before sampler) .copy args = .ok true

/-- The first sample is enough: it shows the moved disk if any does, and not only old disks. -/
def FirstSampleDecides (clock : ℚ≥0) (sampler : TimeoutingSampler (List Disk)) : Prop :=
  match action with
  | .move => SeenDone .move disk clock sampler → Done .move disk (sampler.resultAt 0)
  | .copy => Done .copy disk (sampler.resultAt 0) →
      ∃ targetDisk ∈ sampler.resultAt 0,
        targetDisk.status = diskStateOk ∧ wasOk before targetDisk = false

end

section

variable {engine : Engine} {clock : ℚ≥0} {sampler : TimeoutingSampler (List Disk)}
  {action : Action} {args : ActionArgs} {disk : Disk} {before contents : List Disk}

theorem sampleVerdict_eq : ∃ status, sampleVerdict action disk contents = some status ∧
    (status = true ↔ Done action disk contents) := by
  induction contents with
  | nil => exact ⟨false, rfl, iff_of_false nofun fun h => List.not_mem_nil h.choose_spec.1⟩
  | cons targetDisk contents ih =>
    obtain ⟨status, hverdict, hstatus⟩ := ih
    cases hdone : targetDiskDone action disk targetDisk with
    | true =>
      refine ⟨true, by rw [sampleVerdict, hdone, if_pos rfl], iff_of_true rfl ?_⟩
      exact ⟨targetDisk, List.mem_cons_self, hdone⟩
    | false =>
      refine ⟨status, by rw [sampleVerdict, hdone, if_neg nofun, hverdict], ?_⟩
      rw [hstatus]
      constructor
      · rintro ⟨other, hmem, hother⟩
        exact ⟨other, List.mem_cons_of_mem _ hmem, hother⟩
      · rintro ⟨other, hmem, hother⟩
        rcases List.mem_cons.mp hmem with rfl | hrest
        · exact nomatch hdone.symm.trans hother
        · exact ⟨other, hrest, hother⟩

/-- The loop is left in its first round. -/
theorem forLoop_sampleVerdict :
    sampler.forLoop clock (stateless (sampleVerdict action disk)) ⟨⟩ =
      sampleVerdict action disk (sampler.resultAt 0) := by
  obtain ⟨status, hverdict, -⟩ := @sampleVerdict_eq action disk (sampler.resultAt 0)
  rw [hverdict, TimeoutingSampler.forLoop_stateless_eq_some_iff]
  refine ⟨0, ⟨TimeoutingSampler.inTime_zero sampler clock, ?_⟩, hverdict⟩
  exact fun i hi => absurd hi (Nat.not_lt_zero i)

/-- After an accepted request the result is what the first sample shows. -/
theorem doDiskAction_eq (h : Accepted engine action args disk) :
    ∃ status, doDiskAction engine clock sampler action args = .ok status ∧
      (status = true ↔ Done action disk (sampler.resultAt 0)) := by
  obtain ⟨status, hverdict, hstatus⟩ := @sampleVerdict_eq action disk (sampler.resultAt 0)
  refine ⟨status, ?_, hstatus⟩
  unfold doDiskAction
  rw [h.domain, h.found]
  change (engine.syncAction action disk args.targetDomain args.positive
    (updatedDiskAlias action args)).bind _ = _
  rw [h.accepted, h.wait, h.positive, forLoop_sampleVerdict, hverdict]
  rfl

theorem doDiskAction_eq_ok_true_iff (h : Accepted engine action args disk) :
    doDiskAction engine clock sampler action args = .ok true ↔
      Done action disk (sampler.resultAt 0) := by
  obtain ⟨status, hresult, hstatus⟩ := @doDiskAction_eq engine clock sampler action args disk h
  rw [hresult, Except.ok.injEq, hstatus]

theorem done_withoutOld_iff :
    Done .copy disk ((withoutOld before sampler).resultAt 0) ↔
      ∃ targetDisk ∈ sampler.resultAt 0,
        targetDisk.status = diskStateOk ∧ wasOk before targetDisk = false := by
  unfold Done withoutOld
  refine exists_congr fun targetDisk => ?_
  change targetDisk ∈ List.filter _ (sampler.resultAt 0) ∧ _ ↔ _
  rw [List.mem_filter, targetDiskDone, beq_iff_eq, Bool.not_eq_true', and_assoc]
  exact and_congr_right fun _ => and_comm

end

/-- `do_disk_action` waits for its own disk exactly if the first sample is enough. -/
theorem doDiskAction_waits_iff (engine : Engine) (clock : ℚ≥0)
    (sampler : TimeoutingSampler (List Disk)) (action : Action) (args : ActionArgs)
    (disk : Disk) (before : List Disk) (h : Accepted engine action args disk) :
    WaitsForItsDisk action disk before engine clock sampler args ↔
      FirstSampleDecides action disk before clock sampler := by
  cases action with
  | move =>
    obtain ⟨status, hresult, hstatus⟩ := @doDiskAction_eq engine clock sampler _ args disk h
    change (_ ↔ _) ∧ _ ↔ (_ → _)
    rw [hresult, Except.ok.injEq, hstatus]
    constructor
    · exact fun hlaw => hlaw.1.mpr
    · intro hfirst
      refine ⟨⟨fun hdone => ?_, hfirst⟩, fun hnone => ?_⟩
      · exact ⟨0, TimeoutingSampler.inTime_zero sampler clock, hdone⟩
      · cases hcase : status with
        | false => rfl
        | true =>
          have hdone := hstatus.mp hcase
          exact absurd ⟨0, TimeoutingSampler.inTime_zero sampler clock, hdone⟩ hnone
  | copy =>
    change (_ → _) ↔ (_ → _)
    rw [doDiskAction_eq_ok_true_iff h, doDiskAction_eq_ok_true_iff h, done_withoutOld_iff]

/-- An engine that knows one disk and accepts what it is asked for. -/
def readyEngine (disk : Disk) : Engine where
  findStorageDomain := fun _ => .ok ()
  findDiskById := fun _ => .ok disk
  findDisk := fun _ => .ok disk
  syncAction := fun _ _ _ _ _ => .ok true

/-- A disk with this status. -/
def diskInState (status : String) : Disk where
  name := "data".toList
  id := "d1".toList
  status := status.toList

/-- The arguments of a move. -/
def moveArgs : ActionArgs where
  diskName := some "data".toList
  targetDomain := "nfs_1".toList
  diskId := none
  wait := true
  positive := true
  newDiskAlias := none

/-- The disk is locked in the first sample, and `ok` in all others. -/
def lockedThenOk : TimeoutingSampler (List Disk) where
  timeout := (300 : Nat)
  sleep := (10 : Nat)
  sleep_pos := ten_seconds_pos
  func := fun n =>
    { result := [diskInState (if n = 0 then "locked" else "ok")]
      duration := 0 }

theorem accepted_move : Accepted (readyEngine (diskInState "ok")) .move moveArgs
    (diskInState "ok") where
  domain := rfl
  found := rfl
  accepted := rfl
  wait := rfl
  positive := rfl

theorem doDiskAction_waits_iff_of_lockedThenOk :
    WaitsForItsDisk .move (diskInState "ok") [] (readyEngine (diskInState "ok")) 0 lockedThenOk
        moveArgs ↔
      FirstSampleDecides .move (diskInState "ok") [] 0 lockedThenOk :=
  doDiskAction_waits_iff _ 0 lockedThenOk .move moveArgs _ [] accepted_move

/-- The moved disk is `ok` in the second sample, and `False` is returned. -/
theorem moved_disk_locked_at_first :
    Accepted (readyEngine (diskInState "ok")) .move moveArgs (diskInState "ok") ∧
      SeenDone .move (diskInState "ok") 0 lockedThenOk ∧
      doDiskAction (readyEngine (diskInState "ok")) 0 lockedThenOk .move moveArgs ≠ .ok true := by
  refine ⟨accepted_move, ⟨1, fun j hj => ?_, diskInState "ok", ?_, ?_⟩, ?_⟩
  · obtain rfl := Nat.lt_one_iff.mp hj
    change (0 : ℚ≥0) + 0 ≤ 0 + (300 : Nat)
    rw [add_zero]
    exact zero_le
  · exact List.mem_singleton.mpr rfl
  · decide
  · rw [Ne, doDiskAction_eq_ok_true_iff accepted_move]
    rintro ⟨targetDisk, hmem, hdone⟩
    obtain rfl := List.mem_singleton.mp hmem
    exact absurd hdone (by decide)

end OvirtArt.TestsLib.DiskAction
