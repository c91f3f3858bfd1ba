import OvirtArt.CoreApi.FindEntity
import OvirtArt.TestsLib.VmPayloads

set_option autoImplicit false

/-!
# Looking up snapshots in `low_level/vms.py`

`_getVmSnapshot` returns `None` where a VM has no snapshot of a description.  `validateSnapshot`,
`addSnapshot` and the builder of a VM wait for `EntityNotFound` instead, which is raised only where
the VM itself is not found.

Of a VM its snapshots are modelled, each with its description and the ids of its disks.  Waits are
taken as their outcomes.
-/

namespace OvirtArt.TestsLib.VmSnapshots

open OvirtArt.CoreApi OvirtArt.Foundation
open OvirtArt.TestsLib.VmBuilder (BuilderException Settings VmKwargs)

/-- What is read of a snapshot. -/
structure Snapshot where
  id : Text
  description : Option Text
  snapshotStatus : Text
  deriving DecidableEq, Repr

/-- A VM with the snapshots that are listed for it. -/
structure Vm where
  name : Text
  snapshots : List Snapshot

/-- The VMs of the engine, no two of which have one name. -/
structure Engine where
  vms : List Vm
  names_nodup : (vms.map Vm.name).Nodup

/-- What the functions raise. -/
inductive SnapshotException where
  | find (fault : FindFault)
  /-- `APITimeout`. -/
  | apiTimeout
  /-- An attribute of `None` is asked for. -/
  | attributeError
  deriving DecidableEq, Repr

/-! ## The source -/

/-- The first snapshot with the description. -/
def findDescription (snap : Text) (snapshotObjects : List Snapshot) : Option Snapshot :=
  snapshotObjects.find? (·.description == some snap)

section

variable (engine : Engine)

/-- `_getVmSnapshots` without `href`. -/
def getVmSnapshots (vm : Text) : Except FindFault (List Snapshot) := do
  let vmObj ← findEntity Vm.name vm engine.vms
  return vmObj.snapshots

/-- `_getVmSnapshot`. -/
def getVmSnapshot (vm snap : Text) : Except FindFault (Option Snapshot) := do
  let snapshotObjects ← getVmSnapshots engine vm
  return findDescription snap snapshotObjects

/-- `validateSnapshot`. -/
def validateSnapshot (vm snapshot : Text) : Except FindFault Bool :=
  match getVmSnapshot engine vm snapshot with
  | .ok _ => .ok true
  | .error (.entityNotFound _) => .ok false
  | .error e => .error e

end

/-- The `Snapshot` that is sent; the disks are those of its `DiskAttachments`. -/
structure SnapshotRequest where
  description : Text
  persistMemorystate : Option Bool
  diskAttachments : Option (List Text)
  deriving DecidableEq, Repr

/-- The arguments of `addSnapshot`. -/
structure AddSnapshotArgs where
  positive : Bool
  vm : Text
  description : Text
  wait : Bool
  persistMemory : Option Bool
  disksLst : List Text

/-- How the engine answers to `addSnapshot`, and how it looks at its lookups. -/
structure Creation where
  /-- `get_disk_obj(disk).get_id()`. -/
  getDiskObj : Text → Except SnapshotException Text
  /-- The status of `SNAPSHOT_API.create`, for `positive` and `compare`. -/
  create : SnapshotRequest → Bool → Bool → Except SnapshotException Bool
  /-- `wait_for_jobs`. -/
  waitForJobs : Except SnapshotException Unit
  /-- The engine once the jobs are over. -/
  created : Engine
  /-- `SNAPSHOT_API.waitForElemStatus` of a snapshot and `ok`. -/
  waitForElemStatus : Snapshot → Except SnapshotException Bool
  /-- The engine once the snapshot is `ok`. -/
  settled : Engine

section

variable (engine : Engine) (creation : Creation) (args : AddSnapshotArgs)

/-- The request with the disks that it is to have. -/
def snapshotRequest (disks : List Text) : SnapshotRequest where
  description := args.description
  persistMemorystate := args.persistMemory
  diskAttachments := if disks.isEmpty then none else some disks

/-- What is asked of the engine before the snapshot is looked up: the status of the request. -/
def requestSnapshot : Except SnapshotException Bool := do
  let disks ← args.disksLst.mapM creation.getDiskObj
  let _ ← (getVmSnapshots engine args.vm).mapError .find
  creation.create (snapshotRequest args disks) args.positive args.wait

/-- `snapshotStatus`: the wait for the snapshot that has been looked up. -/
def snapshotStatus (status : Bool) (snapshot : Option Snapshot) :
    Except SnapshotException Bool :=
  if status && args.positive && args.wait then
    match snapshot with
    | none => .error .attributeError
    | some snapshot => do
        let ok ← creation.waitForElemStatus snapshot
        if ok then (validateSnapshot creation.settled args.vm args.description).mapError .find
        else .ok false
  else .ok true

/-- `addSnapshot` after the jobs: the lookup and what follows it. -/
def lookUpCreated (status : Bool) : Except SnapshotException Bool :=
  match getVmSnapshot creation.created args.vm args.description with
  | .error (.entityNotFound _) => .ok (!args.positive)
  | .error e => .error (.find e)
  | .ok snapshot => do
      let snapshotStatus ← snapshotStatus creation args status snapshot
      return status && snapshotStatus

/-- `addSnapshot`. -/
def addSnapshot : Except SnapshotException Bool := do
  let status ← requestSnapshot engine creation args
  let _ ← if args.wait then creation.waitForJobs else .ok ()
  lookUpCreated creation args status

end

/-- The `Snapshot` object, as it is put into a request. -/
def Snapshot.value (snapshot : Snapshot) : Value :=
  .elem "Snapshot" [("id", .prim (.str snapshot.id)),
    ("description", match snapshot.description with
      | none => .none
      | some description => .prim (.str description))]

/-- What `_getVmSnapshot` hands out. -/
def lookedUp : Option Snapshot → Value
  | none => .none
  | some snapshot => snapshot.value

/-- `_getVmSnapshot`, as the builder of a VM calls it; nothing has a description that is not a
text. -/
def Engine.vmSnapshot (engine : Engine) (vm : Text) (snapshotName : Value) :
    Except BuilderException Value :=
  match VmBuilder.textOf snapshotName with
  | .error _ => .ok .none
  | .ok snap =>
    match getVmSnapshot engine vm snap with
    | .ok found => .ok (lookedUp found)
    | .error (.entityNotFound _) => .error .entityNotFound
    | .error (.moreThanOneEntitiesFound _) =>
      .error (.exception "MoreThanOneEntitiesFound".toList)

/-- The engine that the builder of a VM asks, whatever it says to the other searches. -/
def Engine.forBuilder (engine : Engine) (others : VmBuilder.Engine) : VmBuilder.Engine :=
  { others with
    vms := .ok (engine.vms.map Vm.name)
    vmSnapshot := engine.vmSnapshot }

/-- The arguments of a VM that is built from a snapshot. -/
def fromSnapshot (kwargs : VmKwargs) (description : Text) : VmKwargs :=
  kwargs.update "snapshot" (.prim (.str description))

/-- The part of the VM that the builder makes of these snapshots. -/
def snapshotsOf (snapshotObj : Value) : Settings :=
  [("snapshots", .elem "Snapshots" [("snapshot", .list [snapshotObj])])]

/-! ## What is asked of the callers -/

/-- The VM has a snapshot with the description. -/
def Vm.Has (vm : Vm) (description : Text) : Prop :=
  ∃ snapshot ∈ vm.snapshots, snapshot.description = some description

section

variable (engine : Engine) (creation : Creation) (args : AddSnapshotArgs)

/-- The VM of this name has a snapshot with the description. -/
def Engine.Has (vm description : Text) : Prop :=
  ∃ vmObj ∈ engine.vms, vmObj.name = vm ∧ vmObj.Has description

/-- The VM is in the engine. -/
def Engine.Knows (vm : Text) : Prop := ∃ vmObj ∈ engine.vms, vmObj.name = vm

/-- The request was made, and has ended as expected. -/
def AsExpected : Prop := requestSnapshot engine creation args = .ok true

/-- The callers of the lookup tell a snapshot that is found from one that is not. -/
structure LookupsAgree (others : VmBuilder.Engine) (kwargs : VmKwargs) (vm description : Text) :
    Prop where
  validates : validateSnapshot engine vm description = .ok true ↔ engine.Has vm description
  refused : args.positive = false → AsExpected engine creation args →
    ¬ creation.created.Has args.vm args.description →
      addSnapshot engine creation args = .ok true
  missing : args.positive = true → ¬ creation.created.Has args.vm args.description →
    addSnapshot engine creation args ≠ .ok true
  taken : (∃ vmObj ∈ engine.vms, vmObj.Has description) →
    ∃ vmObj ∈ engine.vms, ∃ snapshot ∈ vmObj.snapshots,
      snapshot.description = some description ∧
      VmBuilder.snapshot (engine.forBuilder others) (fromSnapshot kwargs description) =
        .ok (snapshotsOf snapshot.value)
  nothing : (¬ ∃ vmObj ∈ engine.vms, vmObj.Has description) →
    VmBuilder.snapshot (engine.forBuilder others) (fromSnapshot kwargs description) = .ok []

/-- What the callers need: that the lookup finds something wherever the VM is found. -/
structure LookupsFind (vm description : Text) : Prop where
  validates : engine.Knows vm → engine.Has vm description
  refused : args.positive = false → AsExpected engine creation args →
    ¬ creation.created.Has args.vm args.description → args.wait = true →
      creation.waitForJobs = .ok ()
  missing : args.positive = true → args.wait = false → AsExpected engine creation args →
    creation.created.Knows args.vm → creation.created.Has args.vm args.description
  first : ∀ vmObj rest, engine.vms = vmObj :: rest →
    if description = [] then ∀ other ∈ engine.vms, ¬ other.Has description
    else vmObj.Has description

end

/-! ## The lookup -/

section

variable {engine : Engine} {creation : Creation} {args : AddSnapshotArgs} {vmObj : Vm}
  {vm description : Text} {snapshots : List Snapshot} {snapshot : Snapshot}

theorem findDescription_eq_some (h : findDescription description snapshots = some snapshot) :
    snapshot ∈ snapshots ∧ snapshot.description = some description := by
  unfold findDescription at h
  exact ⟨List.mem_of_find?_eq_some h, by simpa using List.find?_some h⟩

theorem findDescription_eq_none_iff : findDescription description snapshots = none ↔
    ∀ snapshot ∈ snapshots, snapshot.description ≠ some description := by
  unfold findDescription
  rw [List.find?_eq_none]
  simp only [beq_iff_eq, ne_eq]

/-- The lookup finds something exactly if the VM has it. -/
theorem exists_findDescription_iff :
    (∃ snapshot, findDescription description vmObj.snapshots = some snapshot) ↔
      vmObj.Has description := by
  constructor
  · intro ⟨snapshot, h⟩
    obtain ⟨hmem, hdescription⟩ := findDescription_eq_some h
    exact ⟨snapshot, hmem, hdescription⟩
  · intro ⟨snapshot, hmem, hdescription⟩
    apply Option.ne_none_iff_exists'.mp
    intro hnone
    exact findDescription_eq_none_iff.mp hnone snapshot hmem hdescription

theorem findDescription_eq_none_iff_not_has :
    findDescription description vmObj.snapshots = none ↔ ¬ vmObj.Has description := by
  rw [← exists_findDescription_iff, ← Option.ne_none_iff_exists', not_not]

/-- The snapshots of a VM of the engine are looked up among its own. -/
theorem getVmSnapshot_of_mem (h : vmObj ∈ engine.vms) (description : Text) :
    getVmSnapshot engine vmObj.name description =
      .ok (findDescription description vmObj.snapshots) := by
  unfold getVmSnapshot getVmSnapshots
  rw [findEntity_of_mem engine.names_nodup h]
  rfl

theorem getVmSnapshot_of_not_knows (h : ¬ engine.Knows vm) (description : Text) :
    getVmSnapshot engine vm description = .error (.entityNotFound vm) := by
  have hnone : engine.vms.filter (·.name == vm) = [] := by
    apply List.filter_eq_nil_iff.mpr
    intro vmObj hmem hname
    exact h ⟨vmObj, hmem, beq_iff_eq.mp hname⟩
  unfold getVmSnapshot getVmSnapshots findEntity
  rw [hnone]
  rfl

theorem eq_of_name_eq {other : Vm} (h : vmObj ∈ engine.vms) (hother : other ∈ engine.vms)
    (hname : vmObj.name = other.name) : vmObj = other :=
  List.inj_on_of_nodup_map engine.names_nodup h hother hname

theorem has_name_iff (h : vmObj ∈ engine.vms) :
    engine.Has vmObj.name description ↔ vmObj.Has description := by
  constructor
  · intro ⟨other, hother, hname, hhas⟩
    rwa [eq_of_name_eq hother h hname] at hhas
  · intro hhas
    exact ⟨vmObj, h, rfl, hhas⟩

theorem Engine.Has.knows (h : engine.Has vm description) : engine.Knows vm := by
  obtain ⟨vmObj, hmem, hname, -⟩ := h
  exact ⟨vmObj, hmem, hname⟩

/-! ## `validateSnapshot` -/

/-- The check passes wherever the VM is found. -/
theorem validateSnapshot_eq_true_iff :
    validateSnapshot engine vm description = .ok true ↔ engine.Knows vm := by
  unfold validateSnapshot
  by_cases hknows : engine.Knows vm
  · obtain ⟨vmObj, hmem, rfl⟩ := hknows
    rw [getVmSnapshot_of_mem hmem]
    exact iff_of_true rfl ⟨vmObj, hmem, rfl⟩
  · rw [getVmSnapshot_of_not_knows hknows]
    exact iff_of_false nofun hknows

/-! ## `addSnapshot` -/

/-- The function returns `True` exactly if its three parts do so. -/
theorem addSnapshot_eq_true_iff : addSnapshot engine creation args = .ok true ↔
    ∃ status, requestSnapshot engine creation args = .ok status ∧
      (args.wait = true → creation.waitForJobs = .ok ()) ∧
      lookUpCreated creation args status = .ok true := by
  unfold addSnapshot
  cases hwait : args.wait with
  | false => exact bind_eq_ok_iff.trans (exists_congr fun status => and_congr_right fun _ =>
    ⟨fun h => ⟨nofun, h⟩, fun h => h.2⟩)
  | true =>
    refine bind_eq_ok_iff.trans (exists_congr fun status => and_congr_right fun _ => ?_)
    refine bind_eq_ok_iff.trans ⟨fun ⟨_, hjobs, h⟩ => ⟨fun _ => hjobs, h⟩, ?_⟩
    intro ⟨hjobs, h⟩
    exact ⟨⟨⟩, hjobs rfl, h⟩

/-- Without a positive expectation the lookup decides nothing. -/
theorem lookUpCreated_of_negative (hpositive : args.positive = false) :
    lookUpCreated creation args true = .ok true := by
  unfold lookUpCreated snapshotStatus
  by_cases hknows : creation.created.Knows args.vm
  · obtain ⟨vmObj, hmem, hname⟩ := hknows
    rw [← hname, getVmSnapshot_of_mem hmem, hpositive]
    rfl
  · rw [getVmSnapshot_of_not_knows hknows, hpositive]
    rfl

/-- Where the snapshot is missing, a positive call passes only if it does not wait for it. -/
theorem lookUpCreated_of_missing {status : Bool} (hpositive : args.positive = true)
    (hmissing : ¬ creation.created.Has args.vm args.description) :
    lookUpCreated creation args status = .ok true ↔
      creation.created.Knows args.vm ∧ args.wait = false ∧ status = true := by
  unfold lookUpCreated snapshotStatus
  by_cases hknows : creation.created.Knows args.vm
  · obtain ⟨vmObj, hmem, hname⟩ := id hknows
    have hnone : findDescription args.description vmObj.snapshots = none := by
      rw [findDescription_eq_none_iff_not_has, ← has_name_iff hmem, hname]
      exact hmissing
    rw [← hname, getVmSnapshot_of_mem hmem, hnone, hname, hpositive, and_iff_right hknows]
    cases args.wait with
    | false => cases status with
      | false => exact iff_of_false nofun nofun
      | true => exact iff_of_true rfl ⟨rfl, rfl⟩
    | true => cases status with
      | false => exact iff_of_false nofun nofun
      | true => exact iff_of_false nofun nofun
  · rw [getVmSnapshot_of_not_knows hknows, hpositive]
    exact iff_of_false nofun fun h => hknows h.1

theorem refused_iff :
    (args.positive = false → AsExpected engine creation args →
      ¬ creation.created.Has args.vm args.description →
        addSnapshot engine creation args = .ok true) ↔
    (args.positive = false → AsExpected engine creation args →
      ¬ creation.created.Has args.vm args.description → args.wait = true →
        creation.waitForJobs = .ok ()) := by
  refine forall_congr' fun hpositive => forall_congr' fun hexpected => forall_congr' fun _ => ?_
  rw [addSnapshot_eq_true_iff]
  constructor
  · intro ⟨_, _, hjobs, _⟩
    exact hjobs
  · intro hjobs
    exact ⟨true, hexpected, hjobs, lookUpCreated_of_negative hpositive⟩

theorem missing_iff :
    (args.positive = true → ¬ creation.created.Has args.vm args.description →
      addSnapshot engine creation args ≠ .ok true) ↔
    (args.positive = true → args.wait = false → AsExpected engine creation args →
      creation.created.Knows args.vm → creation.created.Has args.vm args.description) := by
  refine forall_congr' fun hpositive => ?_
  constructor
  · intro h hwait hexpected hknows
    by_contra hmissing
    refine h hmissing (addSnapshot_eq_true_iff.mpr ⟨true, hexpected, ?_, ?_⟩)
    · intro htrue
      exact nomatch hwait.symm.trans htrue
    · exact (lookUpCreated_of_missing hpositive hmissing).mpr ⟨hknows, hwait, rfl⟩
  · intro h hmissing htrue
    obtain ⟨status, hstatus, -, hlookUp⟩ := addSnapshot_eq_true_iff.mp htrue
    obtain ⟨hknows, hwait, rfl⟩ := (lookUpCreated_of_missing hpositive hmissing).mp hlookUp
    exact hmissing (h hwait hstatus hknows)

/-! ## The builder -/

theorem vmSnapshot_of_mem (h : vmObj ∈ engine.vms) (description : Text) :
    engine.vmSnapshot vmObj.name (.prim (.str description)) =
      .ok (lookedUp (findDescription description vmObj.snapshots)) := by
  unfold Engine.vmSnapshot VmBuilder.textOf
  simp only [getVmSnapshot_of_mem h]

variable {others : VmBuilder.Engine} {kwargs : VmKwargs}

theorem pop_fromSnapshot :
    (fromSnapshot kwargs description).pop "snapshot" = .prim (.str description) := rfl

/-- The empty description counts as no snapshot. -/
theorem snapshot_of_empty :
    VmBuilder.snapshot (engine.forBuilder others) (fromSnapshot kwargs []) = .ok [] := rfl

theorem snapshot_of_nil (hvms : engine.vms = []) :
    VmBuilder.snapshot (engine.forBuilder others) (fromSnapshot kwargs description) = .ok [] := by
  unfold VmBuilder.snapshot
  rw [pop_fromSnapshot]
  unfold Engine.forBuilder
  cases description with
  | nil => rfl
  | cons c rest =>
    rw [hvms]
    rfl

/-- The builder takes what the lookup for the first VM hands out. -/
theorem snapshot_of_cons {rest : List Vm} (hvms : engine.vms = vmObj :: rest)
    (hdescription : description ≠ []) :
    VmBuilder.snapshot (engine.forBuilder others) (fromSnapshot kwargs description) =
      .ok (snapshotsOf (lookedUp (findDescription description vmObj.snapshots))) := by
  have hfirst := @vmSnapshot_of_mem engine vmObj (hvms ▸ List.mem_cons_self) description
  unfold VmBuilder.snapshot
  rw [pop_fromSnapshot]
  unfold Engine.forBuilder
  cases description with
  | nil => exact absurd rfl hdescription
  | cons c text =>
    change (VmBuilder.findSnapshot _ _ (engine.vms.map Vm.name)).bind _ = _
    rw [hvms, List.map_cons, VmBuilder.findSnapshot]
    dsimp only
    rw [hfirst]
    rfl

theorem value_ne_none (snapshot : Snapshot) : snapshot.value ≠ .none := nofun

theorem snapshotsOf_inj {value other : Value} (h : snapshotsOf value = snapshotsOf other) :
    value = other := by
  injection h with h
  injection h with _ h
  injection h with _ h
  injection h with h
  injection h with _ h
  injection h with h
  injection h

/-- The builder is right exactly if the first VM has the snapshot, or the name is empty and no VM
has it. -/
theorem built_iff :
    (((∃ vmObj ∈ engine.vms, vmObj.Has description) →
      ∃ vmObj ∈ engine.vms, ∃ snapshot ∈ vmObj.snapshots,
        snapshot.description = some description ∧
        VmBuilder.snapshot (engine.forBuilder others) (fromSnapshot kwargs description) =
          .ok (snapshotsOf snapshot.value)) ∧
    ((¬ ∃ vmObj ∈ engine.vms, vmObj.Has description) →
      VmBuilder.snapshot (engine.forBuilder others) (fromSnapshot kwargs description) = .ok [])) ↔
    ∀ vmObj rest, engine.vms = vmObj :: rest →
      if description = [] then ∀ other ∈ engine.vms, ¬ other.Has description
      else vmObj.Has description := by
  cases hvms : engine.vms with
  | nil =>
    refine iff_of_true ⟨?_, fun _ => snapshot_of_nil hvms⟩ nofun
    intro ⟨vmObj, hmem, _⟩
    exact absurd hmem List.not_mem_nil
  | cons vmObj rest =>
    by_cases hdescription : description = []
    · subst hdescription
      simp only [if_true]
      rw [snapshot_of_empty]
      constructor
      · intro ⟨htaken, _⟩ _ _ _ other hother hhas
        obtain ⟨_, _, snapshot, _, _, h⟩ := htaken ⟨other, hother, hhas⟩
        exact nomatch h
      · intro h
        refine ⟨?_, fun _ => rfl⟩
        intro ⟨other, hother, hhas⟩
        exact absurd hhas (h vmObj rest rfl other hother)
    · simp only [if_neg hdescription]
      rw [snapshot_of_cons hvms hdescription]
      cases hfound : findDescription description vmObj.snapshots with
      | none =>
        have hnot := findDescription_eq_none_iff_not_has.mp hfound
        refine iff_of_false ?_ fun h => hnot (h vmObj rest rfl)
        intro ⟨htaken, hnothing⟩
        by_cases hsome : ∃ vmObj' ∈ vmObj :: rest, vmObj'.Has description
        · obtain ⟨_, _, snapshot, _, _, h⟩ := htaken hsome
          exact value_ne_none snapshot (snapshotsOf_inj (Except.ok.inj h)).symm
        · exact nomatch hnothing hsome
      | some snapshot =>
        obtain ⟨hmem, hsnapshot⟩ := findDescription_eq_some hfound
        have hhas : vmObj.Has description := ⟨snapshot, hmem, hsnapshot⟩
        refine iff_of_true ⟨fun _ => ?_, fun hnone => ?_⟩ ?_
        · exact ⟨vmObj, List.mem_cons_self, snapshot, hmem, hsnapshot, rfl⟩
        · exact absurd ⟨vmObj, List.mem_cons_self, hhas⟩ hnone
        · intro _ _ heq
          rwa [← (List.cons.inj heq).1]

end

/-- The callers of the lookup agree with it exactly if it finds a snapshot wherever they find the
VM, and the jobs of a refused request end. -/
theorem lookups_agree_iff (engine : Engine) (creation : Creation) (args : AddSnapshotArgs)
    (others : VmBuilder.Engine) (kwargs : VmKwargs) (vm description : Text) :
    LookupsAgree engine creation args others kwargs vm description ↔
      LookupsFind engine creation args vm description := by
  have hvalidates : (validateSnapshot engine vm description = .ok true ↔
      engine.Has vm description) ↔ (engine.Knows vm → engine.Has vm description) := by
    rw [validateSnapshot_eq_true_iff]
    exact ⟨fun h => h.mp, fun h => ⟨h, Engine.Has.knows⟩⟩
  constructor
  · intro h
    exact ⟨hvalidates.mp h.validates, refused_iff.mp h.refused, missing_iff.mp h.missing,
      built_iff.mp ⟨h.taken, h.nothing⟩⟩
  · intro h
    obtain ⟨htaken, hnothing⟩ := built_iff.mpr h.first
    exact ⟨hvalidates.mpr h.validates, refused_iff.mpr h.refused, missing_iff.mpr h.missing,
      htaken, hnothing⟩

/-! ## A snapshot that the second VM has -/

/-- An engine in which the second of two VMs has a snapshot. -/
def secondHas : Engine where
  vms := [{ name := "vm_1".toList, snapshots := [] },
    { name := "vm_2".toList
      snapshots := [
        { id := "s1".toList
          description := some "base".toList
          snapshotStatus := "ok".toList }] }]
  names_nodup := by decide

/-- A request that is accepted, where nothing is waited for and no snapshot comes up. -/
def neverCreated : Creation where
  getDiskObj disk := .ok disk
  create _ _ _ := .ok true
  waitForJobs := .ok ()
  created := secondHas
  waitForElemStatus _ := .ok true
  settled := secondHas

/-- A positive call for the first VM that does not wait. -/
def addBase : AddSnapshotArgs where
  positive := true
  vm := "vm_1".toList
  description := "base".toList
  wait := false
  persistMemory := none
  disksLst := []

/-- No further arguments. -/
def noKwargs : VmKwargs where
  options := fun _ => none

/-- The first VM passes the check for a snapshot that it does not have, so does a call that was to
add it there, and a VM built from the snapshot gets `None` in its place. -/
theorem missing_snapshot_counts_as_found :
    validateSnapshot secondHas "vm_1".toList "base".toList = .ok true ∧
      addSnapshot secondHas neverCreated addBase = .ok true ∧
      VmBuilder.snapshot (secondHas.forBuilder VmBuilder.emptyEngine)
        (fromSnapshot noKwargs "base".toList) = .ok (snapshotsOf .none) ∧
      ¬ LookupsAgree secondHas neverCreated addBase VmBuilder.emptyEngine noKwargs
        "vm_1".toList "base".toList := by
  have hmem : (⟨"vm_1".toList, []⟩ : Vm) ∈ secondHas.vms := List.mem_cons_self
  have hvalid : validateSnapshot secondHas "vm_1".toList "base".toList = .ok true :=
    validateSnapshot_eq_true_iff.mpr ⟨_, hmem, rfl⟩
  refine ⟨hvalid, rfl, rfl, fun h => ?_⟩
  obtain ⟨snapshot, hsnapshot, -⟩ := (has_name_iff hmem).mp (h.validates.mp hvalid)
  exact absurd hsnapshot List.not_mem_nil

end OvirtArt.TestsLib.VmSnapshots
