import Mathlib.Data.List.Perm.Basic
import OvirtArt.Foundation.Recordings
import OvirtArt.TestsLib.VmSnapshots

set_option autoImplicit false

/-!
# `delete_snapshot_disks` of `low_level/vms.py`

The disk snapshots to delete are those of one storage domain, that of the first disk of the
snapshot, whose disk is among the disks of the snapshot.  The snapshot that they belong to is not
looked at.

The engine is asked for disks and their snapshots, and answers a deletion in any way.  The wait
for the end of the deletions is a parameter.
-/

namespace OvirtArt.TestsLib.SnapshotDisks

open OvirtArt.CoreApi OvirtArt.Foundation
open OvirtArt.TestsLib.VmSnapshots (Snapshot findDescription getVmSnapshot)

/-- What is read of a disk of the engine. -/
structure Disk where
  id : Text
  aliasName : Text
  /-- The ids of its storage domains. -/
  storageDomains : List Text
  deriving DecidableEq, Repr

/-- What is read of a disk of a snapshot. -/
structure SnapshotDisk where
  id : Text
  aliasName : Text
  deriving DecidableEq, Repr

/-- A disk snapshot: an image of a disk that belongs to a snapshot. -/
structure DiskSnapshot where
  id : Text
  diskId : Text
  snapshotId : Text
  deriving DecidableEq, Repr

/-- A storage domain with its disk snapshots. -/
structure StorageDomain where
  id : Text
  name : Text
  diskSnapshots : List DiskSnapshot

/-- The VMs and the disks of the engine.  Each disk snapshot is listed once in all. -/
structure Engine extends VmSnapshots.Engine where
  /-- The ids of the disks that are attached to a VM. -/
  attachments : Text → List Text
  disks : List Disk
  snapshotDisks : Snapshot → List SnapshotDisk
  storageDomains : List StorageDomain
  listed_once : ((storageDomains.flatMap StorageDomain.diskSnapshots).map DiskSnapshot.id).Nodup

/-- What the functions raise. -/
inductive DisksException where
  | find (fault : FindFault)
  /-- An attribute of `None` is asked for. -/
  | attributeError
  | indexError
  /-- What the waits raise. -/
  | timeout
  deriving DecidableEq, Repr

/-- How the engine answers to the requests, and how the waits for the disks with these ids end. -/
structure Deletion where
  /-- The status of `DISKS_API.delete`. -/
  delete : DiskSnapshot → Bool
  waitForJobs : Except DisksException Unit
  waitForDisksStatus : List Text → Except DisksException Bool

/-! ## The source -/

section

variable (engine : Engine) (deletion : Deletion)

/-- `find`. -/
def find {α : Type} (attr : α → Text) (value : Text) (collection : List α) :
    Except DisksException α :=
  (findEntity attr value collection).mapError .find

/-- `get_snapshot_disks`. -/
def getSnapshotDisks (vm snapshot : Text) : Except DisksException (List SnapshotDisk) := do
  let snapObj ← (getVmSnapshot engine.toEngine vm snapshot).mapError .find
  match snapObj with
  | none => .error .attributeError
  | some snapObj => .ok (engine.snapshotDisks snapObj)

/-- The loop of `get_disk_attachment` over the attachments. -/
def findAttachment (disk : Text) : List Text → Except DisksException (Option Text)
  | [] => .ok none
  | diskId :: rest => do
      let diskObj ← find Disk.id diskId engine.disks
      if diskObj.aliasName = disk then return some diskId
      findAttachment disk rest

/-- `getVmDisk(vm_name, alias)`; nothing can be asked of the `None` that it may return. -/
def getVmDisk (vmName aliasName : Text) : Except DisksException Disk :=
  if aliasName.isEmpty then .error .attributeError
  else do
    let vmObj ← find VmSnapshots.Vm.name vmName engine.vms
    let diskAttachment ← findAttachment engine aliasName (engine.attachments vmObj.name)
    match diskAttachment with
    | none => .error .attributeError
    | some diskId => find Disk.id diskId engine.disks

/-- `get_disk_storage_domain_name(disk_name, vm_name)`. -/
def getDiskStorageDomainName (diskName vmName : Text) : Except DisksException Text := do
  let disk ← getVmDisk engine vmName diskName
  match disk.storageDomains with
  | [] => .error .indexError
  | sdId :: _ => do
      let storageDomain ← find StorageDomain.id sdId engine.storageDomains
      return storageDomain.name

/-- `storage_domain_obj`: the storage domain of the first disk. -/
def storageDomainObj (vm : Text) : List SnapshotDisk → Except DisksException StorageDomain
  | [] => .error .indexError
  | first :: _ => do
      let storageDomainName ← getDiskStorageDomainName engine first.aliasName vm
      find StorageDomain.name storageDomainName engine.storageDomains

/-- The condition on a disk snapshot; an empty `disk_id` counts as not given. -/
def isSelected (diskId : Option Text) (snapshotDiskIds : List Text) (diskSnapshot : DiskSnapshot) :
    Bool :=
  match diskId with
  | some (c :: text) => diskSnapshot.diskId == c :: text
  | _ => snapshotDiskIds.contains diskSnapshot.diskId

/-- `snapshot_disks`. -/
def selectDisks (diskId : Option Text) (disks : List SnapshotDisk) (domain : StorageDomain) :
    List DiskSnapshot :=
  domain.diskSnapshots.filter (isSelected diskId (disks.map SnapshotDisk.id))

/-- What is waited for. -/
def waitForDeletion (snapshotDisks : List DiskSnapshot) : Except DisksException Unit := do
  deletion.waitForJobs
  let _ ← deletion.waitForDisksStatus (snapshotDisks.map DiskSnapshot.diskId)
  return ⟨⟩

/-- The `if wait` at the end. -/
def finalWait (wait : Bool) (snapshotDisks : List DiskSnapshot) : Except DisksException Unit :=
  if wait then waitForDeletion deletion snapshotDisks else .ok ⟨⟩

/-- The loop over `snapshot_disks`; an entry is a request. -/
def deleteAll (snapshotDisks : List DiskSnapshot) :
    Recorded DisksException DiskSnapshot (List Bool) :=
  snapshotDisks.foldlM (fun results diskObj => do
    let status ← Recorded.ask diskObj (.ok (deletion.delete diskObj))
    return results ++ [status]) []

/-- `delete_snapshot_disks`. -/
def deleteSnapshotDisks (vm snapshot : Text) (diskId : Option Text) (wait : Bool) :
    Recorded DisksException DiskSnapshot Bool := do
  let disks ← Recorded.call (getSnapshotDisks engine vm snapshot)
  let domain ← Recorded.call (storageDomainObj engine vm disks)
  let snapshotDisks := selectDisks diskId disks domain
  let results ← deleteAll deletion snapshotDisks
  Recorded.call (finalWait deletion wait snapshotDisks)
  return results.all id

end

/-! ## What is asked of it -/

section

variable (engine : Engine) (deletion : Deletion) (vm snapshot : Text) (diskId : Option Text)
  (wait : Bool)

/-- The disk snapshots of all storage domains. -/
def Engine.images : List DiskSnapshot :=
  engine.storageDomains.flatMap StorageDomain.diskSnapshots

/-- The disk snapshot belongs to the snapshot, and is one of the disk that is given. -/
def Belongs (snapObj : Snapshot) (image : DiskSnapshot) : Prop :=
  image.snapshotId = snapObj.id ∧ ∀ given, diskId = some given → image.diskId = given

instance (snapObj : Snapshot) : DecidablePred (Belongs diskId snapObj) := fun image =>
  match diskId with
  | none => decidable_of_iff (image.snapshotId = snapObj.id) ⟨fun h => ⟨h, nofun⟩, And.left⟩
  | some given =>
    decidable_of_iff (image.snapshotId = snapObj.id ∧ image.diskId = given)
      ⟨fun h => ⟨h.1, fun _ hgiven => Option.some.inj hgiven ▸ h.2⟩,
        fun h => ⟨h.1, h.2 given rfl⟩⟩

/-- The snapshot that is named. -/
def named : Option Snapshot :=
  match getVmSnapshot engine.toEngine vm snapshot with
  | .ok snapObj => snapObj
  | .error _ => none

/-- The disk snapshots to delete, wherever they are. -/
def wanted : List DiskSnapshot :=
  match named engine vm snapshot with
  | none => []
  | some snapObj => engine.images.filter fun image => decide (Belongs diskId snapObj image)

/-- The deletion is requested of each disk snapshot of the snapshot once and of no other, and the
function returns `True` exactly if all of them are deleted. -/
structure DeletesItsImages (run : Recorded DisksException DiskSnapshot Bool) : Prop where
  requests : run.entries.Perm (wanted engine vm snapshot diskId)
  answer : run.result = .ok true ↔
    ∀ image ∈ wanted engine vm snapshot diskId, deletion.delete image = true

/-- In this storage domain are all disk snapshots that are to be deleted, and no others of the same
disks; where all of them are deleted, what is waited for comes. -/
structure OnlyItsImages (snapObj : Snapshot) (domain : StorageDomain) : Prop where
  here : ∀ image ∈ engine.images, Belongs diskId snapObj image → image ∈ domain.diskSnapshots
  selected : ∀ image ∈ engine.images, Belongs diskId snapObj image →
    isSelected diskId ((engine.snapshotDisks snapObj).map SnapshotDisk.id) image = true
  others : ∀ image ∈ domain.diskSnapshots,
    isSelected diskId ((engine.snapshotDisks snapObj).map SnapshotDisk.id) image = true →
      Belongs diskId snapObj image
  waits : wait = true →
    (∀ image ∈ engine.images, Belongs diskId snapObj image → deletion.delete image = true) →
      waitForDeletion deletion
        (selectDisks diskId (engine.snapshotDisks snapObj) domain) = .ok ⟨⟩

/-- The snapshot is found, and so is the storage domain of its first disk, which has all its disk
snapshots and no others of these disks. -/
def DomainIsItsOwn : Prop :=
  ∃ snapObj domain, getVmSnapshot engine.toEngine vm snapshot = .ok (some snapObj) ∧
    storageDomainObj engine vm (engine.snapshotDisks snapObj) = .ok domain ∧
    OnlyItsImages engine deletion diskId wait snapObj domain

end

/-! ## The requests -/

section

variable {engine : Engine} {deletion : Deletion} {vm snapshot : Text} {diskId : Option Text}
  {wait : Bool} {disks : List SnapshotDisk} {domain : StorageDomain} {snapObj : Snapshot}
  {image : DiskSnapshot}

theorem deleteAll_eq (images : List DiskSnapshot) : deleteAll deletion images =
    { entries := images, result := .ok (images.map deletion.delete) } := by
  have hround (results : List Bool) (image : DiskSnapshot) (_ : image ∈ images) :
      (do
        let status ← Recorded.ask image (.ok (deletion.delete image))
        return results ++ [status] : Recorded DisksException DiskSnapshot (List Bool)) =
      { entries := [image], result := .ok (results ++ [deletion.delete image]) } := rfl
  unfold deleteAll
  rw [Recorded.foldlM_eq_of_rounds hround, List.flatMap_singleton', List.foldl_append_eq_append,
    List.nil_append, ← List.flatMap_def, List.map_eq_flatMap]

theorem find_eq_ok_mem {α : Type} {attr : α → Text} {value : Text} {collection : List α}
    {found : α} (h : find attr value collection = .ok found) : found ∈ collection := by
  unfold find findEntity at h
  cases hfilter : collection.filter (attr · == value) with
  | nil =>
    rw [hfilter] at h
    exact nomatch h
  | cons first rest =>
    rw [hfilter] at h
    cases rest with
    | nil =>
      obtain rfl := Except.ok.inj h
      exact List.mem_of_mem_filter (hfilter ▸ List.mem_singleton_self first)
    | cons second rest => exact nomatch h

theorem storageDomainObj_mem (h : storageDomainObj engine vm disks = .ok domain) :
    domain ∈ engine.storageDomains := by
  cases disks with
  | nil => exact nomatch h
  | cons first rest =>
    obtain ⟨name, -, hfind⟩ := bind_eq_ok_iff.mp h
    exact find_eq_ok_mem hfind

theorem images_nodup (engine : Engine) : engine.images.Nodup :=
  engine.listed_once.of_map _

theorem mem_images (hdomain : domain ∈ engine.storageDomains)
    (h : image ∈ domain.diskSnapshots) : image ∈ engine.images :=
  List.mem_flatMap.mpr ⟨domain, hdomain, h⟩

theorem selectDisks_nodup (hdomain : domain ∈ engine.storageDomains) :
    (selectDisks diskId disks domain).Nodup := by
  apply List.Nodup.filter
  exact (List.nodup_flatMap.mp (images_nodup engine)).1 domain hdomain

theorem getSnapshotDisks_eq_ok_iff : getSnapshotDisks engine vm snapshot = .ok disks ↔
    ∃ snapObj, getVmSnapshot engine.toEngine vm snapshot = .ok (some snapObj) ∧
      engine.snapshotDisks snapObj = disks := by
  unfold getSnapshotDisks
  cases getVmSnapshot engine.toEngine vm snapshot with
  | error fault => exact iff_of_false nofun nofun
  | ok found =>
    cases found with
    | none => exact iff_of_false nofun nofun
    | some snapObj =>
      constructor
      · intro h
        exact ⟨snapObj, rfl, Except.ok.inj h⟩
      · intro ⟨other, hother, hdisks⟩
        obtain rfl := Option.some.inj (Except.ok.inj hother)
        exact congrArg Except.ok hdisks

/-- Where the snapshot or the storage domain is not found, nothing is requested and the function
raises. -/
theorem deleteSnapshotDisks_of_not_found
    (h : ∀ disks domain, getSnapshotDisks engine vm snapshot = .ok disks →
      storageDomainObj engine vm disks ≠ .ok domain) :
    ∃ e, deleteSnapshotDisks engine deletion vm snapshot diskId wait =
      { entries := [], result := .error e } := by
  unfold deleteSnapshotDisks
  cases hdisks : getSnapshotDisks engine vm snapshot with
  | error e => exact ⟨e, rfl⟩
  | ok disks =>
    cases hdomain : storageDomainObj engine vm disks with
    | ok domain => exact absurd hdomain (h disks domain hdisks)
    | error e =>
      refine ⟨e, ?_⟩
      rw [Recorded.bind_eq_of_ok rfl, hdomain, Recorded.bind_eq_of_error rfl]
      rfl

/-- What is selected in the storage domain is requested. -/
theorem deleteSnapshotDisks_of_found (hdisks : getSnapshotDisks engine vm snapshot = .ok disks)
    (hdomain : storageDomainObj engine vm disks = .ok domain) :
    deleteSnapshotDisks engine deletion vm snapshot diskId wait =
      { entries := selectDisks diskId disks domain
        result := (finalWait deletion wait (selectDisks diskId disks domain)).map fun _ =>
          (selectDisks diskId disks domain).all deletion.delete } := by
  unfold deleteSnapshotDisks
  rw [hdisks, Recorded.bind_eq_of_ok rfl, hdomain, Recorded.bind_eq_of_ok rfl]
  dsimp only
  rw [deleteAll_eq, Recorded.bind_eq_of_ok rfl]
  cases finalWait deletion wait (selectDisks diskId disks domain) with
  | error e =>
    rw [Recorded.bind_eq_of_error rfl]
    simp only [Recorded.call, List.nil_append, List.append_nil]
    rfl
  | ok value =>
    rw [Recorded.bind_eq_of_ok rfl, List.all_map]
    simp only [Recorded.call, pure, List.nil_append, List.append_nil]
    rfl

/-- It returns `True` exactly if all of these are deleted, and what is waited for comes. -/
theorem result_eq_true_iff (hdisks : getSnapshotDisks engine vm snapshot = .ok disks)
    (hdomain : storageDomainObj engine vm disks = .ok domain) :
    (deleteSnapshotDisks engine deletion vm snapshot diskId wait).result = .ok true ↔
      finalWait deletion wait (selectDisks diskId disks domain) = .ok ⟨⟩ ∧
        ∀ image ∈ selectDisks diskId disks domain, deletion.delete image = true := by
  rw [deleteSnapshotDisks_of_found hdisks hdomain, ← List.all_eq_true]
  dsimp only
  cases finalWait deletion wait (selectDisks diskId disks domain) with
  | error e => exact iff_of_false nofun fun h => nomatch h.1
  | ok value => exact ⟨fun h => ⟨rfl, Except.ok.inj h⟩, fun h => congrArg Except.ok h.2⟩

theorem wanted_eq (h : getVmSnapshot engine.toEngine vm snapshot = .ok (some snapObj)) :
    wanted engine vm snapshot diskId =
      engine.images.filter fun image => decide (Belongs diskId snapObj image) := by
  unfold wanted named
  rw [h]

theorem mem_wanted_iff (h : getVmSnapshot engine.toEngine vm snapshot = .ok (some snapObj)) :
    image ∈ wanted engine vm snapshot diskId ↔
      image ∈ engine.images ∧ Belongs diskId snapObj image := by
  rw [wanted_eq h, List.mem_filter, decide_eq_true_iff]

theorem wanted_nodup : (wanted engine vm snapshot diskId).Nodup := by
  unfold wanted
  cases named engine vm snapshot with
  | none => exact List.nodup_nil
  | some snapObj => exact (images_nodup engine).filter _

theorem mem_selectDisks_iff : image ∈ selectDisks diskId disks domain ↔
    image ∈ domain.diskSnapshots ∧
      isSelected diskId (disks.map SnapshotDisk.id) image = true :=
  List.mem_filter

/-- The requests are the right ones exactly if the storage domain has all disk snapshots that are to
be deleted, and no others of the same disks. -/
theorem selectDisks_perm_wanted_iff
    (hfound : getVmSnapshot engine.toEngine vm snapshot = .ok (some snapObj))
    (hdomain : domain ∈ engine.storageDomains) :
    (selectDisks diskId (engine.snapshotDisks snapObj) domain).Perm
        (wanted engine vm snapshot diskId) ↔
      (∀ image ∈ engine.images, Belongs diskId snapObj image →
        image ∈ selectDisks diskId (engine.snapshotDisks snapObj) domain) ∧
      ∀ image ∈ selectDisks diskId (engine.snapshotDisks snapObj) domain,
        Belongs diskId snapObj image := by
  rw [List.perm_ext_iff_of_nodup (selectDisks_nodup hdomain) wanted_nodup]
  simp only [mem_wanted_iff hfound]
  constructor
  · intro h
    exact ⟨fun image hmem hbelongs => (h image).mpr ⟨hmem, hbelongs⟩,
      fun image hselected => ((h image).mp hselected).2⟩
  · intro ⟨hall, honly⟩ image
    constructor
    · intro hselected
      exact ⟨mem_images hdomain (mem_selectDisks_iff.mp hselected).1, honly image hselected⟩
    · intro ⟨hmem, hbelongs⟩
      exact hall image hmem hbelongs

end

/-- The function deletes the disk snapshots of the snapshot exactly if the storage domain of its
first disk has all of them, and no others of their disks. -/
theorem deletes_its_images_iff (engine : Engine) (deletion : Deletion) (vm snapshot : Text)
    (diskId : Option Text) (wait : Bool) :
    DeletesItsImages engine deletion vm snapshot diskId
        (deleteSnapshotDisks engine deletion vm snapshot diskId wait) ↔
      DomainIsItsOwn engine deletion vm snapshot diskId wait := by
  constructor
  · intro h
    by_cases hfound : ∀ disks domain, getSnapshotDisks engine vm snapshot = .ok disks →
        storageDomainObj engine vm disks ≠ .ok domain
    · obtain ⟨e, he⟩ := @deleteSnapshotDisks_of_not_found engine deletion vm snapshot diskId wait
        hfound
      rw [he] at h
      have hnil := h.requests.symm.eq_nil
      refine nomatch h.answer.mpr ?_
      rw [hnil]
      exact fun _ hmem => absurd hmem List.not_mem_nil
    · push Not at hfound
      obtain ⟨disks, domain, hdisks, hdomain⟩ := hfound
      obtain ⟨snapObj, hsnapObj, rfl⟩ := getSnapshotDisks_eq_ok_iff.mp hdisks
      have hrequests := h.requests
      rw [deleteSnapshotDisks_of_found hdisks hdomain,
        selectDisks_perm_wanted_iff hsnapObj (storageDomainObj_mem hdomain)] at hrequests
      obtain ⟨hall, honly⟩ := hrequests
      refine ⟨snapObj, domain, hsnapObj, hdomain, ?_, ?_, ?_, ?_⟩
      · intro image hmem hbelongs
        exact (mem_selectDisks_iff.mp (hall image hmem hbelongs)).1
      · intro image hmem hbelongs
        exact (mem_selectDisks_iff.mp (hall image hmem hbelongs)).2
      · intro image hmem hselected
        exact honly image (mem_selectDisks_iff.mpr ⟨hmem, hselected⟩)
      · intro hwait hdeleted
        have hanswer := h.answer.mpr fun image hmem =>
          hdeleted image ((mem_wanted_iff hsnapObj).mp hmem).1
            ((mem_wanted_iff hsnapObj).mp hmem).2
        have hwaited := ((result_eq_true_iff hdisks hdomain).mp hanswer).1
        unfold finalWait at hwaited
        rwa [if_pos hwait] at hwaited
  · intro ⟨snapObj, domain, hsnapObj, hdomain, h⟩
    have hdisks := getSnapshotDisks_eq_ok_iff.mpr ⟨snapObj, hsnapObj, rfl⟩
    have hperm : (selectDisks diskId (engine.snapshotDisks snapObj) domain).Perm
        (wanted engine vm snapshot diskId) := by
      apply (selectDisks_perm_wanted_iff hsnapObj (storageDomainObj_mem hdomain)).mpr
      constructor
      · intro image hmem hbelongs
        exact mem_selectDisks_iff.mpr
          ⟨h.here image hmem hbelongs, h.selected image hmem hbelongs⟩
      · intro image hselected
        obtain ⟨hmem, hisSelected⟩ := mem_selectDisks_iff.mp hselected
        exact h.others image hmem hisSelected
    refine ⟨?_, ?_⟩
    · rw [deleteSnapshotDisks_of_found hdisks hdomain]
      exact hperm
    · rw [result_eq_true_iff hdisks hdomain]
      have hsame : (∀ image ∈ selectDisks diskId (engine.snapshotDisks snapObj) domain,
          deletion.delete image = true) ↔
          ∀ image ∈ wanted engine vm snapshot diskId, deletion.delete image = true := by
        simp only [hperm.mem_iff]
      rw [hsame]
      refine and_iff_right_of_imp fun hdeleted => ?_
      unfold finalWait
      split
      · next hwait =>
          apply h.waits hwait
          intro image hmem hbelongs
          exact hdeleted image ((mem_wanted_iff hsnapObj).mpr ⟨hmem, hbelongs⟩)
      · rfl

/-! ## Two snapshots of one disk -/

/-- A VM with two snapshots and one disk, of which each snapshot has an image. -/
def twoImages : Engine where
  vms := [{ name := "vm_1".toList
            snapshots := [
              { id := "s1".toList
                description := some "first".toList
                snapshotStatus := "ok".toList },
              { id := "s2".toList
                description := some "second".toList
                snapshotStatus := "ok".toList }] }]
  names_nodup := List.nodup_singleton _
  attachments := fun _ => ["d1".toList]
  disks := [{ id := "d1".toList, aliasName := "disk".toList, storageDomains := ["sd1".toList] }]
  snapshotDisks := fun _ => [{ id := "d1".toList, aliasName := "disk".toList }]
  storageDomains := [
    { id := "sd1".toList
      name := "nfs_1".toList
      diskSnapshots := [
        { id := "i1".toList, diskId := "d1".toList, snapshotId := "s1".toList },
        { id := "i2".toList, diskId := "d1".toList, snapshotId := "s2".toList }] }]
  listed_once := by decide

/-- An engine that deletes whatever it is asked to. -/
def deletesAll : Deletion where
  delete := fun _ => true
  waitForJobs := .ok ⟨⟩
  waitForDisksStatus := fun _ => .ok true

/-- For the first snapshot the image of the second one is deleted too. -/
theorem other_snapshot_loses_image :
    (deleteSnapshotDisks twoImages deletesAll "vm_1".toList "first".toList none true).entries =
        twoImages.images ∧
      ¬ DeletesItsImages twoImages deletesAll "vm_1".toList "first".toList none
        (deleteSnapshotDisks twoImages deletesAll "vm_1".toList "first".toList none true) := by
  have hentries : (deleteSnapshotDisks twoImages deletesAll "vm_1".toList "first".toList none
      true).entries = twoImages.images := rfl
  refine ⟨hentries, fun h => ?_⟩
  have hlength := h.requests.length_eq
  rw [hentries] at hlength
  exact absurd hlength (by decide)

end OvirtArt.TestsLib.SnapshotDisks
