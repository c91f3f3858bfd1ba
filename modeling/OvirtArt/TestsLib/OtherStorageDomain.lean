import OvirtArt.CoreApi.FindEntity
import OvirtArt.CoreApi.PyText

set_option autoImplicit false

/-!
# `get_other_storage_domain` of `low_level/disks.py`

A storage domain of the data center of a disk that the disk can be moved to, chosen at random.

What `random.choice` takes is an index that is given, and the results are about every index.  Of
the objects of the engine only the fields that are read are modelled.
-/

namespace OvirtArt.TestsLib.OtherStorageDomain

open OvirtArt.CoreApi

/-- `BLOCK_DEVICES`. -/
def blockDevices : List Text := ["iscsi".toList, "fcp".toList]

/-- `FILE_DEVICES`. -/
def fileDevices : List Text :=
  ["glusterfs".toList, "nfs".toList, "ceph".toList, "posixfs".toList]

/-- A storage domain, which has a name. -/
structure StorageDomain where
  id : Text
  name : Text
  status : Text
  type : Text
  storageType : Text
  named : name.isEmpty = false

/-- A disk with the domains it is on. -/
structure Disk where
  id : Text
  name : Text
  /-- The ids of the storage domains that the disk, or a copy of it, is on. -/
  storageDomains : List Text
  deriving DecidableEq, Repr

/-- A VM with its disks. -/
structure Vm where
  name : Text
  /-- The ids of the attachments, which are those of the disks. -/
  diskAttachments : List Text

/-- A data center with the storage domains that are attached to it, under distinct names. -/
structure DataCenter where
  storageDomains : List StorageDomain
  names_nodup : (storageDomains.map StorageDomain.name).Nodup

/-- What the engine tells of. -/
structure Engine where
  disks : List Disk
  vms : List Vm
  storageDomains : List StorageDomain
  dataCenters : List DataCenter

/-- What `random.choice` takes of a sequence of this length. -/
structure Random where
  index : Nat → Nat
  index_lt : ∀ length, 0 < length → index length < length

/-- The attribute that a disk is looked for by. -/
inductive Key where
  | name
  | id
  deriving DecidableEq, Repr

/-- The arguments of `get_other_storage_domain`. -/
structure SearchArgs where
  disk : Text
  vmName : Option Text := none
  storageType : Option Text := none
  forceType : Bool := true
  ignoreType : List Text := []
  key : Key := .name

/-- What the search raises. -/
inductive Fault where
  | find (fault : FindFault)
  | attributeError
  | indexError
  deriving DecidableEq, Repr

/-! ## The disk -/

section

variable (engine : Engine)

/-- `DISKS_API.find`. -/
def findDisk (value : Text) : Key → Except Fault Disk
  | .name => (findEntity Disk.name value engine.disks).mapError .find
  | .id => (findEntity Disk.id value engine.disks).mapError .find

/-- `get_disk_attachment` of a VM. -/
def getDiskAttachment (name value : Text) (attr : Key) : Except Fault (Option Text) := do
  let vm ← (findEntity Vm.name name engine.vms).mapError .find
  let diskId ← match attr with
    | .id => pure (some value)
    | .name => vm.diskAttachments.findM? fun attachment => do
        return (← findDisk engine attachment .id).name == value
  return vm.diskAttachments.find? (some · == diskId)

/-- `getVmDisk`; without a value it returns `None`. -/
def getVmDisk (vmName value : Text) (prop : Key) : Except Fault (Option Disk) :=
  if value.isEmpty then return none
  else do
    match ← getDiskAttachment engine vmName value prop with
    | none => .error .attributeError
    | some attachment => return some (← findDisk engine attachment .id)

/-- The disk that is looked for. -/
def diskOf (args : SearchArgs) : Except Fault Disk :=
  if Text.truthy args.vmName then do
    match ← getVmDisk engine (args.vmName.getD []) args.disk args.key with
    | none => .error .attributeError
    | some disk => return disk
  else findDisk engine args.disk args.key

/-- `get_sd_datacenter`; nothing if `False` is returned. -/
def getSdDatacenter (storageDomainName : Text) : Except Fault (Option DataCenter) := do
  let found ← (findEntity StorageDomain.name storageDomainName engine.storageDomains).mapError .find
  return engine.dataCenters.find? fun dc => dc.storageDomains.any (·.id == found.id)

end

/-! ## The other storage domain -/

/-- `device_type`. -/
def deviceType (diskSdType : Text) : List Text :=
  if diskSdType ∈ fileDevices then fileDevices else blockDevices

/-- Whether the loop appends a storage domain. -/
def appends (args : SearchArgs) (diskSdId diskSdType : Text) (sd : StorageDomain) : Bool :=
  if sd.id != diskSdId && sd.status == "active".toList && sd.type == "data".toList then
    if Text.truthy args.storageType && args.storageType != some sd.storageType then false
    else if args.forceType && diskSdType != sd.storageType then false
    else if !args.forceType && decide (sd.storageType ∈ deviceType diskSdType) then false
    else if sd.storageType ∈ args.ignoreType then false
    else true
  else false

/-- `sd_list`. -/
def sdList (args : SearchArgs) (diskSdId diskSdType : Text) (sds : List StorageDomain) :
    List Text :=
  (sds.filter (appends args diskSdId diskSdType)).map StorageDomain.name

/-- `random.choice`, of a list that is not empty. -/
def choice (random : Random) (names : List Text) : Option Text := names[random.index names.length]?

/-- `get_other_storage_domain`. -/
def getOtherStorageDomain (engine : Engine) (random : Random) (args : SearchArgs) :
    Except Fault (Option Text) := do
  let disk ← diskOf engine args
  match disk.storageDomains with
  | [] => .error .indexError
  | diskSdId :: _ =>
    let diskSd ← (findEntity StorageDomain.id diskSdId engine.storageDomains).mapError .find
    match ← getSdDatacenter engine diskSd.name with
    | none => .error .attributeError
    | some dc =>
      let names := sdList args diskSdId diskSd.storageType dc.storageDomains
      if names.isEmpty then return none else return choice random names

/-! ## What is asked for -/

/-- The kinds of devices; some types of storage are of neither list. -/
inductive DeviceKind where
  | file
  | block
  | neither
  deriving DecidableEq, Repr

/-- The kind of a type of storage. -/
def deviceKind (storageType : Text) : DeviceKind :=
  if storageType ∈ fileDevices then .file
  else if storageType ∈ blockDevices then .block
  else .neither

section

variable (args : SearchArgs) (disk : Disk) (diskSd : StorageDomain) (dc : DataCenter)

/-- An active data domain of a type that is not excluded. -/
structure Usable (sd : StorageDomain) : Prop where
  active : sd.status = "active".toList
  data : sd.type = "data".toList
  requested : Text.truthy args.storageType = true → args.storageType = some sd.storageType
  notIgnored : sd.storageType ∉ args.ignoreType

/-- A usable domain that the disk is not on. -/
structure Free (sd : StorageDomain) : Prop where
  usable : Usable args sd
  apart : sd.id ∉ disk.storageDomains

/-- The kind is that of the disk's domain, or another, as `force_type` says. -/
def Suits (storageType : Text) : Prop :=
  if args.forceType then deviceKind storageType = deviceKind diskSd.storageType
  else deviceKind storageType ≠ deviceKind diskSd.storageType

/-- A domain that the disk can be moved to. -/
structure Eligible (sd : StorageDomain) : Prop where
  free : Free args disk sd
  suits : Suits args diskSd sd.storageType

/-- A name is that of a domain that the disk can be moved to, and without a name there is none. -/
structure Answers (answer : Option Text) : Prop where
  sound : ∀ name, answer = some name →
    ∃ sd ∈ dc.storageDomains, sd.name = name ∧ Eligible args disk diskSd sd
  complete : Text.truthy answer = false →
    ∀ sd ∈ dc.storageDomains, ¬ Eligible args disk diskSd sd

/-- The disk, the domain that it is on, or the first of them, and the data center of that. -/
structure Located (engine : Engine) : Prop where
  found : diskOf engine args = .ok disk
  placed : disk.storageDomains.head? = some diskSd.id
  domain : findEntity StorageDomain.id diskSd.id engine.storageDomains = .ok diskSd
  center : getSdDatacenter engine diskSd.name = .ok (some dc)

/-- The storage types that the loop lets pass. -/
def Passes (storageType : Text) : Prop :=
  if args.forceType then storageType = diskSd.storageType
  else storageType ∉ deviceType diskSd.storageType

/-- When the tests of the loop make no difference. -/
structure Unambiguous : Prop where
  /-- The disk is on no other usable domain of a type that passes. -/
  placements : ∀ sd ∈ dc.storageDomains, Usable args sd → Passes args diskSd sd.storageType →
    sd.id ∈ disk.storageDomains → sd.id = diskSd.id
  /-- With `force_type`, if there is a free domain of the same kind, there is one of the same
  type. -/
  sameType : args.forceType = true →
    (∃ sd ∈ dc.storageDomains, Free args disk sd ∧
      deviceKind sd.storageType = deviceKind diskSd.storageType) →
    ∃ sd ∈ dc.storageDomains, Free args disk sd ∧ sd.storageType = diskSd.storageType
  /-- Without it, and with a disk on a domain of neither kind, no other such domain is free. -/
  neither : args.forceType = false → deviceKind diskSd.storageType = .neither →
    ∀ sd ∈ dc.storageDomains, Free args disk sd → deviceKind sd.storageType ≠ .neither
  /-- In this case, if there is a free block domain, there is a free file domain. -/
  block : args.forceType = false → deviceKind diskSd.storageType = .neither →
    (∃ sd ∈ dc.storageDomains, Free args disk sd ∧ deviceKind sd.storageType = .block) →
    ∃ sd ∈ dc.storageDomains, Free args disk sd ∧ deviceKind sd.storageType = .file

end

/-! ## The loop and the choice -/

section

variable {args : SearchArgs} {disk : Disk} {diskSd sd : StorageDomain} {dc : DataCenter}
  {engine : Engine} {storageType : Text}

/-- The loop appends a domain. -/
structure Appended (args : SearchArgs) (diskSd sd : StorageDomain) : Prop where
  other : sd.id ≠ diskSd.id
  usable : Usable args sd
  passes : Passes args diskSd sd.storageType

theorem passes_of_force (h : args.forceType = true) :
    Passes args diskSd storageType ↔ storageType = diskSd.storageType := by
  unfold Passes
  rw [if_pos h]

theorem passes_of_not_force (h : args.forceType = false) :
    Passes args diskSd storageType ↔ storageType ∉ deviceType diskSd.storageType := by
  unfold Passes
  rw [if_neg (Bool.eq_false_iff.mp h)]

theorem suits_of_force (h : args.forceType = true) :
    Suits args diskSd storageType ↔
      deviceKind storageType = deviceKind diskSd.storageType := by
  unfold Suits
  rw [if_pos h]

theorem suits_of_not_force (h : args.forceType = false) :
    Suits args diskSd storageType ↔
      deviceKind storageType ≠ deviceKind diskSd.storageType := by
  unfold Suits
  rw [if_neg (Bool.eq_false_iff.mp h)]

theorem passes_iff : Passes args diskSd storageType ↔
    (args.forceType = true → diskSd.storageType = storageType) ∧
      (args.forceType = false → storageType ∉ deviceType diskSd.storageType) := by
  cases hforce : args.forceType with
  | true =>
    rw [passes_of_force hforce]
    exact ⟨fun h => ⟨fun _ => h.symm, nofun⟩, fun h => (h.1 rfl).symm⟩
  | false =>
    rw [passes_of_not_force hforce]
    exact ⟨fun h => ⟨nofun, fun _ => h⟩, fun h => h.2 rfl⟩

/-- The `continue`s of the loop, one after the other. -/
theorem appends_eq_true_iff :
    appends args diskSd.id diskSd.storageType sd = true ↔ Appended args diskSd sd := by
  have hcontinue : ∀ (c : Prop) [Decidable c] (b : Bool),
      (if c then false else b) = true ↔ ¬ c ∧ b = true := by
    intro c _ b
    by_cases hc : c
    · rw [if_pos hc]
      exact iff_of_false Bool.false_ne_true fun h => h.1 hc
    · rw [if_neg hc]
      exact (and_iff_right hc).symm
  unfold appends
  simp only [Bool.if_false_right, hcontinue, Bool.and_eq_true, bne_iff_ne, beq_iff_eq,
    decide_eq_true_iff, Bool.not_eq_true', and_true, not_and, not_not]
  constructor
  · rintro ⟨⟨⟨hother, hactive⟩, hdata⟩, hrequested, hsame, hdevice, hignored⟩
    exact
      { other := hother
        usable :=
          { active := hactive
            data := hdata
            requested := hrequested
            notIgnored := hignored }
        passes := passes_iff.mpr ⟨hsame, hdevice⟩ }
  · intro h
    obtain ⟨hsame, hdevice⟩ := passes_iff.mp h.passes
    exact ⟨⟨⟨h.other, h.usable.active⟩, h.usable.data⟩, h.usable.requested, hsame, hdevice,
      h.usable.notIgnored⟩

theorem mem_sdList {name : Text} :
    name ∈ sdList args diskSd.id diskSd.storageType dc.storageDomains ↔
      ∃ sd ∈ dc.storageDomains, Appended args diskSd sd ∧ sd.name = name := by
  unfold sdList
  simp only [List.mem_map, List.mem_filter, appends_eq_true_iff, and_assoc]

/-- What is returned for these names. -/
def chosen (random : Random) (names : List Text) : Option Text :=
  if names.isEmpty then none else choice random names

theorem getOtherStorageDomain_eq (random : Random) (h : Located args disk diskSd dc engine) :
    getOtherStorageDomain engine random args =
      .ok (chosen random (sdList args diskSd.id diskSd.storageType dc.storageDomains)) := by
  obtain ⟨rest, hplaced⟩ := List.head?_eq_some_iff.mp h.placed
  unfold getOtherStorageDomain chosen
  simp only [h.found, hplaced, h.domain, h.center, bind, Except.bind, Except.mapError]
  cases (sdList args diskSd.id diskSd.storageType dc.storageDomains).isEmpty with
  | true => rfl
  | false => rfl

theorem constant_lt (position length : Nat) (h : 0 < length) :
    (if position < length then position else 0) < length := by
  by_cases hposition : position < length
  · rw [if_pos hposition]
    exact hposition
  · rw [if_neg hposition]
    exact h

/-- The choice of this position, where there is one. -/
def Random.at (position : Nat) : Random where
  index := fun length => if position < length then position else 0
  index_lt := constant_lt position

/-- Every name can be chosen, and nothing else. -/
theorem forall_chosen_iff {P : Option Text → Prop} {names : List Text} :
    (∀ random, P (chosen random names)) ↔
      (names = [] → P none) ∧ ∀ name ∈ names, P (some name) := by
  unfold chosen choice
  cases names with
  | nil => exact ⟨fun h => ⟨fun _ => h (.at 0), nofun⟩, fun h _ => h.1 rfl⟩
  | cons first rest =>
    have hne : ¬ (first :: rest).isEmpty = true := Bool.false_ne_true
    simp only [if_neg hne]
    constructor
    · intro h
      refine ⟨nofun, fun name hname => ?_⟩
      obtain ⟨position, hposition, rfl⟩ := List.mem_iff_getElem.mp hname
      have hat := h (.at position)
      have hindex : (Random.at position).index (first :: rest).length = position :=
        if_pos hposition
      rw [hindex, List.getElem?_eq_getElem hposition] at hat
      exact hat
    · intro h random
      have hindex := random.index_lt (first :: rest).length (Nat.succ_pos _)
      rw [List.getElem?_eq_getElem hindex]
      exact h.2 _ (List.getElem_mem hindex)

/-! ## When it answers -/

/-- Each domain that the loop appends is eligible, and it appends one if there is an eligible
one. -/
theorem answers_iff_appended :
    (∀ random, Answers args disk diskSd dc
      (chosen random (sdList args diskSd.id diskSd.storageType dc.storageDomains))) ↔
    (∀ sd ∈ dc.storageDomains, Appended args diskSd sd → Eligible args disk diskSd sd) ∧
      ((∃ sd ∈ dc.storageDomains, Eligible args disk diskSd sd) →
        ∃ sd ∈ dc.storageDomains, Appended args diskSd sd) := by
  rw [forall_chosen_iff]
  constructor
  · rintro ⟨hnone, hsome⟩
    constructor
    · intro sd hsd happended
      have hname := mem_sdList.mpr ⟨sd, hsd, happended, rfl⟩
      obtain ⟨other, hother, hsame, heligible⟩ := (hsome sd.name hname).sound sd.name rfl
      obtain rfl := List.inj_on_of_nodup_map dc.names_nodup hother hsd hsame
      exact heligible
    · rintro ⟨sd, hsd, heligible⟩
      by_contra hnothing
      refine (hnone ?_).complete rfl sd hsd heligible
      refine List.eq_nil_iff_forall_not_mem.mpr fun name hname => ?_
      obtain ⟨other, hother, happended, -⟩ := mem_sdList.mp hname
      exact hnothing ⟨other, hother, happended⟩
  · rintro ⟨hsound, hcomplete⟩
    constructor
    · intro hnames
      refine { sound := nofun, complete := fun _ sd hsd heligible => ?_ }
      obtain ⟨other, hother, happended⟩ := hcomplete ⟨sd, hsd, heligible⟩
      have hname := mem_sdList.mpr ⟨other, hother, happended, rfl⟩
      rw [hnames] at hname
      exact List.not_mem_nil hname
    · intro name hname
      obtain ⟨sd, hsd, happended, rfl⟩ := mem_sdList.mp hname
      refine { sound := fun other hother => ?_, complete := fun hempty => ?_ }
      · exact ⟨sd, hsd, Option.some.inj hother, hsound sd hsd happended⟩
      · change (!sd.name.isEmpty) = false at hempty
        rw [sd.named] at hempty
        exact nomatch hempty

/-! ### Kinds -/

theorem mem_fileDevices_iff : storageType ∈ fileDevices ↔ deviceKind storageType = .file := by
  unfold deviceKind
  by_cases hfile : storageType ∈ fileDevices
  · rw [if_pos hfile]
    exact iff_of_true hfile rfl
  · rw [if_neg hfile]
    refine iff_of_false hfile ?_
    by_cases hblock : storageType ∈ blockDevices
    · rw [if_pos hblock]
      exact nofun
    · rw [if_neg hblock]
      exact nofun

theorem not_mem_fileDevices_of_block (h : storageType ∈ blockDevices) :
    storageType ∉ fileDevices := by
  have hapart : ∀ block ∈ blockDevices, block ∉ fileDevices := by decide
  exact hapart storageType h

theorem mem_blockDevices_iff : storageType ∈ blockDevices ↔ deviceKind storageType = .block := by
  unfold deviceKind
  by_cases hblock : storageType ∈ blockDevices
  · rw [if_neg (not_mem_fileDevices_of_block hblock), if_pos hblock]
    exact iff_of_true hblock rfl
  · rw [if_neg hblock]
    refine iff_of_false hblock ?_
    by_cases hfile : storageType ∈ fileDevices
    · rw [if_pos hfile]
      exact nofun
    · rw [if_neg hfile]
      exact nofun

/-- Without `force_type`, a disk on a file domain goes to what is no file domain, any other disk to
what is no block domain. -/
theorem not_mem_deviceType_iff {diskSdType : Text} :
    storageType ∉ deviceType diskSdType ↔
      (deviceKind diskSdType = .file → deviceKind storageType ≠ .file) ∧
        (deviceKind diskSdType ≠ .file → deviceKind storageType ≠ .block) := by
  unfold deviceType
  by_cases hfile : diskSdType ∈ fileDevices
  · rw [if_pos hfile, mem_fileDevices_iff]
    have hkind := mem_fileDevices_iff.mp hfile
    exact ⟨fun h => ⟨fun _ => h, fun hne => absurd hkind hne⟩, fun h => h.1 hkind⟩
  · rw [if_neg hfile, mem_blockDevices_iff]
    have hkind := mt mem_fileDevices_iff.mpr hfile
    exact ⟨fun h => ⟨fun heq => absurd heq hkind, fun _ => h⟩, fun h => h.2 hkind⟩

/-- A type that passes suits, unless neither list has it nor that of the disk's domain. -/
theorem Suits.of_passes (h : Passes args diskSd storageType)
    (hneither : args.forceType = false → deviceKind diskSd.storageType = .neither →
      deviceKind storageType ≠ .neither) : Suits args diskSd storageType := by
  cases hforce : args.forceType with
  | true =>
    rw [suits_of_force hforce, (passes_of_force hforce).mp h]
  | false =>
    rw [suits_of_not_force hforce]
    obtain ⟨hfile, hother⟩ := not_mem_deviceType_iff.mp ((passes_of_not_force hforce).mp h)
    cases hkind : deviceKind diskSd.storageType with
    | file => exact hfile hkind
    | block =>
      refine hother ?_
      rw [hkind]
      exact nofun
    | neither => exact hneither hforce hkind

/-- Without `force_type`, a type that suits passes, unless it is a block type and neither list has
that of the disk's domain. -/
theorem Passes.of_suits (hforce : args.forceType = false) (h : Suits args diskSd storageType)
    (hblock : deviceKind diskSd.storageType = .neither → deviceKind storageType ≠ .block) :
    Passes args diskSd storageType := by
  have hkinds := (suits_of_not_force hforce).mp h
  refine (passes_of_not_force hforce).mpr
    (not_mem_deviceType_iff.mpr ⟨fun hfile => ?_, fun hnotFile => ?_⟩)
  · rw [hfile] at hkinds
    exact hkinds
  · cases hkind : deviceKind diskSd.storageType with
    | file => exact absurd hkind hnotFile
    | block =>
      rw [hkind] at hkinds
      exact hkinds
    | neither => exact hblock hkind

/-- What passes and suits is a file type, if neither list has that of the disk's domain. -/
theorem Passes.deviceKind_eq_file (hforce : args.forceType = false)
    (hkind : deviceKind diskSd.storageType = .neither) (h : Passes args diskSd storageType)
    (hsuits : Suits args diskSd storageType) : deviceKind storageType = .file := by
  have hnotBlock := (not_mem_deviceType_iff.mp ((passes_of_not_force hforce).mp h)).2
  have hnotNeither := (suits_of_not_force hforce).mp hsuits
  rw [hkind] at hnotBlock hnotNeither
  cases hother : deviceKind storageType with
  | file => rfl
  | block => exact absurd hother (hnotBlock nofun)
  | neither => exact absurd hother hnotNeither

/-! ### Both directions -/

/-- A domain that the disk is not on is not its first one. -/
theorem Free.other (hplaced : disk.storageDomains.head? = some diskSd.id)
    (h : Free args disk sd) : sd.id ≠ diskSd.id := by
  intro hid
  exact h.apart (hid ▸ List.mem_of_head? hplaced)

theorem Unambiguous.sound (h : Unambiguous args disk diskSd dc) (hsd : sd ∈ dc.storageDomains)
    (happended : Appended args diskSd sd) : Eligible args disk diskSd sd := by
  have hfree : Free args disk sd :=
    { usable := happended.usable
      apart := fun hmem => happended.other
        (h.placements sd hsd happended.usable happended.passes hmem) }
  exact
    { free := hfree
      suits := .of_passes happended.passes fun hforce hkind => h.neither hforce hkind sd hsd hfree }

/-- A free domain is appended if its type passes. -/
theorem Free.appended (hplaced : disk.storageDomains.head? = some diskSd.id)
    (h : Free args disk sd) (hpasses : Passes args diskSd sd.storageType) :
    Appended args diskSd sd :=
  { other := h.other hplaced, usable := h.usable, passes := hpasses }

theorem Unambiguous.complete (hplaced : disk.storageDomains.head? = some diskSd.id)
    (h : Unambiguous args disk diskSd dc) (hsd : sd ∈ dc.storageDomains)
    (heligible : Eligible args disk diskSd sd) :
    ∃ sd ∈ dc.storageDomains, Appended args diskSd sd := by
  cases hforce : args.forceType with
  | true =>
    have hkind := (suits_of_force hforce).mp heligible.suits
    obtain ⟨other, hother, hfree, htype⟩ := h.sameType hforce ⟨sd, hsd, heligible.free, hkind⟩
    exact ⟨other, hother, hfree.appended hplaced ((passes_of_force hforce).mpr htype)⟩
  | false =>
    by_cases hblock : deviceKind diskSd.storageType = .neither ∧
        deviceKind sd.storageType = .block
    · obtain ⟨other, hother, hfree, hfile⟩ :=
        h.block hforce hblock.1 ⟨sd, hsd, heligible.free, hblock.2⟩
      have hsuits : Suits args diskSd other.storageType := by
        rw [suits_of_not_force hforce, hfile, hblock.1]
        exact nofun
      refine ⟨other, hother, hfree.appended hplaced (.of_suits hforce hsuits fun _ => ?_)⟩
      rw [hfile]
      exact nofun
    · exact ⟨sd, hsd, heligible.free.appended hplaced
        (.of_suits hforce heligible.suits fun hkind hsdBlock => hblock ⟨hkind, hsdBlock⟩)⟩

/-- Where the loop appends what is eligible, and something if anything is, its tests make no
difference. -/
theorem Unambiguous.of_appended (hplaced : disk.storageDomains.head? = some diskSd.id)
    (hsound : ∀ sd ∈ dc.storageDomains, Appended args diskSd sd → Eligible args disk diskSd sd)
    (hcomplete : (∃ sd ∈ dc.storageDomains, Eligible args disk diskSd sd) →
      ∃ sd ∈ dc.storageDomains, Appended args diskSd sd) :
    Unambiguous args disk diskSd dc := by
  refine { placements := ?_, sameType := ?_, neither := ?_, block := ?_ }
  · intro sd hsd husable hpasses hmem
    by_contra hother
    have happended : Appended args diskSd sd :=
      { other := hother, usable := husable, passes := hpasses }
    exact (hsound sd hsd happended).free.apart hmem
  · rintro hforce ⟨sd, hsd, hfree, hkind⟩
    obtain ⟨other, hother, happended⟩ :=
      hcomplete ⟨sd, hsd, hfree, (suits_of_force hforce).mpr hkind⟩
    exact ⟨other, hother, (hsound other hother happended).free,
      (passes_of_force hforce).mp happended.passes⟩
  · intro hforce hkind sd hsd hfree hneither
    have hpasses : Passes args diskSd sd.storageType := by
      refine (passes_of_not_force hforce).mpr (not_mem_deviceType_iff.mpr ⟨?_, fun _ => ?_⟩)
      · rw [hkind]
        exact nofun
      · rw [hneither]
        exact nofun
    have heligible := hsound sd hsd (hfree.appended hplaced hpasses)
    exact (suits_of_not_force hforce).mp heligible.suits (hneither.trans hkind.symm)
  · rintro hforce hkind ⟨sd, hsd, hfree, hblock⟩
    have hsuits : Suits args diskSd sd.storageType := by
      rw [suits_of_not_force hforce, hblock, hkind]
      exact nofun
    obtain ⟨other, hother, happended⟩ := hcomplete ⟨sd, hsd, hfree, hsuits⟩
    have heligible := hsound other hother happended
    exact ⟨other, hother, heligible.free,
      happended.passes.deviceKind_eq_file hforce hkind heligible.suits⟩

end

/-- Whatever is chosen, the answer is what was asked for, exactly when the tests of the loop make
no difference. -/
theorem unambiguous_iff {args : SearchArgs} {disk : Disk} {diskSd : StorageDomain} {dc : DataCenter}
    {engine : Engine} (h : Located args disk diskSd dc engine) :
    (∀ random, ∃ answer, getOtherStorageDomain engine random args = .ok answer ∧
      Answers args disk diskSd dc answer) ↔ Unambiguous args disk diskSd dc := by
  have hanswer : (∀ random, ∃ answer, getOtherStorageDomain engine random args = .ok answer ∧
      Answers args disk diskSd dc answer) ↔
      ∀ random, Answers args disk diskSd dc
        (chosen random (sdList args diskSd.id diskSd.storageType dc.storageDomains)) := by
    refine forall_congr' fun random => ?_
    rw [getOtherStorageDomain_eq random h]
    constructor
    · rintro ⟨answer, hanswer, hright⟩
      exact Except.ok.inj hanswer ▸ hright
    · exact fun hright => ⟨_, rfl, hright⟩
  rw [hanswer, answers_iff_appended]
  constructor
  · exact fun hboth => .of_appended h.placed hboth.1 hboth.2
  · intro hunambiguous
    refine ⟨fun sd hsd happended => hunambiguous.sound hsd happended, ?_⟩
    rintro ⟨sd, hsd, heligible⟩
    exact hunambiguous.complete h.placed hsd heligible

theorem named_of_prefix (id : Text) : ("sd_".toList ++ id).isEmpty = false := rfl

/-- An active data domain. -/
def dataDomain (id storageType : Text) : StorageDomain where
  id := id
  name := "sd_".toList ++ id
  status := "active".toList
  type := "data".toList
  storageType := storageType
  named := named_of_prefix id

theorem names_nodup_pair (storageType : Text) :
    ([dataDomain "1".toList "nfs".toList, dataDomain "2".toList storageType].map
      StorageDomain.name).Nodup := by
  have hnames : ["sd_1".toList, "sd_2".toList].Nodup := by decide
  exact hnames

/-- A data center with two domains, the first on NFS. -/
def centerWith (storageType : Text) : DataCenter where
  storageDomains := [dataDomain "1".toList "nfs".toList, dataDomain "2".toList storageType]
  names_nodup := names_nodup_pair storageType

/-- A disk on these storage domains. -/
def diskOn (storageDomains : List Text) : Disk where
  id := "d1".toList
  name := "disk_1".toList
  storageDomains := storageDomains

/-- An engine with one disk. -/
def engineWith (storageType : Text) (storageDomains : List Text) : Engine where
  disks := [diskOn storageDomains]
  vms := []
  storageDomains := [dataDomain "1".toList "nfs".toList, dataDomain "2".toList storageType]
  dataCenters := [centerWith storageType]

/-- The search for a disk by its name. -/
def diskOne : SearchArgs where
  disk := "disk_1".toList

theorem located_diskOne (storageType : Text) (rest : List Text) :
    Located diskOne (diskOn ("1".toList :: rest)) (dataDomain "1".toList "nfs".toList)
      (centerWith storageType) (engineWith storageType ("1".toList :: rest)) where
  found := rfl
  placed := rfl
  domain := rfl
  center := rfl

/-- With two domains on NFS, a disk on the first goes to the second. -/
theorem answers_nfs : ∃ answer,
    getOtherStorageDomain (engineWith "nfs".toList ["1".toList]) (.at 0) diskOne = .ok answer ∧
      Answers diskOne (diskOn ["1".toList]) (dataDomain "1".toList "nfs".toList)
        (centerWith "nfs".toList) answer := by
  have hsame : (∃ sd ∈ (centerWith "nfs".toList).storageDomains, Free diskOne
      (diskOn ["1".toList]) sd ∧ deviceKind sd.storageType = deviceKind "nfs".toList) →
      ∃ sd ∈ (centerWith "nfs".toList).storageDomains, Free diskOne
        (diskOn ["1".toList]) sd ∧ sd.storageType = "nfs".toList := by
    rintro ⟨sd, hsd, hfree, -⟩
    refine ⟨sd, hsd, hfree, ?_⟩
    rcases List.mem_cons.mp hsd with rfl | hrest
    · rfl
    · rw [List.mem_singleton.mp hrest]
      rfl
  refine (unambiguous_iff (located_diskOne "nfs".toList [])).mpr ?_ (.at 0)
  exact
    { placements := fun sd _ _ _ hmem => List.mem_singleton.mp hmem
      sameType := fun _ => hsame
      neither := nofun
      block := nofun }

/-- A copy of a template's disk is on the second domain: it is chosen all the same.  A domain on
GlusterFS is no choice for a disk on NFS. -/
theorem placement_chosen :
    getOtherStorageDomain (engineWith "nfs".toList ["1".toList, "2".toList]) (.at 0) diskOne =
        .ok (some "sd_2".toList) ∧
      ¬ Answers diskOne (diskOn ["1".toList, "2".toList]) (dataDomain "1".toList "nfs".toList)
        (centerWith "nfs".toList) (some "sd_2".toList) ∧
      getOtherStorageDomain (engineWith "glusterfs".toList ["1".toList]) (.at 0) diskOne =
        .ok none ∧
      ¬ Answers diskOne (diskOn ["1".toList]) (dataDomain "1".toList "nfs".toList)
        (centerWith "glusterfs".toList) none := by
  refine ⟨rfl, fun h => ?_, rfl, fun h => ?_⟩
  · obtain ⟨sd, hsd, hname, heligible⟩ := h.sound _ rfl
    rcases List.mem_cons.mp hsd with rfl | hrest
    · exact heligible.free.apart List.mem_cons_self
    · obtain rfl := List.mem_singleton.mp hrest
      exact heligible.free.apart (List.mem_cons_of_mem _ List.mem_cons_self)
  · refine h.complete rfl (dataDomain "2".toList "glusterfs".toList)
      (List.mem_cons_of_mem _ List.mem_cons_self) ?_
    exact
      { free :=
          { usable :=
              { active := rfl
                data := rfl
                requested := nofun
                notIgnored := List.not_mem_nil }
            apart := by decide }
        suits := rfl }

end OvirtArt.TestsLib.OtherStorageDomain
