import OvirtArt.Storage.UpdateConfFile

set_option autoImplicit false

/-!
# The lists of the devices that share a target

The writes of a pass are those of the lists of the devices, target by target.  The lists
of a target are aligned exactly if its devices all have the same lists, and nothing else
is written to them.

Directories and LUNs are dealt with alike: a device has a value for each of the lists of its kind.
-/

namespace OvirtArt.Storage.Wrapper

open OvirtArt.Foundation

/-! ## The lists of a device -/

/-- The lists of a target. -/
inductive ListKey where
  | address
  | path
  | realStorageType
  | target
  | uuid
  deriving DecidableEq

/-- What is added to the key of a target for one of its lists. -/
def ListKey.extension : ListKey → String
  | address => "_address"
  | path => "_path"
  | realStorageType => "_real_storage_type"
  | target => "_target"
  | uuid => ""

/-- A device that was created, with the address of its server. -/
inductive Device where
  | directory (type : NasType) (ip : Option String) (path : String)
  | lun (type : SanType) (ip : Option String) (info : LunInfo)

namespace Device

/-- The type of a device. -/
def type : Device → DevType
  | directory type _ _ => .nas type
  | lun type _ _ => .san type

/-- The server of a device. -/
def ip : Device → Option String
  | directory _ ip _ => ip
  | lun _ ip _ => ip

/-- The data of a device for one of the lists. -/
def data : ListKey → Device → Option (Option String)
  | .address, device => some device.ip
  | .path, directory _ _ path => some (some path)
  | .path, lun _ _ _ => none
  | .realStorageType, directory type _ _ =>
    if hasRealStorageType type then some (some type.name) else none
  | .realStorageType, lun _ _ _ => none
  | .target, directory _ _ _ => none
  | .target, lun _ _ info => some (some info.target)
  | .uuid, directory _ _ _ => none
  | .uuid, lun _ _ info => some (some info.uuid)

end Device

/-- The lists that are written for a type of devices. -/
def listKeys : DevType → List ListKey
  | .nas type =>
    if hasRealStorageType type then [.address, .path, .realStorageType] else [.address, .path]
  | .san _ => [.address, .target, .uuid]

theorem data_isSome_iff {key : ListKey} {device : Device} :
    (device.data key).isSome = true ↔ key ∈ listKeys device.type := by
  cases device with
  | directory type ip path =>
    cases type <;> cases key <;> simp [Device.data, Device.type, listKeys, hasRealStorageType]
  | lun type ip info =>
    cases key <;> simp [Device.data, Device.type, listKeys]

theorem nodup_listKeys (type : DevType) : (listKeys type).Nodup := by
  cases type with
  | nas type => cases type <;> decide
  | san type => cases type <;> decide

/-- The address of the server of a target. -/
def StorageUtils.ipAt (self : StorageUtils) (type : DevType) (target : String) : Option String :=
  ((self.storages type).lookup target).bind SectionParams.ip

/-- The devices that were created for a target. -/
def StorageUtils.devicesAt (self : StorageUtils) (target : String) : DevType → List Device
  | .nas type =>
    (((self.paths type).lookup target).getD []).map
      (.directory type (self.ipAt (.nas type) target))
  | .san type =>
    (((self.luns type).lookup target).getD []).map (.lun type (self.ipAt (.san type) target))

/-- The devices of all types, in the order of the addresses. -/
def StorageUtils.devicesFor (self : StorageUtils) (order : List DevType) (target : String) :
    List Device := order.flatMap (self.devicesAt target)

/-- The devices that were set up: as many for each target as the section asks for. -/
structure SetUp where
  utils : StorageUtils
  directories : ∀ type target devices, (utils.paths type).lookup target = some devices →
    ∃ params, (utils.storages (.nas type)).lookup target = some params ∧
      params.total = devices.length
  blocks : ∀ type target devices, (utils.luns type).lookup target = some devices →
    ∃ params, (utils.storages (.san type)).lookup target = some params ∧
      params.total = devices.length

section

variable {self : StorageUtils} {type : DevType} {target : String} {key : ListKey}

theorem mem_nonEmptyKeys {δ : Type} {devices : Sections (List δ)} :
    target ∈ StorageUtils.nonEmptyKeys devices ↔ (devices.lookup target).getD [] ≠ [] := by
  unfold StorageUtils.nonEmptyKeys
  rw [List.mem_map]
  constructor
  · rintro ⟨⟨target, list⟩, hmem, rfl⟩
    obtain ⟨hentry, hne⟩ := List.mem_filter.mp hmem
    rw [show devices.lookup target = some list from AList.mem_lookup_iff.mpr hentry]
    simpa using hne
  · intro h
    cases hlookup : devices.lookup target with
    | none => exact absurd (by rw [hlookup]; rfl) h
    | some list =>
      refine ⟨⟨target, list⟩, List.mem_filter.mpr ⟨AList.mem_lookup_iff.mp hlookup, ?_⟩, rfl⟩
      rw [hlookup] at h
      simpa using h

theorem nodup_nonEmptyKeys {δ : Type} (devices : Sections (List δ)) :
    (StorageUtils.nonEmptyKeys devices).Nodup :=
  List.Nodup.sublist (List.filter_sublist.map Sigma.fst) devices.nodupKeys

theorem nodup_targets (self : StorageUtils) (type : DevType) : (self.targets type).Nodup := by
  cases type with
  | nas type => exact nodup_nonEmptyKeys _
  | san type => exact nodup_nonEmptyKeys _

theorem mem_targets_iff : target ∈ self.targets type ↔ self.devicesAt target type ≠ [] := by
  cases type with
  | nas type =>
    unfold StorageUtils.targets StorageUtils.devicesAt
    rw [mem_nonEmptyKeys, Ne, Ne, List.map_eq_nil_iff]
  | san type =>
    unfold StorageUtils.targets StorageUtils.devicesAt
    rw [mem_nonEmptyKeys, Ne, Ne, List.map_eq_nil_iff]

theorem type_of_mem_devicesAt {device : Device} (h : device ∈ self.devicesAt target type) :
    device.type = type := by
  cases type with
  | nas type =>
    obtain ⟨path, _, rfl⟩ := List.mem_map.mp h
    rfl
  | san type =>
    obtain ⟨info, _, rfl⟩ := List.mem_map.mp h
    rfl

theorem ip_of_mem_devicesAt {device : Device} (h : device ∈ self.devicesAt target type) :
    device.ip = self.ipAt type target := by
  cases type with
  | nas type =>
    obtain ⟨path, _, rfl⟩ := List.mem_map.mp h
    rfl
  | san type =>
    obtain ⟨info, _, rfl⟩ := List.mem_map.mp h
    rfl

/-- The data of the devices of a type for one of the lists. -/
def StorageUtils.listOf (self : StorageUtils) (type : DevType) (target : String)
    (key : ListKey) : List (Option String) :=
  (self.devicesAt target type).filterMap (Device.data key)

theorem length_listOf (h : key ∈ listKeys type) :
    (self.listOf type target key).length = (self.devicesAt target type).length := by
  unfold StorageUtils.listOf
  rw [List.length_filterMap_eq_countP, List.countP_eq_length]
  intro device hmem
  rw [data_isSome_iff, type_of_mem_devicesAt hmem]
  exact h

theorem listOf_eq_nil (h : key ∉ listKeys type) : self.listOf type target key = [] := by
  unfold StorageUtils.listOf
  rw [List.filterMap_eq_nil_iff]
  intro device hmem
  rw [← Option.not_isSome_iff_eq_none, data_isSome_iff, type_of_mem_devicesAt hmem]
  exact h

theorem listOf_ne_nil (h : key ∈ listKeys type) (hmem : target ∈ self.targets type) :
    self.listOf type target key ≠ [] := by
  intro hnil
  have hlength := @length_listOf self type target key h
  rw [hnil] at hlength
  exact mem_targets_iff.mp hmem (List.eq_nil_of_length_eq_zero hlength.symm)

/-! ## The writes -/

/-- The writes for a target of a type. -/
def StorageUtils.targetWrites (self : StorageUtils) (type : DevType) (target : String) :
    List ConfWrite :=
  (listKeys type).map fun key => ⟨target, key.extension, self.listOf type target key⟩

/-- The writes for the devices on storage servers. -/
def StorageUtils.netWrites (self : StorageUtils) (order : List DevType) : List ConfWrite :=
  order.flatMap fun type => (self.targets type).flatMap (self.targetWrites type)

/-- The write for a target of local storage. -/
def StorageUtils.localWrite (self : StorageUtils) (target : String) : ConfWrite :=
  ⟨target, "_path", ((self.localPaths.lookup target).getD []).map some⟩

/-- The writes of a pass. -/
def StorageUtils.confWrites (self : StorageUtils) (order : List DevType) : List ConfWrite :=
  self.netWrites order ++ self.localTargets.map self.localWrite

theorem listOf_address {params : SectionParams}
    (hparams : (self.storages type).lookup target = some params)
    (htotal : params.total = (self.devicesAt target type).length) :
    self.listOf type target .address = List.replicate params.total params.ip := by
  unfold StorageUtils.listOf
  rw [htotal, List.eq_replicate_iff]
  refine ⟨?_, fun value hvalue => ?_⟩
  · rw [List.length_filterMap_eq_countP, List.countP_eq_length]
    exact fun _ _ => rfl
  · obtain ⟨device, hmem, hdata⟩ := List.mem_filterMap.mp hvalue
    have hip : device.ip = params.ip := by
      rw [ip_of_mem_devicesAt hmem, StorageUtils.ipAt, hparams]
      rfl
    rw [← hip]
    exact (Option.some.inj hdata).symm

/-- The section of a target asks for as many devices as there are. -/
theorem exists_params (setUp : SetUp) {type : DevType} {target : String}
    (hmem : target ∈ setUp.utils.targets type) :
    ∃ params, (setUp.utils.storages type).lookup target = some params ∧
      params.total = (setUp.utils.devicesAt target type).length := by
  rw [mem_targets_iff] at hmem
  cases type with
  | nas type =>
    simp only [StorageUtils.devicesAt] at hmem ⊢
    cases hlookup : (setUp.utils.paths type).lookup target with
    | none =>
      rw [hlookup] at hmem
      exact absurd rfl hmem
    | some devices =>
      obtain ⟨params, hparams, htotal⟩ := setUp.directories type target devices hlookup
      exact ⟨params, hparams, by rw [htotal, List.length_map, Option.getD_some]⟩
  | san type =>
    simp only [StorageUtils.devicesAt] at hmem ⊢
    cases hlookup : (setUp.utils.luns type).lookup target with
    | none =>
      rw [hlookup] at hmem
      exact absurd rfl hmem
    | some devices =>
      obtain ⟨params, hparams, htotal⟩ := setUp.blocks type target devices hlookup
      exact ⟨params, hparams, by rw [htotal, List.length_map, Option.getD_some]⟩

theorem listOf_path (type : NasType) :
    self.listOf (.nas type) target .path =
      (((self.paths type).lookup target).getD []).map some := by
  unfold StorageUtils.listOf StorageUtils.devicesAt
  rw [List.filterMap_map, ← List.filterMap_eq_map]
  rfl

theorem listOf_realStorageType {type : NasType} (h : hasRealStorageType type = true) :
    self.listOf (.nas type) target .realStorageType =
      List.replicate (self.devicesAt target (.nas type)).length (some type.name) := by
  unfold StorageUtils.listOf StorageUtils.devicesAt
  rw [List.filterMap_map, List.length_map, ← List.map_const', ← List.filterMap_eq_map]
  refine congrArg (fun f => List.filterMap f _) (funext fun path => ?_)
  exact if_pos h

theorem listOf_target (type : SanType) :
    self.listOf (.san type) target .target =
      (((self.luns type).lookup target).getD []).map fun device => some device.target := by
  unfold StorageUtils.listOf StorageUtils.devicesAt
  rw [List.filterMap_map, ← List.filterMap_eq_map]
  rfl

theorem listOf_uuid (type : SanType) :
    self.listOf (.san type) target .uuid =
      (((self.luns type).lookup target).getD []).map fun device => some device.uuid := by
  unfold StorageUtils.listOf StorageUtils.devicesAt
  rw [List.filterMap_map, ← List.filterMap_eq_map]
  rfl

end

/-- The body of the inner loop makes the writes of its target. -/
theorem updateTarget_eq (setUp : SetUp) (pass : Pass) {type : DevType} {target : String}
    (hmem : target ∈ setUp.utils.targets type) (config : Config) :
    updateTarget pass setUp.utils type config target =
      runWrites pass (setUp.utils.targetWrites type target) config := by
  obtain ⟨params, hparams, htotal⟩ := exists_params setUp hmem
  have haddress := listOf_address hparams htotal
  unfold updateTarget runWrites StorageUtils.targetWrites
  rw [hparams]
  cases type with
  | nas type =>
    cases hreal : hasRealStorageType type with
    | true =>
      have hlist := @listOf_realStorageType setUp.utils target type hreal
      rw [← htotal] at hlist
      simp only [listKeys, hreal, if_true, List.map_cons, List.map_nil, List.foldlM_cons,
        List.foldlM_nil, bind_pure, haddress, listOf_path, hlist]
      rfl
    | false =>
      simp only [listKeys, hreal, Bool.false_eq_true, if_false, List.map_cons, List.map_nil,
        List.foldlM_cons, List.foldlM_nil, haddress, listOf_path]
      rfl
  | san type =>
    simp only [listKeys, List.map_cons, List.map_nil, List.foldlM_cons, List.foldlM_nil,
      bind_pure, haddress, listOf_target, listOf_uuid]
    rfl

/-- A pass makes the writes of all targets. -/
theorem updatePass_eq (setUp : SetUp) (order : List DevType) (pass : Pass) (config : Config) :
    updatePass order pass setUp.utils config =
      runWrites pass (setUp.utils.confWrites order) config := by
  have hnet : order.foldlM (fun config type =>
      (setUp.utils.targets type).foldlM (updateTarget pass setUp.utils type) config) config =
        runWrites pass (setUp.utils.netWrites order) config := by
    unfold runWrites StorageUtils.netWrites
    rw [foldlM_flatMap]
    refine foldlM_congr fun type _ config => ?_
    rw [foldlM_flatMap]
    exact foldlM_congr fun target hmem config => updateTarget_eq setUp pass hmem config
  unfold updatePass runWrites StorageUtils.confWrites
  rw [hnet, List.foldlM_append]
  refine congrArg (Except.bind _) (funext fun config => ?_)
  rw [List.foldlM_map]
  rfl

theorem keyValue_ne_nil {self : StorageUtils} {order : List DevType} {write : ConfWrite}
    (h : write ∈ self.confWrites order) : write.keyValue ≠ [] := by
  unfold StorageUtils.confWrites StorageUtils.netWrites at h
  rcases List.mem_append.mp h with hnet | hlocal
  · obtain ⟨type, _, hrest⟩ := List.mem_flatMap.mp hnet
    obtain ⟨target, htarget, hwrite⟩ := List.mem_flatMap.mp hrest
    obtain ⟨key, hkey, rfl⟩ := List.mem_map.mp hwrite
    exact listOf_ne_nil hkey htarget
  · obtain ⟨target, htarget, rfl⟩ := List.mem_map.mp hlocal
    intro hnil
    exact mem_nonEmptyKeys.mp htarget (List.map_eq_nil_iff.mp hnil)

/-- The update returns exactly if all targets are well formed. -/
theorem updateConfFile_eq_ok_iff (setUp : SetUp) {order : List DevType}
    {config result : Config} :
    updateConfFile order setUp.utils config = .ok result ↔
      AllWellFormed (setUp.utils.confWrites order) ∧
        result = updated (setUp.utils.confWrites order) config := by
  rw [← runWrites_passes_iff fun _ => keyValue_ne_nil]
  unfold updateConfFile
  simp only [updatePass_eq, bind]
  rw [bind_eq_ok_iff]
  constructor
  · rintro ⟨cleaned, hclean, hrest⟩
    obtain ⟨filled, hfill, hcheck⟩ := bind_eq_ok_iff.mp hrest
    exact ⟨cleaned, filled, hclean, hfill, hcheck⟩
  · rintro ⟨cleaned, filled, hclean, hfill, hcheck⟩
    exact ⟨cleaned, hclean, bind_eq_ok_iff.mpr ⟨filled, hfill, hcheck⟩⟩

end OvirtArt.Storage.Wrapper
