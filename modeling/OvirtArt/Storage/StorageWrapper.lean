import Mathlib.Data.List.Infix
import OvirtArt.Foundation.Dictionaries
import OvirtArt.Foundation.Effects

set_option autoImplicit false

/-!
# `pytest_customization/_pytest_art/storagewrapper.py`: setting storage up and cleaning it

Devices are made on storage servers for the sections of the configuration, and removed
again.  The storage managers of the servers are not part of the repository; what their
calls do is given by an `Environment`.

An environment answers the call for each device by what is made, or by nothing.  The records, and
which server was chosen, are fields of `StorageUtils` as in the source; the log and the defaults
of the fields are left out.
-/

namespace OvirtArt.Storage.Wrapper

open OvirtArt.Foundation

/-! ## Types of devices -/

/-- The types of devices that are directories on a server. -/
inductive NasType where
  | gluster
  | nfs
  | pnfs
  | isoDomain
  | exportDomain
  deriving DecidableEq

/-- The types of devices that are blocks: `SAN_STORAGE_TYPES`. -/
inductive SanType where
  | iscsi
  | fcp
  deriving DecidableEq

/-- The types of devices that are made on a storage server. -/
inductive DevType where
  | nas (type : NasType)
  | san (type : SanType)
  deriving DecidableEq

/-- The types of all devices. -/
inductive Kind where
  | net (type : DevType)
  | localFs
  deriving DecidableEq

/-- The name of a type of directory in the configuration. -/
def NasType.name : NasType → String
  | gluster => "gluster"
  | nfs => "nfs"
  | pnfs => "pnfs"
  | isoDomain => "iso"
  | exportDomain => "export"

/-- The name of a type of LUN in the configuration. -/
def SanType.name : SanType → String
  | iscsi => "iscsi"
  | fcp => "fcp"

/-- The name of a type in the configuration. -/
def DevType.name : DevType → String
  | nas type => type.name
  | san type => type.name

/-- `DEV_TYPES`. -/
def devTypes : List DevType :=
  [.nas .gluster, .nas .nfs, .nas .isoDomain, .nas .exportDomain, .san .iscsi, .san .fcp,
    .nas .pnfs]

/-- `NAS_STORAGE_TYPES`. -/
def nasStorageTypes : List NasType := [.gluster, .nfs, .pnfs]

/-- `POSIXFS_COMPLIANT_TYPES`. -/
def posixfsCompliantTypes : List NasType := [.gluster, .nfs, .pnfs]

/-- `SAN_STORAGE_TYPES`. -/
def sanStorageTypes : List SanType := [.iscsi, .fcp]

/-- `DEVICES_TARGET_PATHS`, for what is on a storage server. -/
def devicesTargetPath : DevType → String
  | .nas .gluster => "PARAMETERS.data_domain"
  | .nas .nfs => "PARAMETERS.data_domain"
  | .nas .pnfs => "PARAMETERS.data_domain"
  | .nas .exportDomain => "PARAMETERS.export_domain"
  | .nas .isoDomain => "PARAMETERS.tests_iso_domain"
  | .san _ => "PARAMETERS.lun"

/-- `DEVICES_TARGET_PATHS['local']`. -/
def localTargetPath : String := "PARAMETERS.local_domain"

/-- `getDeviceTargetPath`. -/
def getDeviceTargetPath (targetPath : Option String) (default : String) : String :=
  match targetPath with
  | some path => if path = "" then default else path
  | none => default

/-! ## The storage servers -/

/-- A storage manager, which is connected to a server. -/
structure Manager where
  host : String
  className : String

namespace Manager

/-- `storageMngr.__class__.__name__.lower()`. -/
def lowerName (manager : Manager) : List Char := manager.className.toLower.toList

/-- `re.match('netapp|xtreamio', name, re.I)`. -/
def isSpecific (manager : Manager) : Bool :=
  "netapp".toList.isPrefixOf manager.lowerName || "xtreamio".toList.isPrefixOf manager.lowerName

/-- `re.search('(tgt|fcp)', name, re.I)`. -/
def mapsHosts (manager : Manager) : Bool :=
  decide ("tgt".toList <:+: manager.lowerName) || decide ("fcp".toList <:+: manager.lowerName)

/-- Whether the name of the host group has to be looked up. -/
def looksUpHostGroup (manager : Manager) : Bool :=
  decide ("solaris".toList <:+: manager.lowerName) ||
    decide (manager.lowerName = "newnetappstoragemanageriscsi".toList)

end Manager

/-- What is said of a LUN. -/
structure LunInfo where
  target : String
  uuid : String
  serial : String
  deriving DecidableEq

/-- The place of a device: the index in the list of its section. -/
structure Slot where
  kind : Kind
  storageSection : String
  index : Nat
  deriving DecidableEq

/-- The calls of a storage manager for one block device; those that raise have no value. -/
structure BlockCalls where
  createLun : Option LunInfo
  getInitiatorHostGroups : String → Option (List String)
  unmapInitiator : String → String → Bool
  mapLun : Bool
  getLun : Bool

/-- How `createLocalStorage` can end. -/
inductive LocalCall where
  | created
  | alreadyExists
  | failed
  deriving DecidableEq

/-- What the storage servers and managers do when they are called. -/
structure Environment where
  getIpAddressByHostName : String → String
  getStorageServer : String → Option Manager
  connect : String → Option String → Option Manager
  createDevice : Slot → Option String
  blockCalls : Slot → BlockCalls
  createLocalStorage : Slot → LocalCall
  timeStamp : Slot → String
  hostGroupsAtCleanup : SanType → String → Option (List String)

/-! ## The state -/

/-- `self.storages[type][section]`. -/
structure SectionParams where
  ip : Option String
  total : Nat
  capacity : String := "0"
  isSpecific : Bool := false
  deriving DecidableEq

/-- `self.storages['local'][section]`. -/
structure LocalParams where
  ip : String
  password : String
  paths : List String
  deriving DecidableEq

/-- A device on a server: the place it is made for, and by what it can be removed. -/
structure Made where
  slot : Slot
  manager : String
  host : String
  id : String
  deriving DecidableEq

/-- A call that creates a device, once the manager of its server is there: whether the device
is on the server afterwards, and whether the creation returned. -/
structure Call where
  device : Made
  onServer : Bool
  returned : Bool
  deriving DecidableEq

/-- A dictionary by the sections of the configuration. -/
abbrev Sections (β : Type) := AList fun _ : String => β

/-- The attributes of `StorageUtils`; the last two are the calls for creating and for
removing devices. -/
structure StorageUtils where
  storageType : String
  realStorageType : String
  loadBalancing : String
  isoExportDomainNas : Option String
  hostGroup : String
  vdsData : List (String × String)
  storages : DevType → Sections SectionParams
  localStorages : Sections LocalParams
  storageServers : AList fun _ : String => Manager := ∅
  paths : NasType → Sections (List String) := fun _ => ∅
  luns : SanType → Sections (List LunInfo) := fun _ => ∅
  localPaths : Sections (List String) := ∅
  calls : List Call := []
  removed : List Made := []

/-- What can be raised. -/
inductive StorageError where
  | keyError
  | stopIteration
  | indexError
  | failed
  deriving DecidableEq

/-- A method of `StorageUtils`. -/
abbrev Action (β : Type) := EStateM StorageError StorageUtils β

section

variable (env : Environment)

/-! ## Creating devices -/

/-- A call that raises has no value. -/
def returned {β : Type} (result : Option β) : Except StorageError β :=
  match result with
  | some value => .ok value
  | none => .error .failed

/-- `getStorageManager`. -/
def getStorageManager (storageType : String) (serverIp : Option String) : Action Manager := do
  let self ← get
  match self.storageServers.lookup storageType with
  | some manager => return manager
  | none => do
      let manager ← fromExcept (returned (env.connect storageType serverIp))
      set { self with storageServers := self.storageServers.insert storageType manager }
      return manager

/-- Logs a call to the storage API. -/
def logCall (call : Call) : Action Unit :=
  modify fun self => { self with calls := self.calls ++ [call] }

/-- `__create_nas_device`. -/
def createNasDevice (slot : Slot) (storageServerIp : Option String) (fsType : String) :
    Action String := do
  let storageMngr ← getStorageManager env fsType storageServerIp
  match env.createDevice slot with
  | none => do
      logCall ⟨⟨slot, fsType, storageMngr.host, ""⟩, false, false⟩
      throw .failed
  | some path => do
      logCall ⟨⟨slot, fsType, storageMngr.host, path⟩, true, true⟩
      return path

/-- By what a LUN is removed. -/
def LunInfo.lunId (lun : LunInfo) (isSpecific : Bool) : String :=
  if isSpecific then lun.serial else lun.uuid

/-- The initiators that a manager maps to a LUN. -/
def initiators (manager : Manager) (vdsData : List (String × String)) : List String :=
  if manager.mapsHosts then vdsData.map Prod.fst else vdsData.map Prod.snd

/-- An initiator is taken out of its other host groups. -/
def unmapOthers (calls : BlockCalls) (lunName initiator : String) : Except StorageError Unit :=
  match calls.getInitiatorHostGroups initiator with
  | none => .error .failed
  | some hostGroups =>
    if hostGroups.all fun hg => hg = lunName || calls.unmapInitiator hg initiator then .ok ()
    else .error .failed

/-- What is done with a LUN once it is there. -/
def finishLun (calls : BlockCalls) (manager : Manager) (lunName : String)
    (vdsData : List (String × String)) : Except StorageError Unit := do
  (initiators manager vdsData).forM fun initiator => unmapOthers calls lunName initiator
  returned (if calls.mapLun then some () else none)
  if manager.isSpecific && vdsData.isEmpty then .error .stopIteration
  else returned (if calls.getLun then some () else none)

/-- `storageServer['is_specific']` is set for a section. -/
def setIsSpecific (type : DevType) (storageSection : String) (isSpecific : Bool)
    (self : StorageUtils) : StorageUtils :=
  { self with
    storages := Function.update self.storages type
      (mapValues (fun key params =>
        if key = storageSection then { params with isSpecific := isSpecific } else params)
        (self.storages type)) }

/-- `__create_block_device`. -/
def createBlockDevice (type : SanType) (slot : Slot) (storageServerIp : Option String) :
    Action LunInfo := do
  let storageMngr ← getStorageManager env type.name storageServerIp
  match (env.blockCalls slot).createLun with
  | none => do
      logCall ⟨⟨slot, type.name, storageMngr.host, ""⟩, false, false⟩
      throw .failed
  | some lun => do
      modify (setIsSpecific (.san type) slot.storageSection storageMngr.isSpecific)
      let self ← get
      let device : Made :=
        ⟨slot, type.name, storageMngr.host, lun.lunId storageMngr.isSpecific⟩
      match finishLun (env.blockCalls slot) storageMngr self.hostGroup self.vdsData with
      | .error exception => do
          logCall ⟨device, true, false⟩
          throw exception
      | .ok () => do
          logCall ⟨device, true, true⟩
          return lun

/-- `__create_local_device`. -/
def createLocalDevice (slot : Slot) (server path : String) : Action String := do
  let path := path ++ "_" ++ env.timeStamp slot
  match env.createLocalStorage slot with
  | .created => do
      logCall ⟨⟨slot, "local", server, path⟩, true, true⟩
      return path
  | .alreadyExists => do
      logCall ⟨⟨slot, "local", server, path⟩, false, true⟩
      return path
  | .failed => do
      logCall ⟨⟨slot, "local", server, path⟩, false, false⟩
      throw .failed

/-! ## Setting up -/

/-- The devices of the sections are made one after the other; those of a section are
recorded when all of them are there. -/
def setupSections {π δ : Type} (total : π → Nat) (create : String → π → Nat → Action δ)
    (record : String → List δ → StorageUtils → StorageUtils)
    (sections : List (Sigma fun _ : String => π)) : Action Unit :=
  sections.forM fun params => do
    let devices ← (List.range (total params.2)).mapM (create params.1 params.2)
    modify (record params.1 devices)

/-- `self.nfs_devices[section] = devices`, and so on. -/
def recordPaths (type : NasType) (storageSection : String) (devices : List String)
    (self : StorageUtils) : StorageUtils :=
  { self with
    paths := Function.update self.paths type ((self.paths type).insert storageSection devices) }

/-- Stores the LUNs of a section. -/
def recordLuns (type : SanType) (storageSection : String) (devices : List LunInfo)
    (self : StorageUtils) : StorageUtils :=
  { self with
    luns := Function.update self.luns type ((self.luns type).insert storageSection devices) }

/-- Stores the local paths of a section. -/
def recordLocalPaths (storageSection : String) (devices : List String) (self : StorageUtils) :
    StorageUtils :=
  { self with localPaths := self.localPaths.insert storageSection devices }

/-- The sections of a type whose devices are directories on a server with this file
system. -/
def setupNasSections (type : NasType) (fsType : String) : Action Unit := do
  let self ← get
  setupSections SectionParams.total
    (fun storageSection params index =>
      createNasDevice env ⟨.net (.nas type), storageSection, index⟩ params.ip fsType)
    (recordPaths type) (self.storages (.nas type)).entries

/-- The body of `_storageSetupSAN`. -/
def setupSanSections (type : SanType) : Action Unit := do
  let self ← get
  setupSections SectionParams.total
    (fun storageSection params index =>
      createBlockDevice env type ⟨.net (.san type), storageSection, index⟩ params.ip)
    (recordLuns type) (self.storages (.san type)).entries

/-- `_storageSetupDAS`. -/
def storageSetupDAS : Action Unit := do
  let self ← get
  setupSections (fun params : LocalParams => params.paths.length)
    (fun storageSection params index =>
      createLocalDevice env ⟨.localFs, storageSection, index⟩ params.ip
        (params.paths.getD index ""))
    recordLocalPaths self.localStorages.entries

/-! ## Load balancing -/

/-- The type with a name. -/
def DevType.ofName (name : String) : Option DevType := devTypes.find? fun type => type.name = name

/-- `self.storages[stype] and self.storages[stype][targetDevPath]['total'] > 0`, where the
sections of local storage have no total. -/
def StorageUtils.isRequested (self : StorageUtils) (stype : String) : Except StorageError Bool :=
  match DevType.ofName stype with
  | some type =>
    if (self.storages type).keys = [] then .ok false
    else
      match (self.storages type).lookup (getDeviceTargetPath none (devicesTargetPath type)) with
      | none => .error .keyError
      | some params => .ok (0 < params.total)
  | none =>
    if stype = "local" ∧ self.localStorages.keys = [] then .ok false else .error .keyError

/-- `getStorageServer` and `createStorageManager`. -/
def selectServer (loadBalancing stype : String) : Except StorageError Manager :=
  if loadBalancing = "capacity" ∨ loadBalancing = "random" then
    returned (env.getStorageServer stype)
  else .error .failed

/-- The sections of a type get the address of a server. -/
def assignIp (host : String) (self : StorageUtils) (type : DevType) : StorageUtils :=
  { self with
    storages := Function.update self.storages type
      (mapValues (fun _ params => { params with ip := some host }) (self.storages type)) }

/-- The manager for a type, which is chosen if there is none yet. -/
def chosenManager (stype : String) : Action Manager := do
  let self ← get
  match self.storageServers.lookup stype with
  | some manager => return manager
  | none => do
      let manager ← fromExcept (selectServer env self.loadBalancing stype)
      set { self with storageServers := self.storageServers.insert stype manager }
      return manager

/-- A server is chosen for a type, and its address assigned to the sections. -/
def assignServer (stype : String) (dtypes : List DevType) : Action Unit := do
  let manager ← chosenManager env stype
  modify fun self => dtypes.foldl (assignIp manager.host) self

/-- The decorator `getStorageServers`, by the type that a server is chosen for and the types
whose sections get its address. -/
def getStorageServers (stype : Except StorageError String) (dtypes : List DevType)
    (f : Action Unit) : Action Unit := do
  let self ← get
  if self.loadBalancing = "" then f
  else do
    let stype ← fromExcept stype
    let requested ← fromExcept (self.isRequested stype)
    if requested then assignServer env stype dtypes else pure ()
    let self ← get
    if stype ∈ self.storageServers then f else pure ()

/-- `_storageSetupNAS`. -/
def storageSetupNAS (type : NasType) : Action Unit :=
  getStorageServers env (.ok type.name) [.nas type] (setupNasSections env type type.name)

/-- `_storageSetupSAN`. -/
def storageSetupSAN (type : SanType) : Action Unit :=
  getStorageServers env (.ok type.name) [.san type] (setupSanSections env type)

/-- `self.config[MAIN_SECTION][ISO_EXPORT_TYPE]`. -/
def StorageUtils.fsType (self : StorageUtils) : Except StorageError String :=
  match self.isoExportDomainNas with
  | some fsType => .ok fsType
  | none => .error .keyError

/-- `_storageSetupISOandExportDomains`. -/
def storageSetupISOandExportDomains : Action Unit := do
  let self ← get
  getStorageServers env self.fsType [.nas .isoDomain, .nas .exportDomain] do
    let fsType ← fromExcept self.fsType
    setupNasSections env .isoDomain fsType
    setupNasSections env .exportDomain fsType

/-- What is set up for each storage type. -/
def setupByType (storageType realStorageType : String) : Action Unit :=
  if storageType = "none" then do
    nasStorageTypes.forM (storageSetupNAS env)
    sanStorageTypes.forM (storageSetupSAN env)
    storageSetupDAS env
    (posixfsCompliantTypes.filter fun type => type ∉ nasStorageTypes).forM (storageSetupNAS env)
  else
    match nasStorageTypes.find? fun type => type.name = storageType with
    | some type => storageSetupNAS env type
    | none =>
      if storageType = "posixfs" then
        if realStorageType = "mixed" then posixfsCompliantTypes.forM (storageSetupNAS env)
        else
          (posixfsCompliantTypes.filter fun type => type.name = realStorageType).forM
            (storageSetupNAS env)
      else
        match sanStorageTypes.find? fun type => type.name = storageType with
        | some type => storageSetupSAN env type
        | none => if storageType = "localfs" then storageSetupDAS env else pure ()

/-- Whether there is an iso or an export domain to create. -/
def StorageUtils.createIsoExp (self : StorageUtils) : Bool :=
  [NasType.isoDomain, .exportDomain].any fun type =>
    (self.storages (.nas type)).entries.any fun params => 0 < params.2.total

/-- `storageSetup`. -/
def storageSetup : Action Unit := do
  let self ← get
  setupByType env self.storageType self.realStorageType
  let self ← get
  if self.createIsoExp then storageSetupISOandExportDomains env else pure ()

/-! ## Cleaning up -/

/-- The call of a removal, whose exceptions are caught. -/
def callRemoval (remove : Action Made) : Action Unit :=
  tryCatch (do
    let device ← remove
    modify fun self => { self with removed := self.removed ++ [device] }) fun _ => pure ()

/-- `__remove_nas_device`. -/
def removeNasDevice (slot : Slot) (storageServerIp : Option String) (path fsType : String) :
    Action Unit :=
  callRemoval do
    let storageMngr ← getStorageManager env fsType storageServerIp
    return ⟨slot, fsType, storageMngr.host, path⟩

/-- `__remove_block_device`. -/
def removeBlockDevice (slot : Slot) (type : SanType) (storageServerIp : Option String)
    (deviceId : String) : Action Unit :=
  callRemoval do
    let storageMngr ← getStorageManager env type.name storageServerIp
    return ⟨slot, type.name, storageMngr.host, deviceId⟩

/-- `__remove_local_device`. -/
def removeLocalDevice (slot : Slot) (server path : String) : Action Unit :=
  callRemoval (pure ⟨slot, "local", server, path⟩)

/-- `__unmap_initiators`, up to the calls whose exceptions are caught. -/
def unmapInitiators (type : SanType) (storageSection : String) (storageServerIp : Option String) :
    Action Unit := do
  let storageMngr ← getStorageManager env type.name storageServerIp
  let self ← get
  if (initiators storageMngr self.vdsData).isEmpty || !storageMngr.looksUpHostGroup then pure ()
  else
    match env.hostGroupsAtCleanup type storageSection with
    | none => throw .failed
    | some [] => throw .indexError
    | some (_ :: _) => pure ()

/-- The devices of the sections, as far as they were recorded, are removed one by one. -/
def cleanupSections {π δ : Type} (recorded : StorageUtils → Sections (List δ))
    (remove : String → π → Nat → δ → Action Unit) (afterwards : String → π → Action Unit)
    (sections : List (Sigma fun _ : String => π)) : Action Unit :=
  sections.forM fun params => do
    let self ← get
    match (recorded self).lookup params.1 with
    | none => pure ()
    | some devices => do
        devices.zipIdx.forM fun device => remove params.1 params.2 device.2 device.1
        if devices.isEmpty then pure () else afterwards params.1 params.2

/-- The devices of a type that are directories on a server with this file system. -/
def cleanupNasSections (type : NasType) (fsType : String) : Action Unit := do
  let self ← get
  cleanupSections (fun self => self.paths type)
    (fun storageSection params index path =>
      removeNasDevice env ⟨.net (.nas type), storageSection, index⟩ params.ip path fsType)
    (fun _ _ => pure ()) (self.storages (.nas type)).entries

/-- The LUNs of a type, in the sections with a number of them. -/
def cleanupSanSections (type : SanType) : Action Unit := do
  let self ← get
  cleanupSections (fun self => self.luns type)
    (fun storageSection params index lun =>
      removeBlockDevice env ⟨.net (.san type), storageSection, index⟩ type params.ip
        (lun.lunId params.isSpecific))
    (fun storageSection params => unmapInitiators env type storageSection params.ip)
    ((self.storages (.san type)).entries.filter fun params => 0 < params.2.total)

/-- The devices of local storage. -/
def cleanupLocalSections : Action Unit := do
  let self ← get
  cleanupSections (fun self => self.localPaths)
    (fun storageSection (params : LocalParams) index path =>
      removeLocalDevice ⟨.localFs, storageSection, index⟩ params.ip path)
    (fun _ _ => pure ()) self.localStorages.entries

/-- `storageCleanup`. -/
def storageCleanup : Action Unit := do
  nasStorageTypes.forM fun type => cleanupNasSections env type type.name
  sanStorageTypes.forM fun type => cleanupSanSections env type
  cleanupLocalSections
  let self ← get
  let fsType ← fromExcept self.fsType
  cleanupNasSections env .isoDomain fsType
  cleanupNasSections env .exportDomain fsType

/-! ## The configuration -/

/-- What a section of the configuration says, by its keys: the role and the type of the
storage, `<type>_server`, the number `<type>_devices`, and the keys for local storage. -/
structure ConfSection where
  storageRole : Option String := none
  storageType : Option String := none
  server : DevType → Option String := fun _ => none
  devices : DevType → Int := fun _ => 0
  devicesCapacity : String := "0"
  localDevices : List String := []
  localServer : Option String := none
  password : Option String := none

/-- The section `STORAGE` with its sub-sections, which are named after target paths. -/
structure StorageConf where
  main : ConfSection
  subSections : AList fun _ : String => ConfSection
  loadBalancing : Option String

/-- `load_balancing`, which is empty where it is off. -/
def StorageConf.loadBalancingMode (conf : StorageConf) : String :=
  match conf.loadBalancing with
  | none => ""
  | some mode => if mode = "no" ∨ mode = "false" then "" else mode

variable (storageRoles : String → Option String)

/-- The server of a section for a type of devices. -/
def storageServer (confSection : ConfSection) (type : DevType) :
    Except StorageError (Option String) :=
  match confSection.server type, confSection.storageRole with
  | some server, _ => .ok (some server)
  | none, none => .ok none
  | none, some role =>
    if role = "" ∨ confSection.storageType ≠ some type.name then .ok none
    else
      match storageRoles role with
      | some ip => .ok (some ip)
      | none => .error .keyError

/-- The devices of a section of one type are added to those to create. -/
def addDevType (confSection : ConfSection) (targetPath : Option String) (self : StorageUtils)
    (type : DevType) : Except StorageError StorageUtils := do
  let server ← storageServer storageRoles confSection type
  let storageIp := (server.filter fun name => name ≠ "").map env.getIpAddressByHostName
  let hasServer := storageIp.any (fun ip => ip ≠ "") ||
    decide (self.loadBalancing = "capacity" ∨ self.loadBalancing = "random")
  if hasServer && decide (0 < confSection.devices type) then
    return { self with
      storages := Function.update self.storages type
        ((self.storages type).insert (getDeviceTargetPath targetPath (devicesTargetPath type))
          { ip := storageIp
            total := (confSection.devices type).toNat
            capacity := confSection.devicesCapacity }) }
  else return self

/-- `getStorageConfData`. -/
def getStorageConfData (vds vdsPassw : String) (targetPath : Option String)
    (confSection : ConfSection) (self : StorageUtils) : Except StorageError StorageUtils := do
  let self ← devTypes.foldlM (addDevType env storageRoles confSection targetPath) self
  if confSection.localDevices.isEmpty then return self
  else
    return { self with
      localStorages := self.localStorages.insert (getDeviceTargetPath targetPath localTargetPath)
        { ip := confSection.localServer.getD vds
          password := confSection.password.getD vdsPassw
          paths := confSection.localDevices } }

/-- The end of `__init__`: the section itself, and then its sub-sections. -/
def readStorageConf (vds vdsPassw : String) (conf : StorageConf) (self : StorageUtils) :
    Except StorageError StorageUtils := do
  let self ← getStorageConfData env storageRoles vds vdsPassw none conf.main
    { self with loadBalancing := conf.loadBalancingMode }
  conf.subSections.entries.foldlM (fun self entry =>
    getStorageConfData env storageRoles vds vdsPassw (some entry.1) entry.2 self) self

end

end OvirtArt.Storage.Wrapper
