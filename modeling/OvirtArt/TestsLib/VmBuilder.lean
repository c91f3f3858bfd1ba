import OvirtArt.CoreApi.PyText
import OvirtArt.Foundation.Effects
import OvirtArt.Foundation.ListObjects
import OvirtArt.Foundation.Splitting

set_option autoImplicit false

/-!
# `_prepare_vm_object` of `low_level/vms.py`

The function takes its options from a dictionary one after the other, and sets those parts of a
new VM that they ask for.  Two lists are objects that are shared while it does so: the list under
`placement_hosts`, which belongs to the caller, and the files of the payloads.

An engine answers the lookups of clusters, templates and other entities.  Arguments other than
these two lists are values that are not shared.
-/

namespace OvirtArt.TestsLib.VmBuilder

open OvirtArt.CoreApi OvirtArt.Foundation

/-- What the function can raise. -/
inductive BuilderException where
  | entityNotFound
  | valueError
  | typeError
  /-- `Exception(message)`. -/
  | exception (message : Text)
  | python (error : PyError)

/-! ## Values -/

/-- `bool(value)`. -/
def truthy (value : Value) : Bool := !value.falsy

/-- A string literal. -/
def str (text : String) : Value := .prim (.str text.toList)

/-- `value == text`. -/
def isText (value : Value) (text : String) : Bool :=
  match value with
  | .prim (.str found) => found == text.toList
  | .prim (.unicode found) => found == text.toList
  | _ => false

/-- The characters of a string, which a method of strings is called on. -/
def textOf : Value → Except BuilderException Text
  | .prim (.str text) => .ok text
  | .prim (.unicode text) => .ok text
  | _ => .error (.python .attributeError)

/-- `entity.id`. -/
def idOf (entity : Value) : Except BuilderException Value :=
  match entity.getattr "id" with
  | some id => .ok id
  | none => .error (.python .attributeError)

/-- The number of decimal digits. -/
def readNat (digits : Text) : Except BuilderException Int :=
  if digits.isEmpty || !digits.all Char.isDigit then .error .valueError
  else .ok (Nat.ofDigitChars 10 digits 0 : Nat)

/-- `int(value)`. -/
def toInt : Value → Except BuilderException Int
  | .prim (.int value) => .ok value
  | .prim (.bool value) => .ok (if value then 1 else 0)
  | .prim (.float value) => .ok (value.num.tdiv value.den)
  | .prim (.str text) => readInt text.strip
  | .prim (.unicode text) => readInt text.strip
  | _ => .error .typeError
where
  /-- A number with a sign or without. -/
  readInt : Text → Except BuilderException Int
    | '-' :: digits => do .ok (-(← readNat digits))
    | '+' :: digits => readNat digits
    | digits => readNat digits

/-! ## The arguments and the engine -/

/-- An entry of `payloads`: the type, the file name and the content. -/
structure PayloadArg where
  type : Value
  fname : Value
  fileContent : Value

/-- The keyword arguments.  The list under `placement_hosts` is an object; the other lists are
only read. -/
structure VmKwargs where
  options : String → Option Value
  /-- A list of dictionaries, each with its items. -/
  vcpuPinning : Option (List (List (Value × Value))) := none
  placementHosts : Option Nat := none
  payloads : Option (List PayloadArg) := none

namespace VmKwargs

/-- `kwargs.pop(key, default)`. -/
def popOr (kwargs : VmKwargs) (key : String) (default : Value) : Value :=
  (kwargs.options key).getD default

/-- `kwargs.pop(key, None)`. -/
def pop (kwargs : VmKwargs) (key : String) : Value := kwargs.popOr key .none

/-- `kwargs.update(key=value)`. -/
def update (kwargs : VmKwargs) (key : String) (value : Value) : VmKwargs :=
  { kwargs with options := fun other => if other = key then some value else kwargs.options other }

end VmKwargs

/-- What the engine answers to the searches, and what `str` and `ENUMS` are. -/
structure Engine where
  printer : Printer
  /-- `ENUMS`. -/
  enums : Text → Option Text
  /-- The names of the VMs of `VM_API.get`. -/
  vms : Except BuilderException (List Text)
  /-- `_getVmSnapshot`. -/
  vmSnapshot : Text → Value → Except BuilderException Value
  /-- `TEMPLATE_API.find` by the id. -/
  findTemplate : Value → Except BuilderException Value
  /-- `get_template_obj` of a name and a version. -/
  templateObj : Value → Value → Except BuilderException Value
  /-- `CLUSTER_API.find` by an attribute. -/
  findCluster : Value → String → Except BuilderException Value
  /-- `INSTANCE_TYPE_API.find`. -/
  findInstanceType : Value → Except BuilderException Value
  /-- `get_storage_domain_obj`. -/
  storageDomainObj : Value → Except BuilderException Value
  /-- `HOST_API.find`. -/
  findHost : Value → Except BuilderException Value
  /-- `STORAGE_DOMAIN_API.find`. -/
  findStorageDomain : Value → Except BuilderException Value

/-! ## The VM -/

/-- Attributes and what they are set to. -/
abbrev Settings := List (String × Value)

/-- `setattr(obj, name, value)`. -/
def setAttribute (name : String) (value : Value) : Settings → Settings
  | [] => [(name, value)]
  | (other, old) :: rest =>
    if other = name then (name, value) :: rest
    else (other, old) :: setAttribute name value rest

/-- The attributes after they have been set one after the other. -/
def setAll (settings : Settings) : Settings :=
  settings.foldl (fun attrs setting => setAttribute setting.1 setting.2 attrs) []

/-- A `File`. -/
structure File where
  name : Value
  content : Value

/-- The `File` of an entry of `payloads`. -/
def PayloadArg.file (payload : PayloadArg) : File where
  name := payload.fname
  content := payload.fileContent

/-- A `Payload`; its files are an object or what the object holds. -/
structure Payload (φ : Type) where
  type : Value
  files : φ

/-- The payload with what its files hold. -/
def Payload.resolve (files : ListObjects File) (payload : Payload Nat) : Payload (List File) where
  type := payload.type
  files := files.items payload.files

/-- A `Vm`. -/
structure Vm (φ : Type) where
  attrs : Settings
  payloads : Option (List (Payload φ))

namespace Vm

/-- `vm.set_template(template)`. -/
def setTemplate {φ : Type} (vm : Vm φ) (template : Value) : Vm φ :=
  { vm with attrs := setAttribute "template" template vm.attrs }

/-- The VM with what the files of its payloads hold. -/
def resolve (vm : Vm Nat) (files : ListObjects File) : Vm (List File) where
  attrs := vm.attrs
  payloads := vm.payloads.map (List.map (Payload.resolve files))

end Vm

/-! ## The parts that are set from options alone -/

section

variable (engine : Engine) (kwargs : VmKwargs)

/-- An attribute that is set in any case. -/
def always (key name : String) : Settings := [(name, kwargs.pop key)]

/-- An attribute that is set if the option is a true value. -/
def ifTruthy (key name : String) : Settings :=
  if truthy (kwargs.pop key) then [(name, kwargs.pop key)] else []

/-- An attribute that is set if the option is not `None`. -/
def ifSet (key name : String) : Settings :=
  if (kwargs.pop key).isSet then [(name, kwargs.pop key)] else []

/-- `add`, which a snapshot takes back. -/
def add : Bool := truthy (kwargs.pop "add") && !truthy (kwargs.pop "snapshot")

/-- The snapshot that the first VM has for which `_getVmSnapshot` finds one. -/
def findSnapshot (snapshotName : Value) : List Text → Except BuilderException (Option Value)
  | [] => .ok none
  | vm :: rest =>
    match engine.vmSnapshot vm snapshotName with
    | .error .entityNotFound => findSnapshot snapshotName rest
    | .error e => .error e
    | .ok snapshotObj => .ok (some snapshotObj)

/-- `# snapshot`. -/
def snapshot : Except BuilderException Settings := do
  let snapshotName := kwargs.pop "snapshot"
  if truthy snapshotName then do
    let found ← findSnapshot engine snapshotName (← engine.vms)
    .ok (found.toList.map fun snapshotObj =>
      ("snapshots", .elem "Snapshots" [("snapshot", .list [snapshotObj])]))
  else .ok []

/-- `# template`. -/
def template : Except BuilderException Settings := do
  let templateName := kwargs.popOr "template" (if add kwargs then str "Blank" else .none)
  let templateId := kwargs.pop "templateUuid"
  let templateVersion := kwargs.popOr "template_version" (.prim (.int 1))
  let template ←
    if truthy templateId then engine.findTemplate templateId
    else if truthy templateName then engine.templateObj templateName templateVersion
    else .ok .none
  if truthy template then do
    .ok [("template", .elem "Template" [("id", ← idOf template)])]
  else .ok []

/-- `# cluster`. -/
def cluster : Except BuilderException Settings := do
  let clusterName := kwargs.popOr "cluster" (if add kwargs then str "Default" else .none)
  let clusterId := kwargs.pop "clusterUuid"
  if truthy clusterId then do
    .ok [("cluster", ← engine.findCluster clusterId "id")]
  else if truthy clusterName then do
    .ok [("cluster", ← engine.findCluster clusterName "name")]
  else .ok []

/-- `# instance type`. -/
def instanceType : Except BuilderException Settings := do
  let instanceTypeName := kwargs.pop "instance_type"
  if truthy instanceTypeName then do
    .ok [("instance_type", ← engine.findInstanceType instanceTypeName)]
  else .ok []

/-- The pin of a dictionary: its first key and value. -/
def vcpuPin : List (Value × Value) → Except BuilderException Value
  | [] => .error (.python .indexError)
  | (vcpu, cpuSet) :: _ => do
      .ok (.elem "VcpuPin" [("vcpu", .prim (.int (← toInt vcpu))), ("cpu_set", cpuSet)])

/-- `cpu_tune` of the CPU. -/
def cpuTune : Except BuilderException Settings :=
  match kwargs.vcpuPinning with
  | none => .ok []
  | some [] => .ok [("cpu_tune", .elem "CpuTune" [])]
  | some pinning => do
      let pins ← pinning.mapM vcpuPin
      .ok [("cpu_tune",
        .elem "CpuTune" [("vcpu_pins", .elem "VcpuPins" [("vcpu_pin", .list pins)])])]

/-- `# cpu topology & cpu pinning`. -/
def cpu : Except BuilderException Settings := do
  let cpuSocket := kwargs.pop "cpu_socket"
  let cpuCores := kwargs.pop "cpu_cores"
  let cpuThreads := kwargs.pop "cpu_threads"
  let cpuMode := kwargs.pop "cpu_mode"
  let topology := truthy cpuSocket || truthy cpuCores || truthy cpuThreads
  if topology || kwargs.vcpuPinning.isSome || cpuMode.isSet then do
    let tune ← cpuTune kwargs
    .ok [("cpu", .elem "Cpu"
      ((if topology then
          [("topology", .elem "CpuTopology"
            [("sockets", cpuSocket), ("cores", cpuCores), ("threads", cpuThreads)])]
        else [])
        ++ tune
        ++ (if isText cpuMode "" then [("mode", str "CUSTOM")]
          else if truthy cpuMode then [("mode", cpuMode)] else [])))]
  else .ok []

/-- `os_type` as it is in `ENUMS`. -/
def osType : Except BuilderException Value := do
  let osType := kwargs.pop "os_type"
  if osType.isSet then do
    let text ← textOf osType
    let key := if "windows_".toList.isPrefixOf text then text else text.lower
    .ok (.prim (.str ((engine.enums key).getD key)))
  else .ok .none

/-- `boot_seq`: the words of a string, or the list itself. -/
def bootSeq : Value → Value
  | .prim (.str text) => .list (text.words.map fun word => .prim (.str word))
  | .prim (.unicode text) => .list (text.words.map fun word => .prim (.unicode word))
  | boot => boot

/-- `# os options`. -/
def os : Except BuilderException Settings := do
  let type ← osType engine kwargs
  let options := ifSet kwargs "kernel" "kernel" ++ ifSet kwargs "initrd" "initrd"
    ++ ifSet kwargs "cmdline" "cmdline"
  let boot := if truthy (kwargs.pop "boot") then
      [("boot", Value.elem "Boot"
        [("devices", .elem "devicesType" [("device", bootSeq (kwargs.pop "boot"))])])]
    else []
  if (kwargs.pop "os_type").isSet || !options.isEmpty || !boot.isEmpty then
    .ok [("os", .elem "OperatingSystem" ([("type_", type)] ++ options ++ boot))]
  else .ok []

/-- `# display monitors and type`. -/
def display : Settings :=
  if truthy (kwargs.pop "monitors") || truthy (kwargs.pop "display_type")
      || truthy (kwargs.pop "disconnect_action") || truthy (kwargs.pop "single_qxl_pci") then
    [("display", .elem "Display"
      (always kwargs "display_type" "type_" ++ always kwargs "monitors" "monitors"
        ++ always kwargs "disconnect_action" "disconnect_action"
        ++ always kwargs "file_transfer_enabled" "file_transfer_enabled"
        ++ always kwargs "single_qxl_pci" "single_qxl_pci"))]
  else []

/-- `# serial console`. -/
def console : Settings :=
  if (kwargs.pop "serial_console").isSet then
    [("console", .elem "Console" (always kwargs "serial_console" "enabled"))]
  else []

/-- `# high availablity`. -/
def highAvailability : Settings :=
  if (kwargs.pop "highly_available").isSet || truthy (kwargs.pop "availablity_priority") then
    [("high_availability", .elem "HighAvailability"
      (always kwargs "highly_available" "enabled"
        ++ always kwargs "availablity_priority" "priority"))]
  else []

/-- The lease on a storage domain, or none. -/
def lease : Except BuilderException Settings := do
  let lease := kwargs.pop "lease"
  if lease.isSet then
    if truthy lease then do
      let storageDomainObj ← engine.storageDomainObj lease
      .ok [("lease", .elem "StorageDomainLease"
        [("storage_domain", .elem "StorageDomain" [("id", ← idOf storageDomainObj)])])]
    else .ok [("lease", .elem "StorageDomainLease" [])]
  else .ok []

/-- A `CustomProperty` of `name=value`. -/
def customProperty (propArg prop : Text) : Except BuilderException Value :=
  match splitOnce '=' prop with
  | some (name, value) =>
    .ok (.elem "CustomProperty" [("name", .prim (.str name)), ("value", .prim (.str value))])
  | none =>
    .error (.exception ("Custom Properties should be in form ".toList
      ++ "'name1=value1;name2=value2'. Got '".toList ++ propArg ++ "' instead.".toList))

/-- `createCustomPropertiesFromArg`. -/
def createCustomPropertiesFromArg (propArg : Value) : Except BuilderException Value := do
  if isText propArg "clear" then .ok (.elem "CustomProperties" [])
  else do
    let text ← textOf propArg
    let props ← (text.splitOn ';').mapM (customProperty text)
    .ok (.elem "CustomProperties" [("custom_property", .list props)])

/-- `# custom properties`. -/
def customProperties : Except BuilderException Settings := do
  let customProp := kwargs.pop "custom_properties"
  if truthy customProp then do
    .ok [("custom_properties", ← createCustomPropertiesFromArg customProp)]
  else .ok []

/-- `# memory policy memory_guaranteed and ballooning`. -/
def memoryPolicy : Settings :=
  if (kwargs.pop "ballooning").isSet || truthy (kwargs.pop "memory_guaranteed")
      || truthy (kwargs.pop "max_memory") then
    [("memory_policy", .elem "MemoryPolicy"
      (always kwargs "memory_guaranteed" "guaranteed" ++ always kwargs "ballooning" "ballooning"
        ++ always kwargs "max_memory" "max"))]
  else []

/-- What is set before the placement policy. -/
def beforePlacement : Except BuilderException Settings := do
  let snapshot ← snapshot engine kwargs
  let template ← template engine kwargs
  let cluster ← cluster engine kwargs
  let instanceType ← instanceType engine kwargs
  let cpu ← cpu kwargs
  let os ← os engine kwargs
  let lease ← lease engine kwargs
  let customProperties ← customProperties kwargs
  .ok (always kwargs "name" "name" ++ always kwargs "description" "description"
    ++ always kwargs "uuid" "id" ++ snapshot ++ template ++ cluster ++ instanceType
    ++ always kwargs "memory" "memory" ++ cpu ++ os ++ always kwargs "type" "type"
    ++ display kwargs ++ always kwargs "stateless" "stateless" ++ console kwargs
    ++ highAvailability kwargs ++ lease ++ customProperties ++ memoryPolicy kwargs)

/-- `# storagedomain`, `#  domain_name` and `# quota`. -/
def beforePayloads : Except BuilderException Settings := do
  let sdName := kwargs.pop "storagedomain"
  let storageDomain ←
    if truthy sdName then do
      .ok [("storage_domain", ← engine.findStorageDomain sdName)]
    else .ok []
  let domain := if truthy (kwargs.pop "domainName") then
      [("domain", Value.elem "Domain" (always kwargs "domainName" "name"))]
    else []
  let quota := if isText (kwargs.pop "quota") "" then [("quota", Value.elem "Quota" [])]
    else if truthy (kwargs.pop "quota") then
      [("quota", .elem "Quota" (always kwargs "quota" "id"))]
    else []
  .ok (storageDomain ++ domain ++ quota)

/-- `str(value).lower()`. -/
def lowerStr (value : Value) : Except BuilderException Value :=
  match value.pyStr engine.printer with
  | .ok text => .ok (.prim (.str text.lower))
  | .error e => .error (.python e)

/-- `# migration policy`. -/
def migration : Except BuilderException Settings := do
  match kwargs.options "migration_policy_id" with
  | none => .ok []
  | some migrationPolicyId => do
      let migrationPolicy := Value.elem "MigrationPolicy"
        (if isText migrationPolicyId "inherit" then [] else [("id", migrationPolicyId)])
      let autoConverge ← lowerStr engine (kwargs.popOr "auto_converge" (str "inherit"))
      let compressed ← lowerStr engine (kwargs.popOr "compressed" (str "inherit"))
      .ok [("migration", .elem "MigrationOptions"
        [("policy", migrationPolicy), ("auto_converge", autoConverge),
          ("compressed", compressed)])]

/-- `# RNG policy`. -/
def rngPolicy : Settings :=
  if truthy (kwargs.pop "rng_device") then
    [("rng_device", .elem "RngDevice"
      (always kwargs "rng_device" "source"
        ++ [("rate", .elem "Rate"
          (always kwargs "rng_bytes" "bytes" ++ always kwargs "rng_period" "period"))]))]
  else []

/-- `# timezone`. -/
def timezone : Settings :=
  if (kwargs.pop "time_zone").isSet || (kwargs.pop "time_zone_offset").isSet then
    [("time_zone", .elem "TimeZone"
      (always kwargs "time_zone" "name" ++ always kwargs "time_zone_offset" "utc_offset"))]
  else []

/-- An element with one attribute, which is set if the option is a true value. -/
def elemIfTruthy (key name className attr : String) : Settings :=
  if truthy (kwargs.pop key) then [(name, .elem className (always kwargs key attr))] else []

/-- An element with one attribute, which is set if the option is not `None`. -/
def elemIfSet (key name className : String) (attrs : Settings) (attr : String) : Settings :=
  if (kwargs.pop key).isSet then
    [(name, .elem className (attrs ++ always kwargs key attr))]
  else []

/-- `# usb_type`. -/
def usbType : Settings :=
  if truthy (kwargs.pop "usb_type") then
    [("usb", .elem "Usb" ([("enabled", .prim (.bool true))] ++ always kwargs "usb_type" "type"))]
  else []

/-- `# boot_menu`. -/
def bootMenu : Settings :=
  if truthy (kwargs.pop "boot_menu") then
    [("bios", .elem "Bios"
      [("boot_menu", .elem "BootMenu" (always kwargs "boot_menu" "enabled"))])]
  else []

/-- What is set after the payloads. -/
def afterPayloads : Except BuilderException Settings := do
  let migration ← migration engine kwargs
  .ok (ifSet kwargs "protected" "delete_protected"
    ++ ifTruthy kwargs "initialization" "initialization" ++ timezone kwargs
    ++ elemIfTruthy kwargs "cpu_profile_id" "cpu_profile" "CpuProfile" "id"
    ++ elemIfSet kwargs "virtio_scsi" "virtio_scsi" "VirtioScsi" [] "enabled"
    ++ ifTruthy kwargs "numa_mode" "numa_tune_mode" ++ ifSet kwargs "cpu_shares" "cpu_shares"
    ++ elemIfSet kwargs "serial_number" "serial_number" "SerialNumber"
      [("policy", str "custom")] "value"
    ++ ifTruthy kwargs "start_in_pause" "start_paused" ++ ifTruthy kwargs "comment" "comment"
    ++ usbType kwargs ++ ifSet kwargs "custom_emulated_machine" "custom_emulated_machine"
    ++ ifSet kwargs "custom_cpu_model" "custom_cpu_model"
    ++ ifSet kwargs "soundcard_enabled" "soundcard_enabled"
    ++ ifTruthy kwargs "migration_downtime" "migration_downtime"
    ++ elemIfTruthy kwargs "io_threads" "io" "Io" "threads" ++ bootMenu kwargs
    ++ ifTruthy kwargs "start_paused" "start_paused" ++ migration ++ rngPolicy kwargs
    ++ ifTruthy kwargs "storage_error_resume_behaviour" "storage_error_resume_behaviour")

end

/-! ## The parts with shared objects -/

/-- A request to add a VM. -/
structure CreateRequest where
  vm : Vm (List File)
  expectedEntity : Vm (List File)
  positive : Bool
  operations : List String

/-- The lists that are objects, and the requests that have been sent. -/
structure Session where
  lists : ListObjects Value
  files : ListObjects File
  sent : List CreateRequest

/-- The functions of the module. -/
abbrev Builder := EStateM BuilderException Session

/-- `[]`. -/
def newList : Builder Nat := do
  let session ← get
  set { session with lists := session.lists.alloc }
  pure session.lists.next

/-- `list.append(value)`. -/
def append (r : Nat) (value : Value) : Builder PUnit :=
  modify fun session => { session with lists := session.lists.push r value }

/-- `Files()`. -/
def newFiles : Builder Nat := do
  let session ← get
  set { session with files := session.files.alloc }
  pure session.files.next

/-- `payload_files.add_file(file)`. -/
def addFile (r : Nat) (file : File) : Builder PUnit :=
  modify fun session => { session with files := session.files.push r file }

section

variable (engine : Engine) (kwargs : VmKwargs)

/-- `kwargs.pop("placement_hosts", None) or []`. -/
def placementHosts : Builder Nat := do
  let session ← get
  match kwargs.placementHosts with
  | none => newList
  | some r => if (session.lists.items r).isEmpty then newList else pure r

/-- `placement_host` is given, and it is not any host of the cluster. -/
def addsHost : Bool :=
  truthy (kwargs.pop "placement_host")
    && !isText (kwargs.pop "placement_host") "any_host_in_cluster"

/-- The hosts of the policy. -/
def policyHosts (placementHosts : List Value) : Except BuilderException Settings :=
  if placementHosts.isEmpty then .ok []
  else do
    let hosts ← placementHosts.mapM fun host => do
      let hostObj ← engine.findHost host
      .ok (Value.elem "Host" [("id", ← idOf hostObj)])
    .ok [("hosts", .elem "Hosts" [("host", .list hosts)])]

/-- `placement_hosts.append(placement_host)`, for a host of its own. -/
def appendHost (placementHosts : Nat) : Builder PUnit :=
  if addsHost kwargs then append placementHosts (kwargs.pop "placement_host") else pure ⟨⟩

/-- The placement policy, where the local name `placement_hosts` stands for this list. -/
def placementPolicyWith (placementHosts : Nat) : Builder Settings := do
  let session ← get
  if truthy (kwargs.pop "placement_host") || truthy (kwargs.pop "placement_affinity")
      || !(session.lists.items placementHosts).isEmpty then do
    appendHost kwargs placementHosts
    let session ← get
    let hosts ← fromExcept (policyHosts engine (session.lists.items placementHosts))
    pure [("placement_policy", .elem "VmPlacementPolicy"
      (ifTruthy kwargs "placement_affinity" "affinity" ++ hosts))]
  else pure []

/-- `# placement policy: placement_affinity & placement_host`. -/
def placementPolicy : Builder Settings := do
  let placementHosts ← placementHosts kwargs
  placementPolicyWith engine kwargs placementHosts

/-- The body of the loop over the payloads. -/
def addPayload (payloadFiles : Nat) (payload : PayloadArg) : Builder (Payload Nat) := do
  addFile payloadFiles payload.file
  pure { type := payload.type, files := payloadFiles }

/-- `# payloads`. -/
def preparePayloads : Builder (Option (List (Payload Nat))) :=
  match kwargs.payloads with
  | none => pure none
  | some [] => pure none
  | some payloads => do
      let payloadFiles ← newFiles
      let payloadArray ← payloads.mapM (addPayload payloadFiles)
      pure (some payloadArray)

/-- `_prepare_vm_object`. -/
def prepareVmObject : Builder (Vm Nat) := do
  let first ← fromExcept (beforePlacement engine kwargs)
  let policy ← placementPolicy engine kwargs
  let middle ← fromExcept (beforePayloads engine kwargs)
  let payloads ← preparePayloads kwargs
  let last ← fromExcept (afterPayloads engine kwargs)
  pure { attrs := setAll (first ++ policy ++ middle ++ last), payloads := payloads }

end

end OvirtArt.TestsLib.VmBuilder
