import Mathlib.Data.List.AList
import OvirtArt.CoreApi.PyText
import OvirtArt.Foundation.Collecting

set_option autoImplicit false

/-!
# `rhevm_api/utils/cpumodel.py`

The CPU model that hosts have in common is looked for in the list of CPUs of a version of the
API, from the models that each host reports.

The queries to the engine and to the hosts are parameters, and so is the order in which a
dictionary of vendors is gone through.
-/

namespace OvirtArt.Utils.CpuModel

open OvirtArt.CoreApi OvirtArt.Foundation

/-- What the functions can raise. -/
inductive PyException where
  | cpuModelError (message : Text)
  | unknownCpuModel (message : Text)
  | hostVendorMismatch (message : Text)
  | valueError
  | typeError
  | indexError
  | attributeError (name : Text)
  deriving DecidableEq, Repr

/-- A `CpuModelError`, or an exception of one of its subclasses. -/
def PyException.isCpuModelError : PyException → Bool
  | cpuModelError _ => true
  | unknownCpuModel _ => true
  | hostVendorMismatch _ => true
  | _ => false

/-- `dict(cpu=str, level=int, model=str, vendor=str)`. -/
structure Cpu where
  cpu : Text
  level : Int
  model : Option Text
  vendor : Option Text
  deriving DecidableEq, Repr

/-- What is known of a version. -/
structure CpuVersion where
  cpus : List Cpu
  current : Text

/-- The versions, in the order in which the dictionary is gone through. -/
structure CpuModelDenominator where
  cpus : AList fun _ : Text => CpuVersion

/-- What a host answers: the outcome of the command on `/proc/cpuinfo`, and the flags among
its capabilities, if it has any. -/
structure Host where
  rc : Int
  out : Text
  err : Text
  cpuFlags : Option Text

/-- `dict(models=list(str), vendor=str)`. -/
structure HostInfo where
  models : List (Option Text)
  vendor : Text

/-- What `get_cpu_list` returns: a list, or an exception as a value. -/
inductive CpuList where
  | cpus (cpus : List Cpu)
  | exception (message : Text)

/-! ## Names of models -/

/-- `MIN_MODEL.get(vendor)`. -/
def minModel : Option Text → Option Text
  | none => none
  | some vendor =>
    if vendor = "Intel".toList then some "model_Conroe".toList
    else if vendor = "AMD".toList then some "model_Opteron_G1".toList
    else if vendor = "IBM POWER".toList then some "model_POWER7_v2.0".toList
    else none

/-- `part in text`. -/
def isIn (part : String) (text : Text) : Bool := text.find part.toList ≠ -1

/-- `_id_to_vendor`. -/
def idToVendor (cpuId : Text) : Option Text :=
  if isIn "Intel" cpuId then some "Intel".toList
  else if isIn "AMD" cpuId then some "AMD".toList
  else if isIn "POWER" cpuId then some "IBM POWER".toList
  else none

/-! ## What a host supports -/

/-- `fetch_host_caps`. -/
def fetchHostCaps (host : Host) : Except PyException HostInfo :=
  let vendor := host.out.strip
  if host.rc ≠ 0 ∨ vendor.isEmpty then
    .error (.cpuModelError ("Can not resolve host's cpuinfo: ".toList ++ host.err))
  else
    let cpuFlags := (host.cpuFlags.getD []).splitOn ','
    let models := cpuFlags.filter (isIn "model_")
    .ok
      { models := if models.isEmpty then [minModel (idToVendor vendor)] else models.map some
        vendor := vendor }

namespace CpuModelDenominator

variable (self : CpuModelDenominator)

/-- `get_cpu_list`. -/
def getCpuList : Option Text → Except PyException CpuList
  | none =>
    match self.cpus.entries.filter fun entry => !entry.2.current.isEmpty with
    | [] => .ok (.exception "There is no cpu list for current version".toList)
    | entry :: _ => .ok (.cpus entry.2.cpus)
  | some version =>
    match self.cpus.lookup version with
    | none =>
      .error (.cpuModelError ("Version ".toList ++ version ++ " is not supported".toList))
    | some entry => .ok (.cpus entry.cpus)

/-- The items over which a loop on the list runs.  A loop on an exception runs over its
message, of which `cpu[key]` is an error. -/
def items : CpuList → Except PyException (List Cpu)
  | .cpus cpus => .ok cpus
  | .exception _ => .error .typeError

/-- `get_cpu_info`. -/
def getCpuInfo (key : Cpu → Option Text) (value version : Option Text) :
    Except PyException Cpu := do
  let cpus ← items (← self.getCpuList version)
  match cpus.filter fun cpu => key cpu = value with
  | [] => .error (.unknownCpuModel
      (Text.formatted value ++ " for ".toList ++ Text.formatted version ++ " version".toList))
  | cpu :: _ => .ok cpu

/-- `_list_cpu_info`. -/
def listCpuInfo (models : List (Option Text)) (version : Option Text) :
    Except PyException (List Cpu) :=
  models.foldlM (fun infoList model =>
    match self.getCpuInfo Cpu.model model version with
    | .ok info => .ok (infoList ++ [info])
    | .error (.unknownCpuModel _) => .ok infoList
    | .error e => .error e) []

/-- `max(infos, key=lambda info: info['level'])`: the first of those of the highest level. -/
def maxByLevel : List Cpu → Except PyException Cpu
  | [] => .error .valueError
  | info :: rest =>
    .ok (rest.foldl (fun best info => if best.level < info.level then info else best) info)

/-- The best model of a host. -/
def bestCpu (version : Option Text) (host : Host) : Except PyException Cpu := do
  let hostInfo ← fetchHostCaps host
  maxByLevel (← self.listCpuInfo hostInfo.models version)

/-! ## Models for several hosts -/

/-- The message for two vendors. -/
def mismatch (first second : Option Text) : PyException :=
  .hostVendorMismatch (Text.formatted first ++ " != ".toList ++ Text.formatted second)

/-- What the loops over the hosts keep: the model so far, or that of the next host where it
is to replace it. -/
def keep (replaces : Cpu → Cpu → Bool) (selected : Option Cpu) (best : Cpu) :
    Except PyException (Option Cpu) :=
  match selected with
  | none => .ok (some best)
  | some cpu =>
    if best.vendor ≠ cpu.vendor then .error (mismatch best.vendor cpu.vendor)
    else .ok (some (if replaces best cpu then best else cpu))

/-- A round of the loop. -/
def consider (replaces : Cpu → Cpu → Bool) (version : Option Text) (selected : Option Cpu)
    (host : Host) : Except PyException (Option Cpu) := do
  keep replaces selected (← self.bestCpu version host)

/-- The loop of `get_common_cpu_model` and of `get_maximal_cpu_model`. -/
def select (replaces : Cpu → Cpu → Bool) (hosts : List Host) (version : Option Text) :
    Except PyException (Option Cpu) :=
  hosts.foldlM (self.consider replaces version) none

/-- `get_common_cpu_model`. -/
def getCommonCpuModel (hosts : List Host) (version : Option Text) :
    Except PyException (Option Cpu) :=
  self.select (fun best selected => best.level < selected.level) hosts version

/-- `get_maximal_cpu_model`. -/
def getMaximalCpuModel (hosts : List Host) (version : Option Text) :
    Except PyException Cpu := do
  match ← self.select (fun best selected => best.level > selected.level) hosts version with
  | some cpu => .ok cpu
  | none => .error (.attributeError "get".toList)

/-- A round of the loop of `get_minimal_cpu_model`. -/
def considerVendor (vendor : Option Text) (host : Host) : Except PyException (Option Text) := do
  let hostInfo ← fetchHostCaps host
  match vendor with
  | none => .ok (idToVendor hostInfo.vendor)
  | some vendor =>
    let hostVendor := idToVendor hostInfo.vendor
    if some vendor ≠ hostVendor then .error (mismatch vendor hostVendor)
    else .ok (some vendor)

/-- The loop of `get_minimal_cpu_model`. -/
def commonVendor (hosts : List Host) : Except PyException (Option Text) :=
  hosts.foldlM considerVendor none

/-- `get_minimal_cpu_model`. -/
def getMinimalCpuModel (hosts : List Host) (version : Option Text) :
    Except PyException Cpu := do
  let vendor ← commonVendor hosts
  self.getCpuInfo Cpu.model (minModel vendor) version

/-- `get_relative_cpu_model`; `none` is the empty dictionary. -/
def getRelativeCpuModel (cpuName : Text) (higher : Bool) (version : Option Text) :
    Except PyException (Option Cpu) := do
  let cpuInfo ← self.getCpuInfo (fun cpu => some cpu.cpu) (some cpuName) version
  let cpus ← items (← self.getCpuList version)
  .ok (cpus.find? fun cpu =>
    cpu.vendor = cpuInfo.vendor ∧
      if higher then cpuInfo.level < cpu.level else cpu.level < cpuInfo.level)

end CpuModelDenominator

end OvirtArt.Utils.CpuModel
