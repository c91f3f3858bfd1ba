import OvirtArt.CoreApi.PyText
import OvirtArt.Foundation.Recordings

set_option autoImplicit false

/-!
# `clean_datacenter` of `high_level/datacenters.py`

A data center is taken apart step by step.  One variable carries the status to the end; some steps
set it, some set it anew, and the results of others are dropped.  Every request to remove something
and the end of every step are recorded.

A world answers each step by a value or an exception.  What belongs to a hosted engine is among
the VMs, domains and hosts that it tells of.
-/

namespace OvirtArt.TestsLib.CleanDatacenter

open OvirtArt.CoreApi OvirtArt.Foundation
open OvirtArt.Foundation.Recorded (call ask note Avoids)

/-! ## What is read -/

/-- A cluster of the engine. -/
structure Cluster where
  id : Text
  name : Text
  dataCenterId : Option Text
  deriving DecidableEq, Repr

/-- A VM or a host, with the id of its cluster. -/
structure Member where
  name : Text
  clusterId : Text
  deriving DecidableEq, Repr

/-- A storage domain of the data center. -/
structure StorageDomain where
  name : Text
  type : Text
  master : Bool
  deriving DecidableEq, Repr

/-- A disk that no VM has. -/
structure FloatingDisk where
  id : Text
  name : Text
  diskAlias : Text
  deriving DecidableEq, Repr

/-- A data center in a system; the names of its VMs and of its storage domains, and the ids of the
clusters, are those of one object each. -/
structure DataCenter where
  id : Text
  clusters : List Cluster
  vms : List Member
  hosts : List Member
  storageDomains : List StorageDomain
  clusterIds_nodup : (clusters.map Cluster.id).Nodup
  vmNames_nodup : (vms.map Member.name).Nodup
  domainNames_nodup : (storageDomains.map StorageDomain.name).Nodup

/-- What is raised. -/
inductive Fault where
  | storageDomainException (message : Text)
  /-- What any other call raises. -/
  | raised (description : Text)
  deriving DecidableEq, Repr

/-- What is asked to be removed, or to be deactivated or detached before. -/
inductive Request where
  | removeVms (names : List Text)
  | removeTemplates (cluster : Text)
  | deleteDisk (diskId : Text)
  | detachDomain (name : Text)
  | deactivateDomain (name : Text)
  | removeDatacenter
  | removeStorageDomain (name : Text)
  | removeHost (name : Text)
  | removeCluster (name : Text)
  deriving DecidableEq, Repr

/-- The steps whose results are flags. -/
inductive Step where
  | vms (cluster : Text)
  | floatingDisks (domain : Text)
  | detach (domain : Text)
  | masterDeactivation
  | datacenter
  | storageDomains
  | host (name : Text)
  | cluster (name : Text)
  deriving DecidableEq, Repr

/-- What is recorded. -/
inductive Entry where
  | asked (request : Request)
  | ended (step : Step) (succeeded : Bool)
  deriving DecidableEq, Repr

/-- What the functions that are called return or raise, for the `positive` that they get. -/
structure World where
  safelyRemoveVms : List Text → Except Fault Bool
  removeTemplatesConnectedCluster : Text → Except Fault Unit
  /-- `get_vm_host`, without a value if the VM has no host. -/
  vmHost : Option Text → Option Text
  selectHostAsSpm : Option Text → Except Fault Bool
  /-- The name of `get_spm_host`. -/
  spmHost : Except Fault (Option Text)
  storageDomainDisks : Text → Except Fault (List FloatingDisk)
  deleteDisk : Text → Except Fault Bool
  waitForDisksGone : List Text → Except Fault Bool
  /-- `wait_for_tasks`, for each of its places in the function. -/
  waitForTasks : Nat → Except Fault Unit
  detachAndDeactivateDomain : Text → Except Fault Bool
  /-- The storage domains of the data center when its master is deactivated. -/
  domainsAtDeactivation : List StorageDomain
  /-- `validateElementStatus` for `active`. -/
  masterActive : Text → Except Fault Bool
  deactivateStorageDomain : Text → Except Fault Bool
  removeDatacenter : Except Fault Bool
  /-- Whether `get_storage_domain_obj` finds the domain. -/
  domainFound : Text → Except Fault Bool
  removeStorageDomain : Text → Text → Text → Except Fault Bool
  removeHost : Text → Except Fault Bool
  removeCluster : Text → Except Fault Bool

/-- The arguments. -/
structure CleanArgs where
  engine : Bool
  formatIsoStorage : Text
  formatExpStorage : Text
  hostedEngineVm : Option Text
  hostedEngineSd : Option Text

/-- A procedure with these records. -/
abbrev Proc (α : Type) := Recorded Fault Entry α

/-- A step: what its function does, and how that has ended. -/
def step (name : Step) (function : Proc Bool) : Proc Bool := do
  let ok ← function
  note (.ended name ok)
  return ok

/-! ## `low_level/storagedomains.py` -/

section

variable (world : World)

/-- `DATA_DOMAIN_TYPE`. -/
def dataDomainType : Text := "data".toList

/-- `findMasterStorageDomain`, with the name under `masterDomain`. -/
def findMasterStorageDomain (sdObjList : List StorageDomain) : Bool × Text :=
  match sdObjList.filter fun sdObj => sdObj.type == dataDomainType && sdObj.master with
  | [sdObj] => (true, sdObj.name)
  | _ => (false, " ".toList)

/-- `deactivate_master_storage_domain`. -/
def deactivateMasterStorageDomain : Proc Bool := do
  let master := findMasterStorageDomain world.domainsAtDeactivation
  if !master.2.isEmpty then
    let active ← call (world.masterActive master.2)
    if active then
      let deactivated ← ask (.asked (.deactivateDomain master.2))
        (world.deactivateStorageDomain master.2)
      return if deactivated then master.1 else false
    else return master.1
  else return master.1

/-- The disks that `remove_floating_disks` removes. -/
def withoutOvfStores (disks : List FloatingDisk) : List FloatingDisk :=
  disks.filter fun disk => disk.name != "OVF_STORE".toList

/-- The loop of `remove_floating_disks`; false if it is left. -/
def deleteDisks : List FloatingDisk → Proc Bool
  | [] => return true
  | disk :: disks => do
      let deleted ← ask (.asked (.deleteDisk disk.id)) (world.deleteDisk disk.id)
      if deleted then deleteDisks disks else return false

/-- `remove_floating_disks`: whether it does not return `False`. -/
def removeFloatingDisks (domain : Text) : Proc Bool := do
  let disks ← call (world.storageDomainDisks domain)
  let floatingDisks := withoutOvfStores disks
  if floatingDisks.isEmpty then return true
  else
    let deleted ← deleteDisks world floatingDisks
    if deleted then call (world.waitForDisksGone (floatingDisks.map FloatingDisk.diskAlias))
    else return false

/-- `str(format_storage)`. -/
def formatStorage (sd : StorageDomain) (formatExport formatIso : Text) : Text :=
  if sd.type == "export".toList then formatExport
  else if sd.type == "iso".toList then formatIso
  else "True".toList

/-- `remove_storage_domains`. -/
def removeStorageDomains (host formatExport formatIso : Text) : List StorageDomain → Proc Bool
  | [] => return true
  | sd :: sds => do
      let found ← call (world.domainFound sd.name)
      if found then
        let removed ← ask (.asked (.removeStorageDomain sd.name))
          (world.removeStorageDomain sd.name host (formatStorage sd formatExport formatIso))
        if removed then removeStorageDomains host formatExport formatIso sds else return false
      else removeStorageDomains host formatExport formatIso sds

end

/-! ## `clean_datacenter` -/

section

variable (world : World) (dc : DataCenter) (args : CleanArgs)

/-- `get_clusters_connected_to_datacenter`. -/
def connectedClusters : List Cluster :=
  dc.clusters.filter fun cluster => cluster.dataCenterId == some dc.id

/-- The names of `get_vms_objects_from_cluster`. -/
def clVmsNames (cluster : Cluster) : List Text :=
  (dc.vms.filter fun vm => vm.clusterId == cluster.id).map Member.name

/-- The names of `get_hosts_connected_to_cluster`. -/
def connectedHosts (cluster : Cluster) : List Text :=
  (dc.hosts.filter fun host => host.clusterId == cluster.id).map Member.name

/-- `hosted_engine_vm in cl_vms_names`. -/
def holdsHostedEngine (cluster : Cluster) : Bool :=
  match args.hostedEngineVm with
  | none => false
  | some vm => (clVmsNames dc cluster).contains vm

/-- The VMs of the cluster that are removed. -/
def vmsToRemove (cluster : Cluster) : List Text :=
  match args.hostedEngineVm with
  | none => clVmsNames dc cluster
  | some vm =>
    if (clVmsNames dc cluster).contains vm then (clVmsNames dc cluster).erase vm
    else clVmsNames dc cluster

/-- What the loop over the clusters collects; there is a hosted engine if its cluster is set. -/
structure Collected where
  hostsToRemove : List Text
  hostedClName : Option Text

/-- What one round of the loop adds. -/
def Collected.add (collected : Collected) (cluster : Cluster) : Collected where
  hostsToRemove := collected.hostsToRemove ++ connectedHosts dc cluster
  hostedClName :=
    if holdsHostedEngine dc args cluster then some cluster.name else collected.hostedClName

/-- `safely_remove_vms`, which asks for nothing if there are no VMs. -/
def safelyRemoveVms (vms : List Text) : Proc Bool :=
  if vms.isEmpty then return true
  else ask (.asked (.removeVms vms)) (world.safelyRemoveVms vms)

/-- The calls in a round of the loop; their results are dropped. -/
def cleanCluster (cluster : Cluster) : Proc PUnit := do
  let _ ← step (.vms cluster.name) (safelyRemoveVms world (vmsToRemove dc args cluster))
  ask (.asked (.removeTemplates cluster.name)) (world.removeTemplatesConnectedCluster cluster.name)

/-- The loop over the clusters. -/
def cleanClusters : Proc Collected :=
  (connectedClusters dc).foldlM
    (fun collected cluster => do
      cleanCluster world dc args cluster
      return collected.add dc args cluster)
    { hostsToRemove := [], hostedClName := none }

/-- What is left to be removed. -/
structure Targets where
  hosts : List Text
  clusters : List Cluster
  sds : List StorageDomain

/-- All of it without a hosted engine, and what does not belong to the hosted engine with one. -/
def targets (collected : Collected) : Targets :=
  match collected.hostedClName with
  | none =>
    { hosts := collected.hostsToRemove
      clusters := connectedClusters dc
      sds := dc.storageDomains }
  | some hostedClName =>
    let hostedHost := world.vmHost args.hostedEngineVm
    { hosts := collected.hostsToRemove.filter fun host => some host != hostedHost
      clusters := (connectedClusters dc).filter fun cluster => cluster.name != hostedClName
      sds := dc.storageDomains.filter fun sd =>
        some sd.name != args.hostedEngineSd && !sd.master }

/-- `select_host_as_spm` for the host of the hosted engine; its result is dropped. -/
def selectSpm (collected : Collected) : Proc PUnit :=
  if collected.hostedClName.isSome then do
    let _ ← call (world.selectHostAsSpm (world.vmHost args.hostedEngineVm))
    return ⟨⟩
  else return ⟨⟩

/-- `if engine: test_utils.wait_for_tasks(...)`. -/
def waitForTasks (place : Nat) : Proc PUnit :=
  if args.engine then call (world.waitForTasks place) else return ⟨⟩

/-- The removal of floating disks, whose result is dropped. -/
def cleanDomain (sd : StorageDomain) : Proc PUnit := do
  let _ ← step (.floatingDisks sd.name) (removeFloatingDisks world sd.name)
  return ⟨⟩

/-- A round of the loop that detaches the domains other than the master. -/
def detachDomain (sd : StorageDomain) : Proc PUnit :=
  if sd.master then return ⟨⟩
  else do
    let detached ← step (.detach sd.name)
      (ask (.asked (.detachDomain sd.name)) (world.detachAndDeactivateDomain sd.name))
    if detached then return ⟨⟩
    else call (.error (.storageDomainException
      ("Failed to deactivate storage domain ".toList ++ sd.name)))

/-- The deactivation of the master, which sets the status. -/
def deactivateMaster (collected : Collected) (status : Bool) : Proc Bool :=
  if collected.hostedClName.isSome then return status
  else do
    let status ← step .masterDeactivation (deactivateMasterStorageDomain world)
    waitForTasks world args 2
    return status

/-- The block under the first `if sds`. -/
def deactivateDomains (collected : Collected) (sds : List StorageDomain) (status : Bool) :
    Proc Bool :=
  if sds.isEmpty then return status
  else do
    sds.forM (cleanDomain world)
    waitForTasks world args 0
    sds.forM (detachDomain world)
    waitForTasks world args 1
    deactivateMaster world args collected status

/-- The removal of the data center. -/
def removeDatacenter (collected : Collected) (status : Bool) : Proc Bool :=
  if collected.hostedClName.isSome then return status
  else do
    let removed ← step .datacenter (ask (.asked .removeDatacenter) world.removeDatacenter)
    return if removed then status else false

/-- The block under `if sds and spm_host_obj`, which sets the status anew. -/
def removeDomains (spmHost : Option Text) (sds : List StorageDomain) (status : Bool) :
    Proc Bool :=
  match spmHost with
  | none => return status
  | some host =>
    if sds.isEmpty then return status
    else step .storageDomains
      (removeStorageDomains world host args.formatExpStorage args.formatIsoStorage sds)

/-- The removal of a host, whose result is dropped. -/
def removeHost (host : Text) : Proc PUnit := do
  let _ ← step (.host host) (ask (.asked (.removeHost host)) (world.removeHost host))
  return ⟨⟩

/-- The removal of a cluster. -/
def removeCluster (cluster : Cluster) : Proc Bool :=
  step (.cluster cluster.name)
    (ask (.asked (.removeCluster cluster.name)) (world.removeCluster cluster.name))

/-- `clean_datacenter`. -/
def cleanDatacenter : Proc Bool := do
  let collected ← cleanClusters world dc args
  selectSpm world args collected
  let kept := targets world dc args collected
  let spmHost ← call world.spmHost
  let status ← deactivateDomains world args collected kept.sds true
  let status ← removeDatacenter world collected status
  let status ← removeDomains world args spmHost kept.sds status
  kept.hosts.forM (removeHost world)
  kept.clusters.foldlM (fun status cluster => do
    let removed ← removeCluster world cluster
    return if removed then status else false) status

end

/-! ## What is to be reported, and what is to be spared -/

section

variable (world : World) (dc : DataCenter) (args : CleanArgs)

/-- What the loop over the clusters has collected in the end. -/
def collectedAll : Collected :=
  (connectedClusters dc).foldl (Collected.add dc args)
    { hostsToRemove := [], hostedClName := none }

/-- There is a hosted engine. -/
def hosted : Bool := (collectedAll dc args).hostedClName.isSome

/-- What is to be removed. -/
def kept : Targets := targets world dc args (collectedAll dc args)

/-- The end of a step that has not succeeded. -/
def Failed (entry : Entry) : Prop := ∃ name, entry = .ended name false

/-- `True` is returned only if every step has succeeded, and the storage domains have been
removed if there are any. -/
def ReportsFailures : Prop :=
  (cleanDatacenter world dc args).result = .ok true →
    Avoids Failed (cleanDatacenter world dc args) ∧
      ((kept world dc args).sds ≠ [] →
        ∃ ok, Entry.ended .storageDomains ok ∈ (cleanDatacenter world dc args).entries)

/-- The VM of the hosted engine is in some cluster of the data center. -/
def HostedEnginePresent : Prop :=
  ∃ cluster ∈ connectedClusters dc, holdsHostedEngine dc args cluster = true

/-- The requests that a hosted engine is to be spared. -/
inductive Protected : Request → Prop
  | vm {names : List Text} {vm : Text} (hvm : args.hostedEngineVm = some vm)
      (hmem : vm ∈ names) : Protected (.removeVms names)
  | host {name : Text} (hhost : world.vmHost args.hostedEngineVm = some name) :
      Protected (.removeHost name)
  | cluster {cluster : Cluster} (hmem : cluster ∈ connectedClusters dc)
      (hholds : holdsHostedEngine dc args cluster = true) :
      Protected (.removeCluster cluster.name)
  | domain {name : Text} (hdomain : args.hostedEngineSd = some name) :
      Protected (.removeStorageDomain name)
  | master {sd : StorageDomain} (hmem : sd ∈ dc.storageDomains) (hmaster : sd.master = true) :
      Protected (.removeStorageDomain sd.name)
  | datacenter : Protected .removeDatacenter

/-- An entry for such a request. -/
def AskedProtected (entry : Entry) : Prop :=
  ∃ request, Protected world dc args request ∧ entry = .asked request

/-- Where there is a hosted engine, nothing of it is asked to be removed. -/
def SparesHostedEngine : Prop :=
  HostedEnginePresent dc args →
    Avoids (AskedProtected world dc args) (cleanDatacenter world dc args)

/-! ### Which results the status has -/

/-- What the removal of the VMs of a cluster comes to. -/
def vmsResult (cluster : Cluster) : Except Fault Bool :=
  (safelyRemoveVms world (vmsToRemove dc args cluster)).result

/-- What the removal of the storage domains comes to with this host. -/
def domainsResult (host : Text) : Except Fault Bool :=
  (removeStorageDomains world host args.formatExpStorage args.formatIsoStorage
    (kept world dc args).sds).result

/-- The computation returns. -/
def Ends {α : Type} (result : Except Fault α) : Prop := ∃ value, result = .ok value

/-- Nothing raises. -/
structure EveryStepEnds : Prop where
  vms : ∀ cluster ∈ connectedClusters dc, Ends (vmsResult world dc args cluster)
  templates : ∀ cluster ∈ connectedClusters dc,
    Ends (world.removeTemplatesConnectedCluster cluster.name)
  selection : hosted dc args = true →
    Ends (world.selectHostAsSpm (world.vmHost args.hostedEngineVm))
  spmHost : Ends world.spmHost
  floatingDisks : ∀ sd ∈ (kept world dc args).sds, Ends (removeFloatingDisks world sd.name).result
  tasks : (kept world dc args).sds ≠ [] → ∀ place < 2, Ends (waitForTasks world args place).result
  detached : ∀ sd ∈ (kept world dc args).sds, sd.master = false →
    world.detachAndDeactivateDomain sd.name = .ok true
  master : (kept world dc args).sds ≠ [] → hosted dc args = false →
    Ends (deactivateMasterStorageDomain world).result ∧ Ends (waitForTasks world args 2).result
  datacenter : hosted dc args = false → Ends world.removeDatacenter
  storageDomains : ∀ host, world.spmHost = .ok (some host) → (kept world dc args).sds ≠ [] →
    Ends (domainsResult world dc args host)
  hosts : ∀ host ∈ (kept world dc args).hosts, Ends (world.removeHost host)
  clusters : ∀ cluster ∈ (kept world dc args).clusters, Ends (world.removeCluster cluster.name)

/-- The steps succeed whose results reach the status that is returned: the removals of the clusters
and of the storage domains or, where these are not asked to be removed, of the data center, and
before that the deactivation of the master. -/
structure DecidingStepsSucceed : Prop where
  clusters : ∀ cluster ∈ (kept world dc args).clusters, world.removeCluster cluster.name = .ok true
  storageDomains : ∀ host, world.spmHost = .ok (some host) → (kept world dc args).sds ≠ [] →
    domainsResult world dc args host = .ok true
  datacenter : (kept world dc args).sds = [] ∨ world.spmHost = .ok none →
    hosted dc args = false → world.removeDatacenter = .ok true
  master : (kept world dc args).sds ≠ [] → world.spmHost = .ok none → hosted dc args = false →
    (deactivateMasterStorageDomain world).result = .ok true

/-- All other steps succeed too, and the storage domains are asked to be removed. -/
structure MaskedStepsSucceed : Prop where
  vms : ∀ cluster ∈ connectedClusters dc, vmsResult world dc args cluster = .ok true
  floatingDisks : ∀ sd ∈ (kept world dc args).sds,
    (removeFloatingDisks world sd.name).result = .ok true
  master : (kept world dc args).sds ≠ [] → hosted dc args = false →
    (deactivateMasterStorageDomain world).result = .ok true
  datacenter : hosted dc args = false → world.removeDatacenter = .ok true
  removal : (kept world dc args).sds ≠ [] → world.spmHost ≠ .ok none
  hosts : ∀ host ∈ (kept world dc args).hosts, world.removeHost host = .ok true

/-- No failure is masked: where nothing raises and the steps succeed that the status tells of, all
others do. -/
def NothingMasked : Prop :=
  EveryStepEnds world dc args → DecidingStepsSucceed world dc args →
    MaskedStepsSucceed world dc args

end

/-! ## Steps -/

section

variable {world : World} {dc : DataCenter} {args : CleanArgs} {bad : Entry → Prop} {name : Step}
  {function : Proc Bool} {request : Request} {ok : Bool}

theorem result_step : (step name function).result = function.result := by
  cases h : function.result with
  | ok value => exact congrArg Recorded.result (Recorded.bind_eq_of_ok h)
  | error fault => exact congrArg Recorded.result (Recorded.bind_eq_of_error h)

theorem avoids_step_iff (h : function.result = .ok ok) :
    Avoids bad (step name function) ↔ Avoids bad function ∧ ¬ bad (.ended name ok) := by
  unfold step
  rw [Recorded.avoids_bind_iff h, Recorded.avoids_bind_iff rfl,
    and_iff_left Recorded.avoids_pure]
  exact and_congr_right fun _ => Recorded.avoids_ask_iff

theorem not_failed_asked : ¬ Failed (.asked request) := by
  rintro ⟨name, h⟩
  exact nomatch h

theorem failed_ended_iff : Failed (.ended name ok) ↔ ok = false := by
  constructor
  · rintro ⟨other, h⟩
    exact (Entry.ended.inj h).2
  · rintro rfl
    exact ⟨name, rfl⟩

/-- A step whose function only asks for something fails exactly if its result says so. -/
theorem avoids_failed_step_iff (hends : Ends function.result) (havoids : Avoids Failed function) :
    Avoids Failed (step name function) ↔ function.result = .ok true := by
  obtain ⟨ok, hok⟩ := hends
  rw [avoids_step_iff hok, and_iff_right havoids, failed_ended_iff, hok, Except.ok.injEq,
    Bool.not_eq_false]

theorem not_askedProtected_ended : ¬ AskedProtected world dc args (.ended name ok) := by
  rintro ⟨request, -, h⟩
  exact nomatch h

theorem askedProtected_iff :
    AskedProtected world dc args (.asked request) ↔ Protected world dc args request := by
  constructor
  · rintro ⟨other, hother, h⟩
    obtain rfl := Entry.asked.inj h
    exact hother
  · exact fun h => ⟨request, h, rfl⟩

/-! ### What the functions ask for -/

theorem avoids_safelyRemoveVms {vms : List Text} (h : ¬ bad (.asked (.removeVms vms))) :
    Avoids bad (safelyRemoveVms world vms) :=
  Recorded.avoids_ite (fun _ => Recorded.avoids_pure) fun _ => Recorded.avoids_ask_iff.mpr h

theorem avoids_deactivateMasterStorageDomain
    (h : ∀ domain, ¬ bad (.asked (.deactivateDomain domain))) :
    Avoids bad (deactivateMasterStorageDomain world) := by
  refine Recorded.avoids_ite (fun _ => ?_) fun _ => Recorded.avoids_pure
  refine Recorded.avoids_bind Recorded.avoids_call fun active => ?_
  refine Recorded.avoids_ite (fun _ => ?_) fun _ => Recorded.avoids_pure
  exact Recorded.avoids_bind (Recorded.avoids_ask_iff.mpr (h _)) fun _ => Recorded.avoids_pure

theorem avoids_deleteDisks (h : ∀ disk, ¬ bad (.asked (.deleteDisk disk)))
    (disks : List FloatingDisk) : Avoids bad (deleteDisks world disks) := by
  induction disks with
  | nil => exact Recorded.avoids_pure
  | cons disk disks ih =>
    refine Recorded.avoids_bind (Recorded.avoids_ask_iff.mpr (h _)) fun deleted => ?_
    exact Recorded.avoids_ite (fun _ => ih) fun _ => Recorded.avoids_pure

theorem avoids_removeFloatingDisks (h : ∀ disk, ¬ bad (.asked (.deleteDisk disk)))
    (domain : Text) : Avoids bad (removeFloatingDisks world domain) := by
  refine Recorded.avoids_bind Recorded.avoids_call fun disks => ?_
  refine Recorded.avoids_ite (fun _ => Recorded.avoids_pure) fun _ => ?_
  refine Recorded.avoids_bind (avoids_deleteDisks h _) fun deleted => ?_
  exact Recorded.avoids_ite (fun _ => Recorded.avoids_call) fun _ => Recorded.avoids_pure

theorem avoids_removeStorageDomains {host formatExport formatIso : Text}
    {sds : List StorageDomain}
    (h : ∀ sd ∈ sds, ¬ bad (.asked (.removeStorageDomain sd.name))) :
    Avoids bad (removeStorageDomains world host formatExport formatIso sds) := by
  induction sds with
  | nil => exact Recorded.avoids_pure
  | cons sd sds ih =>
    obtain ⟨hsd, hrest⟩ := List.forall_mem_cons.mp h
    refine Recorded.avoids_bind Recorded.avoids_call fun found => ?_
    refine Recorded.avoids_ite (fun _ => ?_) fun _ => ih hrest
    refine Recorded.avoids_bind (Recorded.avoids_ask_iff.mpr hsd) fun removed => ?_
    exact Recorded.avoids_ite (fun _ => ih hrest) fun _ => Recorded.avoids_pure

end

/-! ## The phases -/

section

variable {world : World} {dc : DataCenter} {args : CleanArgs} {bad : Entry → Prop}
  {collected : Collected} {sds : List StorageDomain} {status next : Bool}

/-- The result of a step that is dropped. -/
theorem result_drop_eq_ok_iff {name : Step} {function : Proc Bool} :
    (do let _ ← step name function
        return ⟨⟩ : Proc PUnit).result = .ok ⟨⟩ ↔ Ends function.result := by
  rw [Recorded.result_bind_eq_ok_iff, result_step]
  exact exists_congr fun ok => and_iff_left rfl

theorem avoids_drop_iff {name : Step} {function : Proc Bool} (hends : Ends function.result)
    (havoids : Avoids Failed function) :
    Avoids Failed (do
      let _ ← step name function
      return ⟨⟩ : Proc PUnit) ↔ function.result = .ok true := by
  rw [← avoids_failed_step_iff hends havoids]
  obtain ⟨ok, hok⟩ := hends
  rw [Recorded.avoids_bind_iff (result_step.trans hok), and_iff_left Recorded.avoids_pure]

theorem cleanClusters_eq :
    cleanClusters world dc args = (do
      (connectedClusters dc).forM (cleanCluster world dc args)
      return collectedAll dc args : Proc Collected) :=
  Recorded.foldlM_eq_forM _

variable {sd : StorageDomain} {cluster : Cluster} {host : Text}

theorem result_cleanCluster_iff :
    (cleanCluster world dc args cluster).result = .ok ⟨⟩ ↔
      Ends (vmsResult world dc args cluster) ∧
        Ends (world.removeTemplatesConnectedCluster cluster.name) := by
  unfold cleanCluster
  rw [Recorded.result_bind_eq_ok_iff, result_step]
  change (∃ ok, _ ∧ world.removeTemplatesConnectedCluster cluster.name = _) ↔ _
  rw [exists_and_right]
  refine and_congr_right fun _ => ⟨fun h => ⟨_, h⟩, ?_⟩
  rintro ⟨value, h⟩
  exact h

theorem avoids_cleanCluster_iff (h : (cleanCluster world dc args cluster).result = .ok ⟨⟩) :
    Avoids Failed (cleanCluster world dc args cluster) ↔
      vmsResult world dc args cluster = .ok true := by
  obtain ⟨hends, -⟩ := result_cleanCluster_iff.mp h
  have havoids : Avoids Failed (safelyRemoveVms world (vmsToRemove dc args cluster)) :=
    avoids_safelyRemoveVms not_failed_asked
  unfold vmsResult at hends ⊢
  rw [← @avoids_failed_step_iff (.vms cluster.name) _ hends havoids]
  obtain ⟨ok, hok⟩ := hends
  unfold cleanCluster
  rw [Recorded.avoids_bind_iff (result_step.trans hok), Recorded.avoids_ask_iff,
    and_iff_left not_failed_asked]

theorem result_selectSpm_iff :
    (selectSpm world args collected).result = .ok ⟨⟩ ↔
      (collected.hostedClName.isSome = true →
        Ends (world.selectHostAsSpm (world.vmHost args.hostedEngineVm))) := by
  unfold selectSpm
  cases collected.hostedClName.isSome with
  | false => exact iff_of_true rfl nofun
  | true =>
    rw [if_pos rfl, Recorded.result_bind_eq_ok_iff]
    refine (exists_congr fun ok => and_iff_left rfl).trans ?_
    exact ⟨fun h _ => h, fun h => h rfl⟩

theorem avoids_selectSpm : Avoids bad (selectSpm world args collected) :=
  Recorded.avoids_ite
    (fun _ => Recorded.avoids_bind Recorded.avoids_call fun _ => Recorded.avoids_pure)
    fun _ => Recorded.avoids_pure

theorem avoids_waitForTasks {place : Nat} : Avoids bad (waitForTasks world args place) :=
  Recorded.avoids_ite (fun _ => Recorded.avoids_call) fun _ => Recorded.avoids_pure

theorem ends_waitForTasks_iff {place : Nat} :
    Ends (waitForTasks world args place).result ↔
      (waitForTasks world args place).result = .ok ⟨⟩ := by
  constructor
  · rintro ⟨value, h⟩
    exact h
  · exact fun h => ⟨⟨⟩, h⟩

/-! ### The storage domains -/

theorem result_cleanDomain_iff :
    (cleanDomain world sd).result = .ok ⟨⟩ ↔ Ends (removeFloatingDisks world sd.name).result :=
  result_drop_eq_ok_iff

theorem avoids_cleanDomain_iff (h : (cleanDomain world sd).result = .ok ⟨⟩) :
    Avoids Failed (cleanDomain world sd) ↔
      (removeFloatingDisks world sd.name).result = .ok true :=
  avoids_drop_iff (result_cleanDomain_iff.mp h)
    (avoids_removeFloatingDisks (fun _ => not_failed_asked) sd.name)

theorem result_detachDomain_iff :
    (detachDomain world sd).result = .ok ⟨⟩ ↔
      (sd.master = false → world.detachAndDeactivateDomain sd.name = .ok true) := by
  unfold detachDomain
  cases sd.master with
  | true => exact iff_of_true rfl nofun
  | false =>
    rw [if_neg nofun, Recorded.result_bind_eq_ok_iff, result_step]
    change (∃ detached, world.detachAndDeactivateDomain sd.name = _ ∧ _) ↔ _
    constructor
    · rintro ⟨detached, h, hvalue⟩ -
      cases detached with
      | true => exact h
      | false => exact nomatch hvalue
    · exact fun h => ⟨true, h rfl, rfl⟩

/-- A domain that is not detached leads to an exception. -/
theorem avoids_detachDomain (h : (detachDomain world sd).result = .ok ⟨⟩) :
    Avoids Failed (detachDomain world sd) := by
  have hdetached := result_detachDomain_iff.mp h
  unfold detachDomain
  refine Recorded.avoids_ite (fun _ => Recorded.avoids_pure) fun hmaster => ?_
  have hok := hdetached (Bool.eq_false_iff.mpr hmaster)
  have hresult : (step (.detach sd.name)
      (ask (.asked (.detachDomain sd.name)) (world.detachAndDeactivateDomain sd.name))).result =
        .ok true := result_step.trans hok
  rw [Recorded.avoids_bind_iff hresult, avoids_failed_step_iff ⟨true, hok⟩
    (Recorded.avoids_ask_iff.mpr not_failed_asked)]
  exact ⟨hok, Recorded.avoids_pure⟩

theorem result_deactivateMaster_iff :
    (deactivateMaster world args collected status).result = .ok next ↔
      if collected.hostedClName.isSome then status = next
      else (deactivateMasterStorageDomain world).result = .ok next ∧
        Ends (waitForTasks world args 2).result := by
  unfold deactivateMaster
  cases collected.hostedClName.isSome with
  | true => exact Recorded.result_pure_eq_ok_iff
  | false =>
    rw [if_neg nofun, if_neg nofun, Recorded.result_bind_eq_ok_iff, result_step,
      ends_waitForTasks_iff]
    constructor
    · rintro ⟨ok, hok, h⟩
      obtain ⟨_, hwait, hvalue⟩ := Recorded.result_bind_eq_ok_iff.mp h
      obtain rfl := Recorded.result_pure_eq_ok_iff.mp hvalue
      exact ⟨hok, hwait⟩
    · rintro ⟨hok, hwait⟩
      exact ⟨next, hok, Recorded.result_bind_eq_ok_iff.mpr ⟨⟨⟩, hwait, rfl⟩⟩

theorem avoids_deactivateMaster_iff
    (h : (deactivateMaster world args collected status).result = .ok next) :
    Avoids Failed (deactivateMaster world args collected status) ↔
      (collected.hostedClName.isSome = false →
        (deactivateMasterStorageDomain world).result = .ok true) := by
  rw [result_deactivateMaster_iff] at h
  unfold deactivateMaster
  cases hhosted : collected.hostedClName.isSome with
  | true => exact iff_of_true Recorded.avoids_pure nofun
  | false =>
    rw [hhosted, if_neg nofun] at h
    obtain ⟨hok, hwait⟩ := h
    have havoids := @avoids_failed_step_iff .masterDeactivation
      (deactivateMasterStorageDomain world) ⟨next, hok⟩
      (avoids_deactivateMasterStorageDomain fun _ => not_failed_asked)
    rw [if_neg nofun, Recorded.avoids_bind_iff (result_step.trans hok),
      Recorded.avoids_bind_iff (ends_waitForTasks_iff.mp hwait), havoids]
    rw [and_iff_left ⟨avoids_waitForTasks, Recorded.avoids_pure⟩]
    exact ⟨fun h _ => h, fun h => h rfl⟩

/-- What has to be for the block under `if sds` to return this status. -/
structure DomainsDeactivated (world : World) (args : CleanArgs) (collected : Collected)
    (sds : List StorageDomain) (status next : Bool) : Prop where
  floatingDisks : ∀ sd ∈ sds, Ends (removeFloatingDisks world sd.name).result
  tasks : ∀ place < 2, Ends (waitForTasks world args place).result
  detached : ∀ sd ∈ sds, sd.master = false →
    world.detachAndDeactivateDomain sd.name = .ok true
  master : (deactivateMaster world args collected status).result = .ok next

theorem result_deactivateDomains_iff (hsds : sds ≠ []) :
    (deactivateDomains world args collected sds status).result = .ok next ↔
      DomainsDeactivated world args collected sds status next := by
  unfold deactivateDomains
  rw [if_neg (fun h => hsds (List.isEmpty_iff.mp h))]
  simp only [Recorded.result_bind_eq_ok_iff]
  constructor
  · rintro ⟨_, hfloating, _, hfirst, _, hdetached, _, hsecond, hmaster⟩
    have hfloating := Recorded.result_forM_eq_ok_iff.mp hfloating
    have hdetached := Recorded.result_forM_eq_ok_iff.mp hdetached
    refine ⟨fun sd hsd => result_cleanDomain_iff.mp (hfloating sd hsd), fun place hplace => ?_,
      fun sd hsd => result_detachDomain_iff.mp (hdetached sd hsd), hmaster⟩
    cases place with
    | zero => exact ⟨_, hfirst⟩
    | succ place =>
      obtain rfl := Nat.lt_one_iff.mp (Nat.lt_of_succ_lt_succ hplace)
      exact ⟨_, hsecond⟩
  · rintro ⟨hfloating, htasks, hdetached, hmaster⟩
    have hdisks : (sds.forM (cleanDomain world)).result = .ok ⟨⟩ :=
      Recorded.result_forM_eq_ok_iff.mpr fun sd hsd =>
        result_cleanDomain_iff.mpr (hfloating sd hsd)
    have hdomains : (sds.forM (detachDomain world)).result = .ok ⟨⟩ :=
      Recorded.result_forM_eq_ok_iff.mpr fun sd hsd =>
        result_detachDomain_iff.mpr (hdetached sd hsd)
    have hfirst := ends_waitForTasks_iff.mp (htasks 0 (by decide))
    have hsecond := ends_waitForTasks_iff.mp (htasks 1 (by decide))
    exact ⟨⟨⟩, hdisks, ⟨⟩, hfirst, ⟨⟩, hdomains, ⟨⟩, hsecond, hmaster⟩

theorem avoids_deactivateDomains_iff (hsds : sds ≠ [])
    (h : DomainsDeactivated world args collected sds status next) :
    Avoids Failed (deactivateDomains world args collected sds status) ↔
      (∀ sd ∈ sds, (removeFloatingDisks world sd.name).result = .ok true) ∧
        (collected.hostedClName.isSome = false →
          (deactivateMasterStorageDomain world).result = .ok true) := by
  have hfloating : ∀ sd ∈ sds, (cleanDomain world sd).result = .ok ⟨⟩ :=
    fun sd hsd => result_cleanDomain_iff.mpr (h.floatingDisks sd hsd)
  have hdetached : ∀ sd ∈ sds, (detachDomain world sd).result = .ok ⟨⟩ :=
    fun sd hsd => result_detachDomain_iff.mpr (h.detached sd hsd)
  have hfirst := ends_waitForTasks_iff.mp (h.tasks 0 (by decide))
  have hsecond := ends_waitForTasks_iff.mp (h.tasks 1 (by decide))
  unfold deactivateDomains
  rw [if_neg (fun h => hsds (List.isEmpty_iff.mp h)),
    Recorded.avoids_bind_iff (Recorded.result_forM_eq_ok_iff.mpr hfloating),
    Recorded.avoids_bind_iff hfirst,
    Recorded.avoids_bind_iff (Recorded.result_forM_eq_ok_iff.mpr hdetached),
    Recorded.avoids_bind_iff hsecond, Recorded.avoids_forM_iff hfloating,
    Recorded.avoids_forM_iff hdetached, avoids_deactivateMaster_iff h.master,
    and_iff_right avoids_waitForTasks, and_iff_right avoids_waitForTasks,
    and_iff_right fun sd hsd => avoids_detachDomain (hdetached sd hsd)]
  exact and_congr_left' (forall₂_congr fun sd hsd => avoids_cleanDomain_iff (hfloating sd hsd))

/-! ### The data center, the hosts and the clusters -/

theorem result_removeDatacenter_iff :
    (removeDatacenter world collected status).result = .ok next ↔
      if collected.hostedClName.isSome then status = next
      else ∃ ok, world.removeDatacenter = .ok ok ∧ (if ok then status else false) = next := by
  unfold removeDatacenter
  cases collected.hostedClName.isSome with
  | true => exact Recorded.result_pure_eq_ok_iff
  | false =>
    rw [if_neg nofun, if_neg nofun, Recorded.result_bind_eq_ok_iff, result_step]
    exact exists_congr fun ok => and_congr_right fun _ => Recorded.result_pure_eq_ok_iff

theorem avoids_removeDatacenter_iff
    (h : (removeDatacenter world collected status).result = .ok next) :
    Avoids Failed (removeDatacenter world collected status) ↔
      (collected.hostedClName.isSome = false → world.removeDatacenter = .ok true) := by
  rw [result_removeDatacenter_iff] at h
  unfold removeDatacenter
  cases hhosted : collected.hostedClName.isSome with
  | true => exact iff_of_true Recorded.avoids_pure nofun
  | false =>
    rw [hhosted, if_neg nofun] at h
    obtain ⟨ok, hok, -⟩ := h
    have havoids := @avoids_failed_step_iff .datacenter
      (ask (.asked .removeDatacenter) world.removeDatacenter) ⟨ok, hok⟩
      (Recorded.avoids_ask_iff.mpr not_failed_asked)
    rw [if_neg nofun, Recorded.avoids_bind_iff (result_step.trans hok),
      and_iff_left Recorded.avoids_pure, havoids]
    exact ⟨fun h _ => h, fun h => h rfl⟩

theorem removeDomains_of_nil {spmHost : Option Text} (hsds : sds = []) :
    removeDomains world args spmHost sds status = return status := by
  subst hsds
  cases spmHost with
  | none => rfl
  | some host => rfl

theorem removeDomains_of_ne (hsds : sds ≠ []) :
    removeDomains world args (some host) sds status = step .storageDomains
      (removeStorageDomains world host args.formatExpStorage args.formatIsoStorage sds) :=
  if_neg fun h => hsds (List.isEmpty_iff.mp h)

/-- The removal of the domains has not failed if it has succeeded or has not been asked for. -/
theorem avoids_removeDomains {spmHost : Option Text}
    (h : (removeDomains world args spmHost sds status).result = .ok true) :
    Avoids Failed (removeDomains world args spmHost sds status) := by
  by_cases hsds : sds = []
  · rw [removeDomains_of_nil hsds]
    exact Recorded.avoids_pure
  · cases spmHost with
    | none => exact Recorded.avoids_pure
    | some host =>
      rw [removeDomains_of_ne hsds, result_step] at h
      rw [removeDomains_of_ne hsds]
      exact (avoids_failed_step_iff ⟨true, h⟩
        (avoids_removeStorageDomains fun _ _ => not_failed_asked)).mpr h

theorem result_removeHost_iff :
    (removeHost world host).result = .ok ⟨⟩ ↔ Ends (world.removeHost host) :=
  result_drop_eq_ok_iff

theorem avoids_removeHost_iff (h : (removeHost world host).result = .ok ⟨⟩) :
    Avoids Failed (removeHost world host) ↔ world.removeHost host = .ok true :=
  avoids_drop_iff (result_removeHost_iff.mp h) (Recorded.avoids_ask_iff.mpr not_failed_asked)

theorem result_removeCluster :
    (removeCluster world cluster).result = world.removeCluster cluster.name :=
  result_step

theorem avoids_removeCluster (h : (removeCluster world cluster).result = .ok true) :
    Avoids Failed (removeCluster world cluster) := by
  rw [result_removeCluster] at h
  exact (avoids_failed_step_iff ⟨true, h⟩ (Recorded.avoids_ask_iff.mpr not_failed_asked)).mpr h

end

end OvirtArt.TestsLib.CleanDatacenter
