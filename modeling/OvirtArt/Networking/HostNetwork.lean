import OvirtArt.CoreApi.Http

set_option autoImplicit false

/-!
# `tests_lib/low_level/host_network.py`: the parts of a setup networks request

The objects that a setup networks request consists of, and the functions that
prepare them from the entries of the dictionaries `add` and `update`.  What the
engine knows of the host is a parameter; a dictionary is the list of its items,
in the order in which it is iterated over.

Attachments, bonds, labels and addresses have the fields that these functions read or write, with
the defaults of the source.  The lookup of the host is left out.
-/

namespace OvirtArt.Networking

open OvirtArt.CoreApi

/-! ## Objects of the data structure module -/

/-- An option of a bond. -/
structure BondOption where
  name : Text
  value : Prim
  deriving DecidableEq

/-- A `HostNic` as a slave of a bond. -/
structure Slave where
  id : Option Text
  name : Text
  deriving DecidableEq

/-- The slaves and the options of a bond. -/
structure Bonding where
  slaves : Option (List Slave)
  options : Option (List BondOption)
  deriving DecidableEq

/-- A NIC of a host, or a bond. -/
structure HostNic where
  id : Option Text := none
  name : Option Text := none
  bonding : Option Bonding := none
  deriving DecidableEq

/-- A network of the data center. -/
structure Network where
  id : Text
  name : Text
  deriving DecidableEq

/-- `Ip`, by the attributes that are set on it. -/
abbrev Ip := List (Text × Prim)

/-- How an attachment gets its address. -/
structure IpAddressAssignment where
  assignmentMethod : Option Prim
  ip : Ip
  deriving DecidableEq

/-- A network that is attached to a NIC. -/
structure NetworkAttachment where
  id : Option Text := none
  network : Option Network := none
  hostNic : Option HostNic := none
  overrideConfiguration : Bool := false
  properties : Option (List (Text × Text)) := none
  qos : Option (List (Text × Prim)) := none
  ipAddressAssignments : Option (List IpAddressAssignment) := none
  /-- The name servers of the DNS resolver configuration. -/
  dnsResolverConfiguration : Option (List Text) := none
  deriving DecidableEq

/-- A label on a NIC. -/
structure NetworkLabel where
  id : Text
  hostNic : Option HostNic
  deriving DecidableEq

/-- What the engine answers about the host and the networks. -/
structure Engine where
  /-- `get_host_nics_list(host)`. -/
  hostNics : List HostNic
  /-- `get_host_network_attachments(host)`. -/
  attachments : List NetworkAttachment
  /-- `get_object_name_by_id(NET_API, id)`. -/
  networkName : Text → Except PyException Text
  /-- `find_network(network, data_center, cluster)`. -/
  findNetwork : Text → Option Text → Option Text → Except PyException (Option Network)
  /-- `get_host_nic_labels(nic)`. -/
  hostNicLabels : HostNic → List NetworkLabel
  /-- `hasattr(data_st.Qos(), name)`. -/
  hasQosAttribute : Text → Bool

/-- An entry of the dictionary `add` or `update`: what its keys hold.  A list or a
dictionary that is missing counts as an empty one, except `dns`. -/
structure Entry where
  network : Option Text := none
  nic : Option Text := none
  slaves : List Text := []
  mode : Option Int := none
  miimon : Option Int := none
  labels : List Text := []
  ip : List (Text × Ip) := []
  overrideConfiguration : Bool := false
  properties : List (Text × Text) := []
  datacenter : Option Text := none
  cluster : Option Text := none
  qos : List (Text × Prim) := []
  dns : Option (List Text) := none
  update : Bool := false
  deriving DecidableEq

/-- `BOND`. -/
def bond : Text := "bond".toList

/-- `MODE`. -/
def mode : Text := "mode".toList

/-- `MIIMON`. -/
def miimon : Text := "miimon".toList

/-! ## Network attachments -/

section

variable (engine : Engine)

/-- `ll_hosts.get_host_nic`. -/
def getHostNic (nic : Option Text) : Option HostNic :=
  match engine.hostNics.filter (fun x => x.name.isSome && nic == x.name) with
  | [] => none
  | found :: _ => some found

/-- `get_network_name_from_attachment`. -/
def getNetworkNameFromAttachment (attachment : NetworkAttachment) : Except PyException Text :=
  match attachment.network with
  | none => .error (.attributeError "get_id".toList)
  | some network => engine.networkName network.id

/-- Those of the attachments whose network is one of the given. -/
def attachmentsIn (networks : List (Option Text)) :
    List NetworkAttachment → Except PyException (List NetworkAttachment)
  | [] => .ok []
  | attachment :: rest => do
      let name ← getNetworkNameFromAttachment engine attachment
      let found ← attachmentsIn networks rest
      .ok (if some name ∈ networks then attachment :: found else found)

/-- `get_networks_attachments` of a host. -/
def getNetworksAttachments (networks : List (Option Text)) :
    Except PyException (List NetworkAttachment) :=
  attachmentsIn engine networks engine.attachments

/-- `ll_networks.create_properties`. -/
def createProperties (properties : List (Text × Text)) : List (Text × Text) :=
  if properties.any fun property =>
      (property.1 = "bridge_opts".toList ∨ property.1 = "ethtool_opts".toList)
        ∧ ¬ property.2.isEmpty then
    properties
  else []

/-- `ll_datacenters.prepare_qos_obj`. -/
def prepareQosObj : List (Text × Prim) → Except PyException (List (Text × Prim))
  | [] => .ok []
  | (key, val) :: rest =>
    if engine.hasQosAttribute key then do
      let attributes ← prepareQosObj rest
      .ok ((key, val) :: attributes)
    else if key ≠ "new_name".toList then
      .error (.dataCenterException ("QoS object has no attribute: ".toList ++ key))
    else prepareQosObj rest

/-- The assignment that `prepare_ip_object` makes of one IP. -/
def ipAddressAssignment (value : Ip) : IpAddressAssignment where
  assignmentMethod := (value.find? fun attr => attr.1 == "boot_protocol".toList).map Prod.snd
  ip := value.filter fun attr => attr.1 != "boot_protocol".toList

/-- `prepare_ip_object`. -/
def prepareIpObject (attachment : NetworkAttachment) (ip : List (Text × Ip)) :
    NetworkAttachment :=
  { attachment with ipAddressAssignments := some (ip.map fun item => ipAddressAssignment item.2) }

/-- `ip_none`. -/
def ipNone : List (Text × Ip) :=
  [("ip".toList, [("boot_protocol".toList, .str "none".toList)])]

/-- The NIC of an attachment; a bond need not be there yet. -/
def attachmentNic (nic : Text) : Option HostNic :=
  if (Text.index? bond nic).isSome then
    match getHostNic engine (some nic) with
    | some hostNic => some hostNic
    | none => some { name := some nic }
  else getHostNic engine (some nic)

/-- What `prepare_network_attachment_obj` sets on the attachment, new or found. -/
def setAttachment (entry : Entry) (attachment : NetworkAttachment) :
    Except PyException NetworkAttachment := do
  let ip := if entry.update then entry.ip else if entry.ip.isEmpty then ipNone else entry.ip
  let attachment :=
    if entry.overrideConfiguration then { attachment with overrideConfiguration := true }
    else attachment
  let attachment :=
    if entry.properties.isEmpty then attachment
    else { attachment with properties := some (createProperties entry.properties) }
  let attachment ←
    if entry.qos.isEmpty then .ok attachment
    else do
      let qos ← prepareQosObj engine entry.qos
      .ok { attachment with qos := some qos }
  let attachment :=
    if Text.truthy entry.nic then
      { attachment with hostNic := attachmentNic engine (entry.nic.getD []) }
    else attachment
  let attachment := if ip.isEmpty then attachment else prepareIpObject attachment ip
  let attachment :=
    match entry.dns with
    | none => attachment
    | some servers => { attachment with dnsResolverConfiguration := some servers }
  if Text.truthy entry.network ∧ ¬ entry.update then do
    let network ← engine.findNetwork (entry.network.getD []) entry.datacenter entry.cluster
    .ok { attachment with network := network }
  else .ok attachment

/-- `prepare_network_attachment_obj`. -/
def prepareNetworkAttachmentObj (entry : Entry) :
    Except PyException (Option NetworkAttachment) := do
  if entry.update then
    match ← getNetworksAttachments engine [entry.network] with
    | [] => .ok none
    | found :: _ => some <$> setAttachment engine entry found
  else some <$> setAttachment engine entry {}

/-! ## Bonds -/

/-- Set the value of the first option of this name. -/
def setOption (name : Text) (value : Prim) :
    List BondOption → Except PyException (List BondOption)
  | [] => .error .indexError
  | option :: rest =>
    if option.name = name then .ok ({ option with value := value } :: rest)
    else do
      let rest ← setOption name value rest
      .ok (option :: rest)

/-- Set an option of an existing bond where a value is given and not 0. -/
def updateOption (name : Text) (value : Option Int) (options : Option (List BondOption)) :
    Except PyException (Option (List BondOption)) :=
  match value with
  | none => .ok options
  | some value =>
    if value = 0 then .ok options
    else
      match options with
      | none => .error (.attributeError "get_option".toList)
      | some options => some <$> setOption name (.int value) options

/-- The options of a new bond. -/
def newOptions (entry : Entry) : List BondOption :=
  (match entry.mode with
    | none => []
    | some value => [⟨mode, .str (toString value).toList⟩])  -- BOND mode can be 0
  ++ match entry.miimon with
    | none => []
    | some value => if value = 0 then [] else [⟨miimon, .int value⟩]

/-- `host_slave_dict`: slaves under their ids, and new ones under their names. -/
abbrev SlaveDict := AList fun _ : Option Text => Slave

/-- One slave of the entry: a slave that is there is taken out, another NIC is
put in. -/
def toggleSlave (slaves : SlaveDict) (slave : Text) : SlaveDict :=
  let added : SlaveDict := slaves.insert (some slave) { id := none, name := slave.strip }
  match getHostNic engine (some slave) with
  | none => added
  | some hostNic => if hostNic.id ∈ slaves then slaves.erase hostNic.id else added

/-- The slaves of the bond after those of the entry. -/
def toggleSlaves (current : List Slave) (slaves : List Text) : List Slave :=
  let dict := current.foldl (fun dict slave => dict.insert slave.id slave) (∅ : SlaveDict)
  (slaves.foldl (toggleSlave engine) dict).entries.map Sigma.snd

/-- `prepare_bond_attachment_obj`; slaves are only set on a bond where the entry has some. -/
def prepareBondAttachmentObj (entry : Entry) : Except PyException HostNic := do
  let (hostNic, bonding, slaves) ←
    (if entry.update then
      match getHostNic engine entry.nic with
      | none => .error (.attributeError "get_bonding".toList)
      | some hostNic =>
        match hostNic.bonding with
        | none => .error (.attributeError "get_slaves".toList)
        | some bonding => do
            let options ← updateOption mode entry.mode bonding.options
            let options ← updateOption miimon entry.miimon options
            .ok (hostNic, { bonding with options := options }, bonding.slaves)
    else .ok ({}, { slaves := none, options := some (newOptions entry) }, some []))
  let hostNic := if Text.truthy entry.nic then { hostNic with name := entry.nic } else hostNic
  if entry.slaves.isEmpty then .ok { hostNic with bonding := some bonding }
  else
    match slaves with
    | none => .error (.attributeError "get_host_nic".toList)
    | some current =>
      .ok { hostNic with
        bonding := some
          { bonding with slaves := some (toggleSlaves engine current entry.slaves) } }

/-! ## All entries of a dictionary -/

/-- `prepare_add_for_setupnetworks` prepares a bond. -/
def Entry.preparesBond (entry : Entry) : Bool :=
  !entry.slaves.isEmpty || (entry.mode.isSome && entry.mode != some 0)

/-- `prepare_add_for_setupnetworks` prepares an attachment. -/
def Entry.hasNetwork (entry : Entry) : Bool := Text.truthy entry.network

/-- The labels of an entry, on its NIC. -/
def entryLabels (entry : Entry) : List NetworkLabel :=
  entry.labels.map fun label => ⟨label, getHostNic engine entry.nic⟩

/-- `network_attachments`, `bonds` and `labels`. -/
structure Prepared where
  networkAttachments : List (Option NetworkAttachment) := []
  bonds : List HostNic := []
  labels : List NetworkLabel := []

/-- The entry as it is passed on: `v[UPDATE] = True`. -/
def Entry.flagged (entry : Entry) (update : Bool) : Entry :=
  if update then { entry with update := true } else entry

/-- One entry of `prepare_add_for_setupnetworks`. -/
def prepareEntry (prepared : Prepared) (entry : Entry) : Except PyException Prepared := do
  let bonds ←
    (if entry.preparesBond then do
      let bond ← prepareBondAttachmentObj engine entry
      .ok (prepared.bonds ++ [bond])
    else .ok prepared.bonds)
  let networkAttachments ←
    (if entry.hasNetwork then do
      let attachment ← prepareNetworkAttachmentObj engine entry
      .ok (prepared.networkAttachments ++ [attachment])
    else .ok prepared.networkAttachments)
  .ok { networkAttachments := networkAttachments
        bonds := bonds
        labels := prepared.labels ++ entryLabels engine entry }

/-- `prepare_add_for_setupnetworks`: attachments and labels are added to those
that are passed in. -/
def prepareAddForSetupnetworks (networkAttachments : List (Option NetworkAttachment))
    (labels : List NetworkLabel) (dictToAdd : List (Text × Entry)) (update : Bool) :
    Except PyException Prepared :=
  (dictToAdd.map fun item => item.2.flagged update).foldlM (prepareEntry engine)
    { networkAttachments := networkAttachments, bonds := [], labels := labels }

/-! ## What is to be removed -/

/-- The dictionary `remove`. -/
structure Remove where
  networks : List Text := []
  bonds : List Text := []
  labels : List Text := []

/-- `prepare_remove_for_setupnetworks`: bonds, attachments and labels. -/
def prepareRemoveForSetupnetworks (remove : Remove) :
    Except PyException (List (Option HostNic) × List NetworkAttachment × List NetworkLabel) := do
  let attachments ←
    (if remove.networks.isEmpty then .ok []
    else getNetworksAttachments engine (remove.networks.map some))
  let labels := engine.hostNics.flatMap fun nic =>
    (engine.hostNicLabels nic).filter fun label => label.id ∈ remove.labels
  .ok (remove.bonds.map fun bond => getHostNic engine (some bond), attachments, labels)

end

end OvirtArt.Networking
