import OvirtArt.Networking.SetupNetworks

set_option autoImplicit false

/-!
# `clean_host_interfaces`: removing all networks of a host

The networks to be removed are chosen from the attachments of the host, the bonds
from its NICs.  A bond is kept for the network on the bond itself only: this file
says for which hosts that is enough for the networks that are to stay.

A host is given with what the engine tells of it.  The request is judged by what it asks for; what
the engine does with it, and the log, are left out.
-/

namespace OvirtArt.Networking

open OvirtArt.CoreApi OvirtArt.Foundation

/-! ## The host -/

/-- What the engine answers about the host and its cluster. -/
structure Host where
  engine : Engine
  /-- `nic.get_network()`. -/
  nicNetwork : HostNic → Option Network
  /-- The name of the management network of the cluster of the host. -/
  managementNetwork : Except PyException Text
  /-- `is_gluster_network(network, host.get_cluster())`. -/
  isGlusterNetwork : Text → Except PyException Bool
  /-- `remove_unmanaged_networks(host)`. -/
  removeUnmanagedNetworks : Except PyException Bool

/-- `nic_name.startswith(BOND) and "." not in nic_name`. -/
def isBond (name : Text) : Bool := bond.isPrefixOf name && !name.contains '.'

section

variable (host : Host) (removeGluster : Bool)

/-! ## `clean_host_interfaces` -/

/-- The network of an attachment, if it is to be removed. -/
def networkToRemove (mgmtNetName : Text) (attachment : NetworkAttachment) :
    Except PyException (Option Text) := do
  let attNetworkName ← getNetworkNameFromAttachment host.engine attachment
  let kept ← (if removeGluster then .ok false else host.isGlusterNetwork attNetworkName)
  .ok (if kept then none
    else if attNetworkName ≠ mgmtNetName then some attNetworkName
    else none)

/-- The name of a NIC, if it is that of a bond to be removed. -/
def bondToRemove (mgmtNetName : Text) (nic : HostNic) : Except PyException (Option Text) :=
  match nic.name with
  | none => .error (.attributeError "startswith".toList)
  | some nicName =>
    .ok (if isBond nicName then
        match host.nicNetwork nic with
        | some nicNetwork => if nicNetwork.name ≠ mgmtNetName then some nicName else none
        | none => some nicName
      else none)

/-- `kwargs["remove"]`. -/
def dictToRemove : Except PyException Remove := do
  let mgmtNetName ← host.managementNetwork
  let networks ← gather (networkToRemove host removeGluster mgmtNetName) host.engine.attachments
  let bonds ← gather (bondToRemove host mgmtNetName) host.engine.hostNics
  .ok
    { networks := networks
      bonds := bonds
      labels := host.engine.hostNics.flatMap fun nic =>
        (host.engine.hostNicLabels nic).map NetworkLabel.id }

/-- What `clean_host_interfaces` comes to before its request is answered. -/
inductive Cleaning where
  /-- An unmanaged network is not removed: nothing else is asked for. -/
  | unmanagedLeft
  /-- There is nothing to be removed. -/
  | clean
  | request (params : SnParams)
  deriving DecidableEq

/-- `clean_host_interfaces` up to the answer to its request. -/
def cleanHostInterfaces : Except PyException Cleaning := do
  let remove ← dictToRemove host removeGluster
  let removed ← host.removeUnmanagedNetworks
  if removed then
    if (remove.networks ++ remove.bonds ++ remove.labels).isEmpty then .ok .clean
    else Cleaning.request <$> setupNetworks host.engine { remove := remove }
  else .ok .unmanagedLeft

/-! ## What is to stay -/

/-- The network is to stay on the host. -/
def Stays (network : Text) : Prop :=
  host.managementNetwork = .ok network ∨
    (removeGluster = false ∧ host.isGlusterNetwork network = .ok true)

/-- The NIC is the device of this name, or a VLAN device on it. -/
def IsOn (name : Text) (nic : HostNic) : Prop :=
  nic.name = some name ∨ ∃ tag, nic.name = some (name ++ '.' :: tag)

/-- A network that is to stay is on the bond of this name. -/
def CarriesStaying (name : Text) : Prop :=
  ∃ nic ∈ host.engine.hostNics, IsOn name nic ∧
    ∃ network, host.nicNetwork nic = some network ∧ Stays host removeGluster network.name

/-- The request is to remove these bonds, attachments and labels: every bond but
those that carry a network that is to stay, all attachments of other networks, and
all labels. -/
structure Cleans (bonds : List (Option HostNic)) (attachments : List NetworkAttachment)
    (labels : List NetworkLabel) : Prop where
  keeps : ∀ nic, some nic ∈ bonds → ∀ name, nic.name = some name →
    ¬ CarriesStaying host removeGluster name
  bonds : ∀ nic ∈ host.engine.hostNics, ∀ name, nic.name = some name → isBond name →
    ¬ CarriesStaying host removeGluster name →
      ∃ removed, some removed ∈ bonds ∧ removed.name = some name
  attachments : ∀ attachment ∈ host.engine.attachments, ∀ network,
    getNetworkNameFromAttachment host.engine attachment = .ok network →
      (attachment ∈ attachments ↔ ¬ Stays host removeGluster network)
  labels : ∀ nic ∈ host.engine.hostNics, ∀ label ∈ host.engine.hostNicLabels nic, label ∈ labels

/-- What is asked for cleans the host. -/
def Cleaning.Cleans : Cleaning → Prop
  | unmanagedLeft => True
  | clean => Networking.Cleans host removeGluster [] [] []
  | request params =>
    Networking.Cleans host removeGluster params.removedBonds params.removedNetworkAttachments
      params.removedLabels

/-- What it takes: a bond that carries a network that is to stay has the management
network on itself. -/
def MgmtOnBond : Prop :=
  ∀ nic ∈ host.engine.hostNics, ∀ name, nic.name = some name → isBond name →
    CarriesStaying host removeGluster name →
      ∃ network, host.nicNetwork nic = some network ∧ host.managementNetwork = .ok network.name

end

/-! ## What is chosen -/

section

variable {host : Host} {removeGluster : Bool} {remove : Remove} {engine : Engine} {name : Text}
  {nic : HostNic}

theorem name_of_getHostNic (h : getHostNic engine (some name) = some nic) :
    nic.name = some name := by
  unfold getHostNic at h
  split at h
  case h_1 => exact absurd h (by simp)
  case h_2 found rest hfilter =>
    obtain rfl := Option.some.inj h
    have hmem : found ∈ found :: rest := List.mem_cons_self
    rw [← hfilter, List.mem_filter, Bool.and_eq_true, beq_iff_eq] at hmem
    exact hmem.2.2.symm

/-- A NIC of the host is found under its name, or another one of this name. -/
theorem getHostNic_of_mem (hnic : nic ∈ engine.hostNics) (hname : nic.name = some name) :
    ∃ found, getHostNic engine (some name) = some found := by
  unfold getHostNic
  split
  case h_1 hfilter =>
    have hmem : nic ∈ ([] : List HostNic) := by
      rw [← hfilter, List.mem_filter]
      exact ⟨hnic, by simp [hname]⟩
    exact absurd hmem (by simp)
  case h_2 found rest _ => exact ⟨found, rfl⟩

theorem networkToRemove_eq_some_iff {mgmtNetName : Text} {attachment : NetworkAttachment}
    (hmgmt : host.managementNetwork = .ok mgmtNetName) {result : Option Text}
    (h : networkToRemove host removeGluster mgmtNetName attachment = .ok result) :
    result = some name ↔
      getNetworkNameFromAttachment host.engine attachment = .ok name ∧
        ¬ Stays host removeGluster name := by
  obtain ⟨attNetworkName, hname, h⟩ := bind_eq_ok_iff.mp h
  obtain ⟨kept, hkept, h⟩ := bind_eq_ok_iff.mp h
  obtain rfl := Except.ok.inj h
  have hstays : Stays host removeGluster attNetworkName ↔
      mgmtNetName = attNetworkName ∨ kept = true := by
    unfold Stays
    rw [hmgmt, Except.ok.injEq]
    refine or_congr_right ?_
    cases removeGluster with
    | true =>
      obtain rfl := Except.ok.inj hkept
      simp
    | false =>
      have hkept : host.isGlusterNetwork attNetworkName = .ok kept := hkept
      simp [hkept]
  have hsame : getNetworkNameFromAttachment host.engine attachment = .ok name ↔
      attNetworkName = name := by rw [hname, Except.ok.injEq]
  rw [hsame]
  constructor
  · intro hsome
    split at hsome
    case isTrue => exact absurd hsome (by simp)
    case isFalse hnot =>
      split at hsome
      case isFalse => exact absurd hsome (by simp)
      case isTrue hne =>
        obtain rfl := Option.some.inj hsome
        refine ⟨rfl, ?_⟩
        rw [hstays]
        rintro (rfl | hkept)
        · exact hne rfl
        · exact hnot hkept
  · rintro ⟨rfl, hnot⟩
    rw [hstays, not_or] at hnot
    rw [if_neg hnot.2, if_pos fun h => hnot.1 h.symm]

theorem bondToRemove_eq_some_iff {mgmtNetName : Text}
    (hmgmt : host.managementNetwork = .ok mgmtNetName) {result : Option Text}
    (h : bondToRemove host mgmtNetName nic = .ok result) :
    result = some name ↔
      nic.name = some name ∧ isBond name ∧
        ∀ network, host.nicNetwork nic = some network →
          host.managementNetwork ≠ .ok network.name := by
  unfold bondToRemove at h
  split at h
  case h_1 => exact absurd h (by simp)
  case h_2 nicName hname =>
    obtain rfl := Except.ok.inj h
    rw [hname, Option.some.injEq, hmgmt]
    cases hbond : isBond nicName with
    | false =>
      simp only [Bool.false_eq_true, if_false, reduceCtorEq, false_iff]
      rintro ⟨rfl, hbond', _⟩
      exact absurd hbond' (by simp [hbond])
    | true =>
      cases hnetwork : host.nicNetwork nic with
      | none =>
        simp only [if_true, Option.some.injEq, reduceCtorEq, false_implies, implies_true,
          and_true]
        exact ⟨fun h => ⟨h, h ▸ hbond⟩, And.left⟩
      | some network =>
        by_cases hsame : network.name = mgmtNetName
        · simp [hsame]
        · simp only [if_true, ne_eq, hsame, not_false_eq_true, Option.some.injEq,
            Except.ok.injEq]
          refine ⟨fun h => ⟨h, h ▸ hbond, ?_⟩, And.left⟩
          rintro _ rfl heq
          exact hsame heq.symm

/-- What is to be removed: the networks that are not to stay, the bonds without the
management network on themselves, and all labels. -/
structure Chosen (host : Host) (removeGluster : Bool) (remove : Remove) : Prop where
  networks : ∀ name, name ∈ remove.networks ↔
    ∃ attachment ∈ host.engine.attachments,
      getNetworkNameFromAttachment host.engine attachment = .ok name ∧
        ¬ Stays host removeGluster name
  bonds : ∀ name, name ∈ remove.bonds ↔
    ∃ nic ∈ host.engine.hostNics, nic.name = some name ∧ isBond name ∧
      ∀ network, host.nicNetwork nic = some network → host.managementNetwork ≠ .ok network.name
  labels : remove.labels = host.engine.hostNics.flatMap fun nic =>
    (host.engine.hostNicLabels nic).map NetworkLabel.id

theorem chosen_of_dictToRemove (h : dictToRemove host removeGluster = .ok remove) :
    Chosen host removeGluster remove := by
  obtain ⟨mgmtNetName, hmgmt, h⟩ := bind_eq_ok_iff.mp h
  obtain ⟨networks, hnetworks, h⟩ := bind_eq_ok_iff.mp h
  obtain ⟨bonds, hbonds, h⟩ := bind_eq_ok_iff.mp h
  obtain rfl := Except.ok.inj h
  refine ⟨fun name => ?_, fun name => ?_, rfl⟩
  · rw [mem_gather hnetworks]
    refine exists_congr fun attachment => and_congr_right fun hmem => ?_
    obtain ⟨result, hresult⟩ := gather_ok hnetworks hmem
    rw [hresult, Except.ok.injEq]
    exact networkToRemove_eq_some_iff hmgmt hresult
  · rw [mem_gather hbonds]
    refine exists_congr fun nic => and_congr_right fun hmem => ?_
    obtain ⟨result, hresult⟩ := gather_ok hbonds hmem
    rw [hresult, Except.ok.injEq]
    exact bondToRemove_eq_some_iff hmgmt hresult

/-- A request cleans the host exactly if the management network is on each bond that
carries a network that is to stay. -/
theorem cleans_iff (chosen : Chosen host removeGluster remove) {bonds : List (Option HostNic)}
    {attachments : List NetworkAttachment} {labels : List NetworkLabel}
    (hbonds : bonds = remove.bonds.map fun name => getHostNic host.engine (some name))
    (hattachments : ∀ attachment ∈ host.engine.attachments, ∀ network,
      getNetworkNameFromAttachment host.engine attachment = .ok network →
        (attachment ∈ attachments ↔ network ∈ remove.networks))
    (hlabels : ∀ nic ∈ host.engine.hostNics, ∀ label ∈ host.engine.hostNicLabels nic,
      label.id ∈ remove.labels → label ∈ labels) :
    Cleans host removeGluster bonds attachments labels ↔ MgmtOnBond host removeGluster := by
  have hmem : ∀ nic, some nic ∈ bonds ↔
      ∃ name ∈ remove.bonds, getHostNic host.engine (some name) = some nic := by
    intro nic
    rw [hbonds, List.mem_map]
  have hasked : ∀ name ∈ remove.bonds,
      ∃ removed, some removed ∈ bonds ∧ removed.name = some name := by
    intro name hname
    obtain ⟨nic, hnic, hnicName, _⟩ := (chosen.bonds name).mp hname
    obtain ⟨found, hfound⟩ := getHostNic_of_mem hnic hnicName
    exact ⟨found, (hmem found).mpr ⟨name, hname, hfound⟩, name_of_getHostNic hfound⟩
  constructor
  · intro hcleans nic hnic name hname hbond hcarries
    by_contra hmgmt
    have hchosen : name ∈ remove.bonds := (chosen.bonds name).mpr
      ⟨nic, hnic, hname, hbond, fun network hnetwork hsame => hmgmt ⟨network, hnetwork, hsame⟩⟩
    obtain ⟨removed, hremoved, hremovedName⟩ := hasked name hchosen
    exact hcleans.keeps removed hremoved name hremovedName hcarries
  · intro hmgmt
    refine ⟨fun nic hnic name hname hcarries => ?_, fun nic hnic name hname hbond hnot => ?_,
      fun attachment hattachment network hnetwork => ?_, fun nic hnic label hlabel => ?_⟩
    · obtain ⟨chosenName, hchosen, hfound⟩ := (hmem nic).mp hnic
      obtain rfl : chosenName = name :=
        Option.some.inj ((name_of_getHostNic hfound).symm.trans hname)
      obtain ⟨other, hother, hotherName, hbond, hplain⟩ := (chosen.bonds _).mp hchosen
      obtain ⟨network, hnetwork, hsame⟩ := hmgmt other hother _ hotherName hbond hcarries
      exact hplain network hnetwork hsame
    · refine hasked name ((chosen.bonds name).mpr ⟨nic, hnic, hname, hbond, ?_⟩)
      intro network hnetwork hsame
      exact hnot ⟨nic, hnic, .inl hname, network, hnetwork, .inl hsame⟩
    · rw [hattachments attachment hattachment network hnetwork, chosen.networks]
      exact ⟨fun ⟨_, _, _, hnot⟩ => hnot, fun hnot => ⟨attachment, hattachment, hnetwork, hnot⟩⟩
    · refine hlabels nic hnic label hlabel ?_
      rw [chosen.labels]
      exact List.mem_flatMap.mpr ⟨nic, hnic, List.mem_map_of_mem hlabel⟩

/-- What a request asks to remove. -/
theorem setupNetworks_removes {kwargs : Kwargs} {params : SnParams}
    (h : setupNetworks engine kwargs = .ok params) :
    params.removedBonds = kwargs.remove.bonds.map (fun bond => getHostNic engine (some bond)) ∧
      (∀ attachment ∈ engine.attachments, ∀ network,
        getNetworkNameFromAttachment engine attachment = .ok network →
          (attachment ∈ params.removedNetworkAttachments ↔ network ∈ kwargs.remove.networks)) ∧
      params.removedLabels = engine.hostNics.flatMap fun nic =>
        (engine.hostNicLabels nic).filter fun label => label.id ∈ kwargs.remove.labels := by
  obtain ⟨removed, hremoved, h⟩ := bind_eq_ok_iff.mp h
  obtain ⟨added, _, h⟩ := bind_eq_ok_iff.mp h
  obtain ⟨updated, _, h⟩ := bind_eq_ok_iff.mp h
  obtain ⟨synchronized, _, h⟩ := bind_eq_ok_iff.mp h
  obtain rfl := Except.ok.inj h
  obtain ⟨attachments, hattachments, hremoved⟩ := bind_eq_ok_iff.mp hremoved
  obtain rfl := Except.ok.inj hremoved
  refine ⟨rfl, fun attachment hattachment network hnetwork => ?_, rfl⟩
  cases hnetworks : kwargs.remove.networks with
  | nil =>
    rw [hnetworks] at hattachments
    obtain rfl := Except.ok.inj hattachments
    simp
  | cons first rest =>
    rw [hnetworks] at hattachments
    rw [mem_attachmentsIn hattachments]
    simp [hattachment, hnetwork]

/-- The request of `clean_host_interfaces` cleans the host exactly if an unmanaged
network is left, so that there is none, or the management network is on each bond
that carries a network that is to stay. -/
theorem cleans_iff_mgmt_on_bond (host : Host) (removeGluster : Bool) (cleaning : Cleaning)
    (hran : cleanHostInterfaces host removeGluster = .ok cleaning) :
    cleaning.Cleans host removeGluster ↔
      (host.removeUnmanagedNetworks = .ok false ∨ MgmtOnBond host removeGluster) := by
  obtain ⟨remove, hremove, hran⟩ := bind_eq_ok_iff.mp hran
  obtain ⟨removed, hremoved, hran⟩ := bind_eq_ok_iff.mp hran
  have chosen := chosen_of_dictToRemove hremove
  rw [hremoved]
  cases removed with
  | false =>
    obtain rfl := Except.ok.inj hran
    exact iff_of_true trivial (.inl rfl)
  | true =>
    rw [or_iff_right (by simp)]
    rw [if_pos rfl] at hran
    split at hran
    case isTrue hempty =>
      obtain rfl := Except.ok.inj hran
      simp only [List.isEmpty_iff, List.append_eq_nil_iff] at hempty
      obtain ⟨⟨hnetworks, hbonds⟩, hlabels⟩ := hempty
      refine cleans_iff chosen (by rw [hbonds]; rfl) ?_ ?_
      · intro attachment _ network _
        simp [hnetworks]
      · intro nic _ label _ hlabel
        simp [hlabels] at hlabel
    case isFalse =>
      obtain ⟨params, hsent, rfl⟩ := map_eq_ok_iff.mp hran
      obtain ⟨hbonds, hattachments, hlabels⟩ := setupNetworks_removes hsent
      refine cleans_iff chosen hbonds hattachments ?_
      intro nic hnic label hlabel hid
      rw [hlabels]
      exact List.mem_flatMap.mpr ⟨nic, hnic, List.mem_filter.mpr ⟨hlabel, by simpa using hid⟩⟩

/-- A host with a bond and a VLAN device on it, with the management network on the
device of this name. -/
def bondHost (device : Text) : Host where
  engine :=
    { smallEngine with
      hostNics := [{ name := some "bond0".toList }, { name := some "bond0.10".toList }] }
  nicNetwork := fun nic =>
    if nic.name = some device then some ⟨"0".toList, "ovirtmgmt".toList⟩ else none
  managementNetwork := .ok "ovirtmgmt".toList
  isGlusterNetwork := fun _ => .ok false
  removeUnmanagedNetworks := .ok true

/-- The request that removes the other network of that host, and these bonds. -/
def bondHostRequest (bonds : List (Option HostNic)) : Cleaning :=
  .request
    { modifiedNetworkAttachments := []
      removedNetworkAttachments := smallEngine.attachments
      modifiedBonds := []
      removedBonds := bonds
      modifiedLabels := []
      removedLabels := []
      synchronizedNetworkAttachments := []
      connectivityTimeout := 60
      checkConnectivity := true }

theorem cleans_iff_mgmt_on_bond_direct :
    cleanHostInterfaces (bondHost "bond0".toList) false = .ok (bondHostRequest []) ∧
      ((bondHostRequest []).Cleans (bondHost "bond0".toList) false ↔
        ((bondHost "bond0".toList).removeUnmanagedNetworks = .ok false ∨
          MgmtOnBond (bondHost "bond0".toList) false)) := by
  have hran : cleanHostInterfaces (bondHost "bond0".toList) false = .ok (bondHostRequest []) := by
    decide
  exact ⟨hran, cleans_iff_mgmt_on_bond _ _ _ hran⟩

/-- The bond under a VLAN device with the management network is removed. -/
theorem bond_under_management_removed :
    ¬ ∀ (host : Host) (removeGluster : Bool) (cleaning : Cleaning),
      cleanHostInterfaces host removeGluster = .ok cleaning →
        cleaning.Cleans host removeGluster := by
  intro hall
  have hran : cleanHostInterfaces (bondHost "bond0.10".toList) false =
      .ok (bondHostRequest [some { name := some "bond0".toList }]) := by
    decide
  refine (hall _ _ _ hran).keeps _ List.mem_cons_self "bond0".toList rfl ?_
  refine ⟨{ name := some "bond0.10".toList }, by decide, .inr ⟨"10".toList, rfl⟩, ?_⟩
  exact ⟨⟨"0".toList, "ovirtmgmt".toList⟩, by decide, .inl rfl⟩

end

end OvirtArt.Networking
