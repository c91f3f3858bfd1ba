import OvirtArt.Foundation.Collecting
import OvirtArt.Networking.HostNetwork

set_option autoImplicit false

/-!
# `tests_lib/high_level/host_network.py`: the setup networks request

What `setup_networks` sends, and when it contains a bond, an attachment and the
labels for every entry of the dictionaries `add` and `update`.

The condition is on the entries and on what the engine knows of the host.  What follows the
request, the checks of the persistence of networks, is left out.
-/

namespace OvirtArt.Networking

open OvirtArt.CoreApi OvirtArt.Foundation

/-! ## The request -/

/-- The keyword arguments of `setup_networks`; a dictionary that is missing counts
as an empty one. -/
structure Kwargs where
  remove : Remove := {}
  add : List (Text × Entry) := []
  update : List (Text × Entry) := []
  /-- `sync["networks"]`. -/
  sync : List Text := []
  checkConnectivity : Bool := true
  checkConnectivityTimeout : Nat := 60

/-- `sn_params`: the parameters of the action. -/
structure SnParams where
  modifiedNetworkAttachments : List (Option NetworkAttachment)
  removedNetworkAttachments : List NetworkAttachment
  modifiedBonds : List HostNic
  removedBonds : List (Option HostNic)
  modifiedLabels : List NetworkLabel
  removedLabels : List NetworkLabel
  synchronizedNetworkAttachments : List NetworkAttachment
  connectivityTimeout : Nat
  checkConnectivity : Bool
  deriving DecidableEq

section

variable (engine : Engine)

/-- The phase of `setup_networks` for one of its dictionaries: nothing is done
for an empty one. -/
def prepareAdd (prepared : Prepared) (dict : List (Text × Entry)) (update : Bool) :
    Except PyException Prepared :=
  if dict.isEmpty then .ok prepared
  else
    prepareAddForSetupnetworks engine prepared.networkAttachments prepared.labels dict update

/-- `setup_networks` up to its request. -/
def setupNetworks (kwargs : Kwargs) : Except PyException SnParams := do
  let (removedBonds, removedNetworkAttachments, removedLabels) ←
    prepareRemoveForSetupnetworks engine kwargs.remove
  let prepared ← prepareAdd engine {} kwargs.add false
  let prepared ← prepareAdd engine prepared kwargs.update true
  let synchronized ←
    (if kwargs.sync.isEmpty then .ok []
    else getNetworksAttachments engine (kwargs.sync.map some))
  .ok
    { modifiedNetworkAttachments := prepared.networkAttachments
      removedNetworkAttachments := removedNetworkAttachments
      modifiedBonds := prepared.bonds
      removedBonds := removedBonds
      modifiedLabels := prepared.labels
      removedLabels := removedLabels
      synchronizedNetworkAttachments := synchronized
      connectivityTimeout := kwargs.checkConnectivityTimeout
      checkConnectivity := kwargs.checkConnectivity }

end

/-! ## What a list of entries adds -/

/-- From `before` to `after`, the bonds, the attachments and the labels of the
entries are added, as `prepare_add_for_setupnetworks` dispatches them. -/
structure Adds (engine : Engine) (entries : List Entry) (before after : Prepared) : Prop where
  bonds : Collects Entry.preparesBond (prepareBondAttachmentObj engine) entries
    before.bonds after.bonds
  networkAttachments : Collects Entry.hasNetwork (prepareNetworkAttachmentObj engine) entries
    before.networkAttachments after.networkAttachments
  labels : after.labels = before.labels ++ entries.flatMap (entryLabels engine)

section

variable {engine : Engine}

theorem adds_nil (prepared : Prepared) : Adds engine [] prepared prepared where
  bonds := Collects.nil _
  networkAttachments := Collects.nil _
  labels := by simp

variable {before after : Prepared}

theorem Adds.append {first second : List Entry} {middle : Prepared}
    (h : Adds engine first before middle) (hrest : Adds engine second middle after) :
    Adds engine (first ++ second) before after where
  bonds := h.bonds.append hrest.bonds
  networkAttachments := h.networkAttachments.append hrest.networkAttachments
  labels := by rw [hrest.labels, h.labels, List.flatMap_append, List.append_assoc]

theorem adds_of_prepareEntry {entry : Entry} (h : prepareEntry engine before entry = .ok after) :
    Adds engine [entry] before after := by
  obtain ⟨bonds, hbonds, h⟩ := bind_eq_ok_iff.mp h
  obtain ⟨attachments, hattachments, h⟩ := bind_eq_ok_iff.mp h
  obtain rfl := Except.ok.inj h
  exact ⟨Collects.of_step hbonds, Collects.of_step hattachments, by simp⟩

theorem adds_of_foldlM {entries : List Entry}
    (h : entries.foldlM (prepareEntry engine) before = .ok after) :
    Adds engine entries before after :=
  foldlM_rule (R := Adds engine) adds_nil
    (fun hstep hrest => (adds_of_prepareEntry hstep).append hrest) h

/-- The entries of a dictionary as the phase sees them. -/
def flaggedEntries (dict : List (Text × Entry)) (update : Bool) : List Entry :=
  dict.map fun item => item.2.flagged update

/-- What the entry asks for can be prepared. -/
def Entry.Prepares (engine : Engine) (entry : Entry) : Prop :=
  (entry.preparesBond = true → ∃ bond, prepareBondAttachmentObj engine entry = .ok bond) ∧
  (entry.hasNetwork = true →
    ∃ attachment, prepareNetworkAttachmentObj engine entry = .ok attachment)

/-- A phase keeps the attachments and the labels of the phases before it; their
bonds it keeps if it has nothing to do itself. -/
theorem adds_of_prepareAdd {dict : List (Text × Entry)} {update : Bool}
    (h : prepareAdd engine before dict update = .ok after) :
    Adds engine (flaggedEntries dict update)
      { before with bonds := if dict.isEmpty then before.bonds else [] } after := by
  unfold prepareAdd at h
  cases hempty : dict.isEmpty with
  | true =>
    obtain rfl : before = after := by simpa [hempty] using h
    obtain rfl : dict = [] := List.isEmpty_iff.mp hempty
    exact adds_nil before
  | false =>
    rw [hempty] at h
    exact adds_of_foldlM h

theorem collected_returns_iff {α : Type} {asked : Bool} {prepared : Except PyException α}
    {before : List α} :
    (∃ after, (if asked then do
        let value ← prepared
        .ok (before ++ [value])
      else .ok before) = Except.ok after) ↔ (asked = true → ∃ value, prepared = .ok value) := by
  cases asked with
  | false => exact iff_of_true ⟨before, rfl⟩ nofun
  | true =>
    rw [if_pos rfl]
    constructor
    · rintro ⟨_, hafter⟩ -
      obtain ⟨value, hvalue, -⟩ := bind_eq_ok_iff.mp hafter
      exact ⟨value, hvalue⟩
    · intro h
      obtain ⟨value, hvalue⟩ := h rfl
      exact ⟨before ++ [value], bind_eq_ok_iff.mpr ⟨value, hvalue, rfl⟩⟩

theorem prepareEntry_returns_iff {entry : Entry} :
    (∃ after, prepareEntry engine before entry = .ok after) ↔ entry.Prepares engine := by
  unfold Entry.Prepares
  rw [← collected_returns_iff, ← collected_returns_iff]
  constructor
  · rintro ⟨_, h⟩
    obtain ⟨bonds, hbonds, h⟩ := bind_eq_ok_iff.mp h
    obtain ⟨attachments, hattachments, -⟩ := bind_eq_ok_iff.mp h
    exact ⟨⟨bonds, hbonds⟩, attachments, hattachments⟩
  · rintro ⟨⟨bonds, hbonds⟩, attachments, hattachments⟩
    exact ⟨_, bind_eq_ok_iff.mpr ⟨bonds, hbonds,
      bind_eq_ok_iff.mpr ⟨attachments, hattachments, rfl⟩⟩⟩

/-- A phase returns exactly if all its entries can be prepared. -/
theorem prepareAdd_returns_iff {dict : List (Text × Entry)} {update : Bool} :
    (∃ after, prepareAdd engine before dict update = .ok after) ↔
      ∀ entry ∈ flaggedEntries dict update, entry.Prepares engine := by
  unfold prepareAdd
  cases hempty : dict.isEmpty with
  | true =>
    obtain rfl : dict = [] := List.isEmpty_iff.mp hempty
    exact iff_of_true ⟨before, rfl⟩ fun _ h => absurd h List.not_mem_nil
  | false =>
    rw [if_neg Bool.false_ne_true]
    exact foldlM_returns_iff (P := Entry.Prepares engine) fun _ _ => prepareEntry_returns_iff

end

/-! ## The whole request -/

/-- All entries of the request: those of `add`, then those of `update`. -/
def Kwargs.entries (kwargs : Kwargs) : List Entry :=
  flaggedEntries kwargs.add false ++ flaggedEntries kwargs.update true

/-- The entries whose bonds are in the request: the phase for `update` begins with
new bonds. -/
def Kwargs.bondEntries (kwargs : Kwargs) : List Entry :=
  (if kwargs.update.isEmpty then flaggedEntries kwargs.add false else [])
    ++ flaggedEntries kwargs.update true

/-- What a request that is sent contains. -/
structure Request (engine : Engine) (kwargs : Kwargs) (params : SnParams) : Prop where
  bonds : List.Forall₂ (fun entry bond => prepareBondAttachmentObj engine entry = .ok bond)
    (kwargs.bondEntries.filter Entry.preparesBond) params.modifiedBonds
  networkAttachments :
    List.Forall₂ (fun entry attachment => prepareNetworkAttachmentObj engine entry = .ok attachment)
      (kwargs.entries.filter Entry.hasNetwork) params.modifiedNetworkAttachments
  labels : params.modifiedLabels = kwargs.entries.flatMap (entryLabels engine)

section

variable {engine : Engine} {kwargs : Kwargs} {params : SnParams}

theorem setupNetworks_spec (h : setupNetworks engine kwargs = .ok params) :
    Request engine kwargs params := by
  obtain ⟨removed, _, h⟩ := bind_eq_ok_iff.mp h
  obtain ⟨added, hadd, h⟩ := bind_eq_ok_iff.mp h
  obtain ⟨updated, hupdate, h⟩ := bind_eq_ok_iff.mp h
  obtain ⟨synchronized, _, h⟩ := bind_eq_ok_iff.mp h
  obtain rfl := Except.ok.inj h
  have hadded := adds_of_prepareAdd hadd
  have hupdated := adds_of_prepareAdd hupdate
  constructor
  case bonds =>
    have hfirst : Collects Entry.preparesBond (prepareBondAttachmentObj engine)
        (flaggedEntries kwargs.add false) [] added.bonds := by
      simpa only [ite_self] using hadded.bonds
    have hsecond := hupdated.bonds
    unfold Kwargs.bondEntries
    cases hempty : kwargs.update.isEmpty with
    | true =>
      rw [hempty] at hsecond
      exact (hfirst.append hsecond).forall₂
    | false =>
      rw [hempty] at hsecond
      exact hsecond.forall₂
  case networkAttachments =>
    exact (hadded.networkAttachments.append hupdated.networkAttachments).forall₂
  case labels =>
    rw [hupdated.labels, hadded.labels]
    simp [Kwargs.entries]

/-- A request is sent exactly if every network to remove or to synchronize has an attachment, and
what the entries ask for can be prepared. -/
theorem setupNetworks_returns_iff :
    (∃ params, setupNetworks engine kwargs = .ok params) ↔
      (∃ removed, prepareRemoveForSetupnetworks engine kwargs.remove = .ok removed) ∧
      (∀ entry ∈ kwargs.entries, entry.Prepares engine) ∧
      (kwargs.sync.isEmpty = false →
        ∃ attachments, getNetworksAttachments engine (kwargs.sync.map some) = .ok attachments) := by
  unfold Kwargs.entries
  rw [List.forall_mem_append]
  constructor
  · rintro ⟨_, h⟩
    obtain ⟨removed, hremove, h⟩ := bind_eq_ok_iff.mp h
    obtain ⟨added, hadd, h⟩ := bind_eq_ok_iff.mp h
    obtain ⟨updated, hupdate, h⟩ := bind_eq_ok_iff.mp h
    obtain ⟨synchronized, hsync, -⟩ := bind_eq_ok_iff.mp h
    refine ⟨⟨removed, hremove⟩, ⟨prepareAdd_returns_iff.mp ⟨added, hadd⟩,
      prepareAdd_returns_iff.mp ⟨updated, hupdate⟩⟩, fun hnone => ⟨synchronized, ?_⟩⟩
    rw [← hsync, hnone]
    rfl
  · rintro ⟨⟨removed, hremove⟩, ⟨hadd, hupdate⟩, hsync⟩
    obtain ⟨added, hadded⟩ := (@prepareAdd_returns_iff engine {} _ _).mpr hadd
    obtain ⟨updated, hupdated⟩ := (@prepareAdd_returns_iff engine added _ _).mpr hupdate
    have hlast : ∃ synchronized, (if kwargs.sync.isEmpty then .ok []
        else getNetworksAttachments engine (kwargs.sync.map some)) = .ok synchronized := by
      cases hempty : kwargs.sync.isEmpty with
      | true => exact ⟨[], rfl⟩
      | false => exact hsync hempty
    obtain ⟨synchronized, hsynchronized⟩ := hlast
    exact ⟨_, bind_eq_ok_iff.mpr ⟨removed, hremove, bind_eq_ok_iff.mpr ⟨added, hadded,
      bind_eq_ok_iff.mpr ⟨updated, hupdated, bind_eq_ok_iff.mpr ⟨synchronized, hsynchronized,
        rfl⟩⟩⟩⟩⟩

/-! ## Completeness of the request -/

/-- The entry is about a bond: it has slaves, or a mode, and the mode can be 0. -/
def Entry.wantsBond (entry : Entry) : Bool := !entry.slaves.isEmpty || entry.mode.isSome

/-- The engine has an attachment of the network of the entry. -/
def Attached (engine : Engine) (entry : Entry) : Prop :=
  ∃ attachment ∈ engine.attachments, ∃ name,
    getNetworkNameFromAttachment engine attachment = .ok name ∧ entry.network = some name

/-- One bond for each entry about a bond, one attachment for each entry with a
network, and all labels. -/
structure Complete (engine : Engine) (kwargs : Kwargs) (params : SnParams) : Prop where
  bonds : List.Forall₂ (fun entry bond => prepareBondAttachmentObj engine entry = .ok bond)
    (kwargs.entries.filter Entry.wantsBond) params.modifiedBonds
  networkAttachments : List.Forall₂
    (fun entry attachment => attachment.isSome = true ∧
      prepareNetworkAttachmentObj engine entry = .ok attachment)
    (kwargs.entries.filter Entry.hasNetwork) params.modifiedNetworkAttachments
  labels : params.modifiedLabels = kwargs.entries.flatMap (entryLabels engine)

/-- What a complete request needs: an entry with mode 0 has slaves too, `add` has no
bonds where there is something to update, and what is updated is attached. -/
structure Covered (engine : Engine) (kwargs : Kwargs) : Prop where
  modes : ∀ entry ∈ kwargs.entries, entry.mode = some 0 → entry.slaves ≠ []
  bonds : kwargs.update ≠ [] → ∀ item ∈ kwargs.add, item.2.wantsBond = false
  attached : ∀ entry ∈ kwargs.entries, entry.update = true → entry.hasNetwork = true →
    Attached engine entry

theorem Entry.wantsBond_of_preparesBond {entry : Entry} (h : entry.preparesBond = true) :
    entry.wantsBond = true := by
  simp only [Entry.preparesBond, Entry.wantsBond, Bool.or_eq_true, Bool.and_eq_true] at h ⊢
  exact h.imp_right And.left

/-- The test by truth misses a bond with mode 0 that is given without slaves. -/
theorem Entry.preparesBond_of_wantsBond_iff (entry : Entry) :
    (entry.wantsBond = true → entry.preparesBond = true) ↔
      (entry.mode = some 0 → entry.slaves ≠ []) := by
  unfold Entry.wantsBond Entry.preparesBond
  cases entry.slaves with
  | cons slave rest => simp
  | nil =>
    cases entry.mode with
    | none => simp
    | some value => simp

variable {networks : List (Option Text)}

/-- The attachments that are found are those of the networks. -/
theorem mem_attachmentsIn {attachment : NetworkAttachment} :
    ∀ {attachments found : List NetworkAttachment},
      attachmentsIn engine networks attachments = .ok found →
      (attachment ∈ found ↔ attachment ∈ attachments ∧
        ∃ name, getNetworkNameFromAttachment engine attachment = .ok name ∧ some name ∈ networks)
  | [], found, h => by
      obtain rfl := Except.ok.inj h
      simp
  | first :: rest, found, h => by
      obtain ⟨name, hname, h⟩ := bind_eq_ok_iff.mp h
      obtain ⟨others, hothers, h⟩ := bind_eq_ok_iff.mp h
      obtain rfl := Except.ok.inj h
      rw [List.mem_cons, or_and_right, ← mem_attachmentsIn hothers]
      have hfirst : attachment = first →
          ((∃ name, getNetworkNameFromAttachment engine attachment = .ok name ∧
            some name ∈ networks) ↔ some name ∈ networks) := by
        rintro rfl
        simp [hname]
      rw [and_congr_right_iff.mpr hfirst]
      split
      case isTrue hmem => simp [hmem]
      case isFalse hmem => simp [hmem]

/-- No attachment is found exactly if none has one of the networks. -/
theorem attachmentsIn_eq_nil_iff {attachments found : List NetworkAttachment}
    (h : attachmentsIn engine networks attachments = .ok found) :
    found = [] ↔ ∀ attachment ∈ attachments, ∀ name,
      getNetworkNameFromAttachment engine attachment = .ok name → some name ∉ networks := by
  rw [List.eq_nil_iff_forall_not_mem]
  refine forall_congr' fun attachment => ?_
  rw [mem_attachmentsIn h, not_and]
  refine imp_congr_right fun _ => ?_
  simp only [not_exists, not_and]

/-- An attachment is prepared, except for an update of what is not attached. -/
theorem isSome_of_prepareNetworkAttachmentObj {entry : Entry}
    {attachment : Option NetworkAttachment}
    (h : prepareNetworkAttachmentObj engine entry = .ok attachment) :
    attachment.isSome = true ↔ (entry.update = true → Attached engine entry) := by
  unfold prepareNetworkAttachmentObj at h
  cases hupdate : entry.update with
  | false =>
    simp only [hupdate, Bool.false_eq_true, if_false] at h
    obtain ⟨made, _, rfl⟩ := map_eq_ok_iff.mp h
    simp
  | true =>
    rw [hupdate] at h
    obtain ⟨found, hfound, h⟩ := bind_eq_ok_iff.mp h
    have hnil := attachmentsIn_eq_nil_iff hfound
    cases found with
    | nil =>
      obtain rfl := Except.ok.inj h
      have hnone := hnil.mp rfl
      simp only [Option.isSome_none, Bool.false_eq_true, false_iff, forall_const]
      rintro ⟨there, hthere, name, hname, hnetwork⟩
      exact hnone there hthere name hname (by simp [hnetwork])
    | cons first rest =>
      obtain ⟨made, _, rfl⟩ := map_eq_ok_iff.mp h
      have hsome : ¬ ∀ attachment ∈ engine.attachments, ∀ name,
          getNetworkNameFromAttachment engine attachment = .ok name →
            some name ∉ [entry.network] := fun hall => by simpa using hnil.mpr hall
      push Not at hsome
      obtain ⟨there, hthere, name, hname, hmem⟩ := hsome
      have hattached : Attached engine entry :=
        ⟨there, hthere, name, hname, (List.mem_singleton.mp hmem).symm⟩
      simp [hattached]

theorem bondEntries_sublist : List.Sublist kwargs.bondEntries kwargs.entries := by
  refine List.Sublist.append ?_ (List.Sublist.refl _)
  split
  · exact List.Sublist.refl _
  · exact List.nil_sublist _

theorem flaggedEntries_false (dict : List (Text × Entry)) :
    flaggedEntries dict false = dict.map Prod.snd := rfl

/-- The bonds of all entries are sent exactly if none has a mode that counts as
missing and none is overwritten by the phase for `update`. -/
theorem bondEntries_complete_iff :
    kwargs.bondEntries.filter Entry.preparesBond = kwargs.entries.filter Entry.wantsBond ↔
      (∀ entry ∈ kwargs.entries, entry.mode = some 0 → entry.slaves ≠ []) ∧
        (kwargs.update ≠ [] → ∀ item ∈ kwargs.add, item.2.wantsBond = false) := by
  simp only [← Entry.preparesBond_of_wantsBond_iff]
  unfold Kwargs.bondEntries Kwargs.entries
  cases hupdate : kwargs.update with
  | nil =>
    simp only [flaggedEntries, List.isEmpty_nil, if_true]
    rw [filter_eq_filter_iff fun _ => Entry.wantsBond_of_preparesBond]
    simp
  | cons first rest =>
    have hsub : List.Sublist
        ((flaggedEntries (first :: rest) true).filter Entry.preparesBond)
        ((flaggedEntries (first :: rest) true).filter Entry.wantsBond) :=
      List.monotone_filter_right _ fun _ => Entry.wantsBond_of_preparesBond
    simp only [List.isEmpty_cons, Bool.false_eq_true, if_false, List.nil_append,
      List.filter_append]
    rw [eq_append_iff_of_sublist hsub,
      filter_eq_filter_iff fun _ => Entry.wantsBond_of_preparesBond, List.filter_eq_nil_iff,
      flaggedEntries_false]
    simp only [List.forall_mem_append, List.forall_mem_map, Bool.not_eq_true, ne_eq,
      reduceCtorEq, not_false_eq_true, forall_const]
    constructor
    · rintro ⟨hnone, hall⟩
      exact ⟨⟨fun item hitem hwants => by simp [hnone item hitem] at hwants, hall⟩, hnone⟩
    · rintro ⟨⟨_, hall⟩, hnone⟩
      exact ⟨hnone, hall⟩

/-- A request that is sent is complete exactly if the dictionaries are covered. -/
theorem complete_iff_covered (engine : Engine) (kwargs : Kwargs) (params : SnParams)
    (hsent : setupNetworks engine kwargs = .ok params) :
    Complete engine kwargs params ↔ Covered engine kwargs := by
  obtain ⟨hbonds, hattachments, hlabels⟩ := setupNetworks_spec hsent
  have hsub : List.Sublist (kwargs.bondEntries.filter Entry.preparesBond)
      (kwargs.entries.filter Entry.wantsBond) :=
    (bondEntries_sublist.filter _).trans
      (List.monotone_filter_right _ fun _ => Entry.wantsBond_of_preparesBond)
  have hbondsIff := (forall₂_iff_of_sublist hsub hbonds).trans bondEntries_complete_iff
  have hpresent : ∀ entry attachment,
      prepareNetworkAttachmentObj engine entry = .ok attachment →
        (attachment.isSome = true ↔ (entry.update = true → Attached engine entry)) :=
    fun _ _ => isSome_of_prepareNetworkAttachmentObj
  have hattachmentsIff := forall₂_and_iff hpresent hattachments
  constructor
  · rintro ⟨hallBonds, hallAttachments, _⟩
    obtain ⟨hmodes, hkept⟩ := hbondsIff.mp hallBonds
    refine ⟨hmodes, hkept, fun entry hentry hupdate hnetwork => ?_⟩
    exact hattachmentsIff.mp hallAttachments entry
      (List.mem_filter.mpr ⟨hentry, hnetwork⟩) hupdate
  · rintro ⟨hmodes, hkept, hattached⟩
    refine ⟨hbondsIff.mpr ⟨hmodes, hkept⟩, hattachmentsIff.mpr fun entry hentry hupdate => ?_,
      hlabels⟩
    obtain ⟨hmem, hnetwork⟩ := List.mem_filter.mp hentry
    exact hattached entry hmem hupdate hnetwork

/-- A host with an attachment of one network, where every network is found. -/
def smallEngine : Engine where
  hostNics := []
  attachments := [{ network := some ⟨"net2".toList, "net2".toList⟩ }]
  networkName := fun id => .ok id
  findNetwork := fun name _ _ => .ok (some ⟨name, name⟩)
  hostNicLabels := fun _ => []
  hasQosAttribute := fun _ => false

/-- `add` with a bond of two slaves, and what is updated. -/
def bondKwargs (update : List (Text × Entry)) : Kwargs :=
  { add := [("0".toList, { nic := some "bond0".toList, slaves := ["eth1".toList, "eth2".toList],
                           network := some "net1".toList })]
    update := update }

/-- What is sent for the bond alone. -/
def bondParams : SnParams where
  modifiedNetworkAttachments :=
    [some
      { network := some ⟨"net1".toList, "net1".toList⟩
        hostNic := some { name := some "bond0".toList }
        ipAddressAssignments := some [⟨some (.str "none".toList), []⟩] }]
  removedNetworkAttachments := []
  modifiedBonds :=
    [{ name := some "bond0".toList
       bonding := some
        { slaves := some [⟨none, "eth2".toList⟩, ⟨none, "eth1".toList⟩], options := some [] } }]
  removedBonds := []
  modifiedLabels := []
  removedLabels := []
  synchronizedNetworkAttachments := []
  connectivityTimeout := 60
  checkConnectivity := true

theorem complete_iff_covered_bond :
    setupNetworks smallEngine (bondKwargs []) = .ok bondParams ∧
      (Complete smallEngine (bondKwargs []) bondParams ↔ Covered smallEngine (bondKwargs [])) := by
  have hsent : setupNetworks smallEngine (bondKwargs []) = .ok bondParams := by decide
  exact ⟨hsent, complete_iff_covered _ _ _ hsent⟩

/-- The bond of `add` is lost when a network is updated too. -/
theorem bond_lost_by_update :
    ¬ ∀ (engine : Engine) (kwargs : Kwargs) (params : SnParams),
      setupNetworks engine kwargs = .ok params → Complete engine kwargs params := by
  intro hall
  have hbonds : (setupNetworks smallEngine
      (bondKwargs [("1".toList, { network := some "net2".toList })])).map
        SnParams.modifiedBonds = .ok [] := by decide
  obtain ⟨params, hsent, hnone⟩ := map_eq_ok_iff.mp hbonds
  have hlength := (hall _ _ _ hsent).bonds.length_eq
  rw [hnone] at hlength
  revert hlength
  decide

end

end OvirtArt.Networking
