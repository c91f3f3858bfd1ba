import OvirtArt.CoreApi.FindEntity
import OvirtArt.Foundation.Recordings

set_option autoImplicit false

/-!
# `remove_unneeded_vnic_profiles` of `high_level/networks.py`

The networks whose vNIC profiles go are collected cluster by cluster, without the management
network of that cluster.

The profiles are told by their ids.  Networks may be in several clusters, which is where a
management network of one is removed for another.
-/

namespace OvirtArt.TestsLib.VnicProfiles

open OvirtArt.CoreApi OvirtArt.Foundation

/-- A network, by what is read of it. -/
structure Network where
  id : Text
  deriving DecidableEq, Repr

/-- A cluster with its networks. -/
structure Cluster where
  name : Text
  /-- The id of the data center, if the cluster has one. -/
  dataCenter : Option Text
  managementNetwork : Option Network
  networks : List Network

/-- A data center. -/
structure DataCenter where
  name : Text
  id : Text

/-- A vNIC profile of a network. -/
structure VnicProfile where
  id : Text
  network : Network
  deriving DecidableEq, Repr

/-- The collections of the engine, where no two clusters have one name. -/
structure Engine where
  dataCenters : List DataCenter
  clusters : List Cluster
  vnicProfiles : List VnicProfile
  /-- Whether a removal succeeds. -/
  delete : VnicProfile → Bool
  names_nodup : (clusters.map Cluster.name).Nodup

section

variable (engine : Engine)

/-- `get_data_center` by name. -/
def getDataCenter (datacenter : Text) : Except FindFault DataCenter :=
  findEntity DataCenter.name datacenter engine.dataCenters

/-- `get_clusters_connected_to_datacenter`. -/
def getClustersConnectedToDatacenter (dcId : Text) : List Cluster :=
  (engine.clusters.filter (·.dataCenter.isSome)).filter (·.dataCenter == some dcId)

/-- `get_cluster_networks` without `href`. -/
def getClusterNetworks (cluster : Text) : Except FindFault (List Network) :=
  (findEntity Cluster.name cluster engine.clusters).map Cluster.networks

/-- `non_mngmnt_nets_ids`. -/
def nonMngmntNetsIds (clusterNets : List Network) (mngmntNet : Option Network) : List Text :=
  (clusterNets.filter fun net =>
    match mngmntNet with
    | none => true
    | some mngmnt => net.id != mngmnt.id).map Network.id

/-- `nets_ids_to_remove_from`. -/
def netsIdsToRemoveFrom (clusters : List Cluster) : Recorded FindFault VnicProfile (List Text) :=
  clusters.foldlM (fun ids cluster => do
    let clusterNets ← Recorded.call (getClusterNetworks engine cluster.name)
    return ids ++ nonMngmntNetsIds clusterNets cluster.managementNetwork) []

/-- `remove_unneeded_vnic_profiles`; the entries are the profiles asked to be removed. -/
def removeUnneededVnicProfiles (dcName : Text) : Recorded FindFault VnicProfile Bool := do
  let dc ← Recorded.call (getDataCenter engine dcName)
  let ids ← netsIdsToRemoveFrom engine (getClustersConnectedToDatacenter engine dc.id)
  engine.vnicProfiles.foldlM (fun success profile => do
    if profile.network.id ∈ ids then
      let removed ← Recorded.ask profile (.ok (engine.delete profile))
      return if removed then success else false
    else return success) true

end

/-! ## What is unneeded -/

section

variable (engine : Engine) (dc : DataCenter) (id : Text)

/-- The cluster has a network with this id. -/
def Cluster.Has (cluster : Cluster) (id : Text) : Prop := ∃ net ∈ cluster.networks, net.id = id

/-- The management network of the cluster has this id. -/
def Cluster.ManagedBy (cluster : Cluster) (id : Text) : Prop :=
  ∃ net, cluster.managementNetwork = some net ∧ net.id = id

/-- A network of some cluster of the data center. -/
def Attached : Prop := ∃ cluster ∈ getClustersConnectedToDatacenter engine dc.id, cluster.Has id

/-- The management network of some cluster of the data center. -/
def Management : Prop :=
  ∃ cluster ∈ getClustersConnectedToDatacenter engine dc.id, cluster.ManagedBy id

/-- A network of some cluster of the data center that is not the management network there. -/
def Ordinary : Prop :=
  ∃ cluster ∈ getClustersConnectedToDatacenter engine dc.id,
    cluster.Has id ∧ ¬ cluster.ManagedBy id

/-- The profiles asked to be removed are those of attached networks that are management networks
nowhere, and what is returned says whether all these removals have succeeded. -/
structure RemovesUnneeded (run : Recorded FindFault VnicProfile Bool) : Prop where
  removed : ∀ profile, profile ∈ run.entries ↔ profile ∈ engine.vnicProfiles ∧
    Attached engine dc profile.network.id ∧ ¬ Management engine dc profile.network.id
  listed : run.entries.Sublist engine.vnicProfiles
  status : ∃ success, run.result = .ok success ∧
    (success = true ↔ ∀ profile ∈ run.entries, engine.delete profile = true)

end

section

variable {engine : Engine} {dc : DataCenter} {cluster : Cluster} {clusters : List Cluster}
  {id : Text} {ids : List Text} {profiles : List VnicProfile}

theorem mem_nonMngmntNetsIds :
    id ∈ nonMngmntNetsIds cluster.networks cluster.managementNetwork ↔
      cluster.Has id ∧ ¬ cluster.ManagedBy id := by
  unfold nonMngmntNetsIds Cluster.Has Cluster.ManagedBy
  rw [List.mem_map]
  cases cluster.managementNetwork with
  | none =>
    simp only [List.mem_filter, and_true]
    refine (and_iff_left ?_).symm
    rintro ⟨net, hnet, -⟩
    exact nomatch hnet
  | some mngmnt =>
    simp only [List.mem_filter, bne_iff_ne, Option.some.injEq]
    constructor
    · rintro ⟨net, ⟨hmem, hne⟩, rfl⟩
      refine ⟨⟨net, hmem, rfl⟩, ?_⟩
      rintro ⟨other, rfl, hid⟩
      exact hne hid.symm
    · rintro ⟨⟨net, hmem, rfl⟩, hne⟩
      exact ⟨net, ⟨hmem, fun hid => hne ⟨mngmnt, rfl, hid.symm⟩⟩, rfl⟩

/-- A cluster that is listed is the one that is found by its name. -/
theorem getClusterNetworks_of_mem (h : cluster ∈ engine.clusters) :
    getClusterNetworks engine cluster.name = .ok cluster.networks := by
  unfold getClusterNetworks
  rw [findEntity_of_mem engine.names_nodup h]
  rfl

theorem mem_clusters_of_connected
    (h : cluster ∈ getClustersConnectedToDatacenter engine id) : cluster ∈ engine.clusters :=
  List.mem_of_mem_filter (List.mem_of_mem_filter h)

/-- The ids that are collected, cluster by cluster. -/
def collectedIds (clusters : List Cluster) : List Text :=
  clusters.flatMap fun cluster => nonMngmntNetsIds cluster.networks cluster.managementNetwork

theorem netsIdsToRemoveFrom_eq (h : ∀ cluster ∈ clusters, cluster ∈ engine.clusters) :
    netsIdsToRemoveFrom engine clusters = pure (collectedIds clusters) := by
  have hround : ∀ (ids : List Text), ∀ cluster ∈ clusters, (do
      let clusterNets ← Recorded.call (getClusterNetworks engine cluster.name)
      return ids ++ nonMngmntNetsIds clusterNets cluster.managementNetwork :
        Recorded FindFault VnicProfile (List Text)) =
      { entries := []
        result := .ok (ids ++ nonMngmntNetsIds cluster.networks cluster.managementNetwork) } := by
    intro ids cluster hcluster
    rw [getClusterNetworks_of_mem (h cluster hcluster)]
    rfl
  have hnone : clusters.flatMap (fun _ => ([] : List VnicProfile)) = [] :=
    List.flatMap_eq_nil_iff.mpr fun _ _ => rfl
  unfold netsIdsToRemoveFrom collectedIds
  rw [Recorded.foldlM_eq_of_rounds hround, hnone, List.flatMap_eq_foldl]
  rfl

/-- The profiles of these networks. -/
def profilesOf (ids : List Text) (profiles : List VnicProfile) : List VnicProfile :=
  profiles.flatMap fun profile => if profile.network.id ∈ ids then [profile] else []

theorem profilesOf_eq_filter :
    profilesOf ids profiles = profiles.filter (·.network.id ∈ ids) := by
  unfold profilesOf
  induction profiles with
  | nil => rfl
  | cons profile profiles ih =>
    rw [List.flatMap_cons, ih]
    by_cases hin : profile.network.id ∈ ids
    · rw [if_pos hin, List.filter_cons_of_pos (by simpa using hin)]
      rfl
    · rw [if_neg hin, List.filter_cons_of_neg (by simpa using hin)]
      rfl

/-- The value of `success` after a profile. -/
def successAfter (engine : Engine) (ids : List Text) (success : Bool) (profile : VnicProfile) :
    Bool :=
  if profile.network.id ∈ ids then (if engine.delete profile then success else false) else success

theorem foldl_successAfter_eq_true_iff {success : Bool} :
    profiles.foldl (successAfter engine ids) success = true ↔
      success = true ∧ ∀ profile ∈ profilesOf ids profiles, engine.delete profile = true := by
  induction profiles generalizing success with
  | nil => exact (and_iff_left fun _ h => absurd h List.not_mem_nil).symm
  | cons profile profiles ih =>
    have hcons : profilesOf ids (profile :: profiles) =
        (if profile.network.id ∈ ids then [profile] else []) ++ profilesOf ids profiles := rfl
    rw [List.foldl_cons, ih, hcons, List.forall_mem_append, ← and_assoc]
    apply and_congr_left'
    unfold successAfter
    by_cases hin : profile.network.id ∈ ids
    · rw [if_pos hin, if_pos hin, List.forall_mem_singleton]
      cases engine.delete profile with
      | true => exact (and_iff_left rfl).symm
      | false => exact iff_of_false Bool.false_ne_true fun h => Bool.false_ne_true h.2
    · rw [if_neg hin, if_neg hin]
      exact (and_iff_left fun _ h => absurd h List.not_mem_nil).symm

theorem mem_collectedIds :
    id ∈ collectedIds (getClustersConnectedToDatacenter engine dc.id) ↔ Ordinary engine dc id := by
  unfold collectedIds Ordinary
  simp only [List.mem_flatMap, mem_nonMngmntNetsIds]

/-- What a run for this data center does. -/
theorem removeUnneededVnicProfiles_eq {dcName : Text} (h : getDataCenter engine dcName = .ok dc) :
    removeUnneededVnicProfiles engine dcName =
      { entries := profilesOf (collectedIds (getClustersConnectedToDatacenter engine dc.id))
          engine.vnicProfiles
        result := .ok (engine.vnicProfiles.foldl (successAfter engine
          (collectedIds (getClustersConnectedToDatacenter engine dc.id))) true) } := by
  unfold removeUnneededVnicProfiles
  rw [h, Recorded.bind_eq_of_ok rfl,
    netsIdsToRemoveFrom_eq fun cluster hcluster => mem_clusters_of_connected hcluster,
    Recorded.bind_eq_of_ok rfl]
  have hround : ∀ (ids : List Text) (success : Bool), ∀ profile ∈ engine.vnicProfiles, (do
      if profile.network.id ∈ ids then
        let removed ← Recorded.ask profile (.ok (engine.delete profile))
        return if removed then success else false
      else return success : Recorded FindFault VnicProfile Bool) =
      { entries := if profile.network.id ∈ ids then [profile] else []
        result := .ok (successAfter engine ids success profile) } := by
    intro ids success profile _
    unfold successAfter
    by_cases hin : profile.network.id ∈ ids
    · rw [if_pos hin, if_pos hin, if_pos hin]
      rfl
    · rw [if_neg hin, if_neg hin, if_neg hin]
      rfl
  rw [Recorded.foldlM_eq_of_rounds (hround _)]
  rfl

/-- A network that is management nowhere is ordinary where it is attached. -/
theorem ordinary_of_attached (hattached : Attached engine dc id)
    (hmanagement : ¬ Management engine dc id) : Ordinary engine dc id := by
  obtain ⟨cluster, hcluster, hhas⟩ := hattached
  exact ⟨cluster, hcluster, hhas, fun hmanaged => hmanagement ⟨cluster, hcluster, hmanaged⟩⟩

theorem Ordinary.attached (h : Ordinary engine dc id) : Attached engine dc id := by
  obtain ⟨cluster, hcluster, hhas, -⟩ := h
  exact ⟨cluster, hcluster, hhas⟩

end

/-- A run removes exactly the unneeded profiles if and only if no profile's network is an ordinary
network of one cluster and the management network of another. -/
theorem removesUnneeded_iff {engine : Engine} {dcName : Text} {dc : DataCenter}
    (h : getDataCenter engine dcName = .ok dc) :
    RemovesUnneeded engine dc (removeUnneededVnicProfiles engine dcName) ↔
      ∀ profile ∈ engine.vnicProfiles,
        Ordinary engine dc profile.network.id → ¬ Management engine dc profile.network.id := by
  rw [removeUnneededVnicProfiles_eq h]
  have hentries : ∀ profile, profile ∈ profilesOf
      (collectedIds (getClustersConnectedToDatacenter engine dc.id)) engine.vnicProfiles ↔
      profile ∈ engine.vnicProfiles ∧ Ordinary engine dc profile.network.id := by
    intro profile
    rw [profilesOf_eq_filter, List.mem_filter, decide_eq_true_iff, mem_collectedIds]
  constructor
  · intro hrun profile hprofile hordinary
    have hremoved := (hentries profile).mpr ⟨hprofile, hordinary⟩
    exact ((hrun.removed profile).mp hremoved).2.2
  · intro hapart
    refine { removed := fun profile => ?_, listed := ?_, status := ⟨_, rfl, ?_⟩ }
    · refine (hentries profile).trans (and_congr_right fun hprofile => ?_)
      constructor
      · exact fun hordinary => ⟨hordinary.attached, hapart profile hprofile hordinary⟩
      · exact fun hunneeded => ordinary_of_attached hunneeded.1 hunneeded.2
    · change (profilesOf _ _).Sublist _
      rw [profilesOf_eq_filter]
      exact List.filter_sublist
    · exact foldl_successAfter_eq_true_iff.trans (and_iff_right rfl)

/-- The management network. -/
def ovirtmgmt : Network := ⟨"1".toList⟩

/-- Another network. -/
def storage : Network := ⟨"2".toList⟩

/-- A cluster with both networks. -/
def clusterWith (name : Text) (mngmnt : Network) : Cluster where
  name := name
  dataCenter := some "dc".toList
  managementNetwork := some mngmnt
  networks := [ovirtmgmt, storage]

/-- Two clusters that share the networks, both managed through `ovirtmgmt`; one removal fails. -/
def managedAlike : Engine where
  dataCenters := [⟨"dc_1".toList, "dc".toList⟩]
  clusters := [clusterWith "cl_1".toList ovirtmgmt, clusterWith "cl_2".toList ovirtmgmt]
  vnicProfiles := [⟨"p1".toList, ovirtmgmt⟩, ⟨"p2".toList, storage⟩, ⟨"p3".toList, storage⟩]
  delete := fun profile => profile.id != "p3".toList
  names_nodup := by decide

/-- Two clusters that share the networks, the second managed through `storage`. -/
def sharedNetworks : Engine where
  dataCenters := [⟨"dc_1".toList, "dc".toList⟩]
  clusters := [clusterWith "cl_1".toList ovirtmgmt, clusterWith "cl_2".toList storage]
  vnicProfiles := [⟨"p1".toList, ovirtmgmt⟩, ⟨"p2".toList, storage⟩]
  delete := fun _ => true
  names_nodup := by decide

/-- Where the clusters have one management network the profiles of the other network go. -/
theorem removesUnneeded_managedAlike :
    RemovesUnneeded managedAlike ⟨"dc_1".toList, "dc".toList⟩
      (removeUnneededVnicProfiles managedAlike "dc_1".toList) := by
  refine (removesUnneeded_iff rfl).mpr fun profile _ hordinary hmanagement => ?_
  have hmanaged : ∀ cluster ∈ getClustersConnectedToDatacenter managedAlike "dc".toList,
      cluster.managementNetwork = some ovirtmgmt := by decide
  obtain ⟨cluster, hcluster, -, hnot⟩ := hordinary
  obtain ⟨other, hother, net, hnet, hid⟩ := hmanagement
  have hsame : cluster.managementNetwork = other.managementNetwork :=
    (hmanaged cluster hcluster).trans (hmanaged other hother).symm
  exact hnot ⟨net, hsame.trans hnet, hid⟩

/-- Where two clusters share their networks, the profiles of both management networks go. -/
theorem management_profiles_removed :
    (removeUnneededVnicProfiles sharedNetworks "dc_1".toList).entries =
      [⟨"p1".toList, ovirtmgmt⟩, ⟨"p2".toList, storage⟩] ∧
    ¬ RemovesUnneeded sharedNetworks ⟨"dc_1".toList, "dc".toList⟩
      (removeUnneededVnicProfiles sharedNetworks "dc_1".toList) := by
  have hentries : (removeUnneededVnicProfiles sharedNetworks "dc_1".toList).entries =
      [⟨"p1".toList, ovirtmgmt⟩, ⟨"p2".toList, storage⟩] := by
    decide
  refine ⟨hentries, fun h => ?_⟩
  have hremoved := (h.removed ⟨"p1".toList, ovirtmgmt⟩).mp
    (hentries ▸ List.mem_cons_self)
  exact hremoved.2.2 ⟨clusterWith "cl_1".toList ovirtmgmt, List.mem_cons_self, ovirtmgmt, rfl, rfl⟩

end OvirtArt.TestsLib.VnicProfiles
