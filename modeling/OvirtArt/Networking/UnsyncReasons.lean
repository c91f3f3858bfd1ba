import OvirtArt.Foundation.Lists
import OvirtArt.Foundation.ObjectHeap
import OvirtArt.Foundation.Overwrites
import OvirtArt.Networking.HostNetwork

set_option autoImplicit false

/-!
# `get_networks_unsync_reason` of `tests_lib/high_level/host_network.py`

The reports of the attachments that are not in sync, by network.  The dictionaries are objects
of a heap: that of the reports is made once, so all networks refer to one object.

Every network has its own reports exactly if all attachments report the same.  The lookup of the
host is left out.
-/

namespace OvirtArt.Networking

open OvirtArt.CoreApi OvirtArt.Foundation

/-! ## The source -/

/-- A property that is out of sync, as the engine reports it. -/
structure ReportedConfiguration where
  name : Option Text
  expectedValue : Option Text
  actualValue : Option Text
  deriving DecidableEq

/-- An attachment, with what the engine reports of it. -/
structure ReportedAttachment extends NetworkAttachment where
  inSync : Option Bool
  reportedConfigurations : Option (List ReportedConfiguration)
  deriving DecidableEq

/-- The dictionaries: their keys are names, their values names and numbers as texts. -/
abbrev DictHeap := Heap (Option Text) (Option Text)

/-- The key of the value that is configured. -/
def expected : Text := "expected".toList

/-- The key of the value that is on the host. -/
def actual : Text := "actual".toList

section

variable (engine : Engine)

/-- Those of the attachments whose network is one of the given. -/
def reportedAttachmentsIn (networks : List Text) :
    List ReportedAttachment → Except PyException (List ReportedAttachment)
  | [] => .ok []
  | attachment :: rest => do
      let name ← getNetworkNameFromAttachment engine attachment.toNetworkAttachment
      let found ← reportedAttachmentsIn networks rest
      .ok (if name ∈ networks then attachment :: found else found)

/-- `get_unsync_network_attachments`: `attachments` are those of the host. -/
def getUnsyncNetworkAttachments (attachments : List ReportedAttachment) (networks : List Text) :
    Except PyException (List ReportedAttachment) := do
  let attachments ←
    if networks.isEmpty then .ok attachments else reportedAttachmentsIn engine networks attachments
  .ok (attachments.filter fun attachment => attachment.inSync != some true)

/-- `get_attachment_reported_configurations`. -/
def getAttachmentReportedConfigurations (attachment : ReportedAttachment) :
    Except PyException (List ReportedConfiguration) :=
  match attachment.reportedConfigurations with
  | none => .error (.attributeError "get_reported_configuration".toList)
  | some reported => .ok reported

/-- One round of the loop over the reports. -/
def addReport (reportNameDict : Nat) (heap : DictHeap) (report : ReportedConfiguration) :
    DictHeap :=
  let reportedDict := heap.next
  let heap := heap.alloc
  let heap := heap.setItem reportedDict (some expected) (.value report.expectedValue)
  let heap := heap.setItem reportedDict (some actual) (.value report.actualValue)
  heap.setItem reportNameDict report.name (.ref reportedDict)

/-- One round of the loop over the attachments. -/
def addAttachment (res reportNameDict : Nat) (heap : DictHeap)
    (attachment : ReportedAttachment) : Except PyException DictHeap := do
  let netName ← getNetworkNameFromAttachment engine attachment.toNetworkAttachment
  let reported ← getAttachmentReportedConfigurations attachment
  let heap := reported.foldl (addReport reportNameDict) heap
  .ok (heap.setItem res (some netName) (.ref reportNameDict))

/-- `get_networks_unsync_reason`: the dictionary that is returned, and the heap. -/
def getNetworksUnsyncReason (attachments : List ReportedAttachment) (networks : List Text) :
    Except PyException (Nat × DictHeap) := do
  let heap : DictHeap := ⟨0, fun _ => []⟩
  let res := heap.next
  let heap := heap.alloc
  let reportNameDict := heap.next
  let heap := heap.alloc
  let attachments ← getUnsyncNetworkAttachments engine attachments networks
  let heap ← attachments.foldlM (addAttachment engine res reportNameDict) heap
  .ok (res, heap)

end

/-! ## What the dictionaries say -/

/-- The items of a `reported_dict`. -/
structure Reason where
  expected : Option (Slot (Option Text))
  actual : Option (Slot (Option Text))
  deriving DecidableEq

/-- The values of a report. -/
def ReportedConfiguration.reason (report : ReportedConfiguration) : Reason where
  expected := some (.value report.expectedValue)
  actual := some (.value report.actualValue)

/-- What a dictionary of reports says under a name. -/
def reasonAt (heap : DictHeap) (reports : Nat) (name : Option Text) : Option Reason :=
  match heap.getItem reports name with
  | some (.ref r) => some
      { expected := heap.getItem r (some expected), actual := heap.getItem r (some actual) }
  | _ => none

/-- The reports of an attachment, by their names. -/
def ReportedAttachment.writes (attachment : ReportedAttachment) : List (Option Text × Reason) :=
  (attachment.reportedConfigurations.getD []).map fun report => (report.name, report.reason)

/-- The reasons of the attachment itself. -/
def ReportedAttachment.reasons (attachment : ReportedAttachment) : Option Text → Option Reason :=
  tableOf attachment.writes

/-- The network of each of these attachments is found with the reports of the attachment, and
no other network is found. -/
def OwnReasons (engine : Engine) (unsync : List ReportedAttachment)
    (result : Except PyException (Nat × DictHeap)) : Prop :=
  ∃ res heap, result = .ok (res, heap) ∧
    (∀ attachment ∈ unsync, ∀ name,
      getNetworkNameFromAttachment engine attachment.toNetworkAttachment = .ok name →
        ∃ reports, heap.getItem res (some name) = some (.ref reports) ∧
          ∀ report, reasonAt heap reports report = attachment.reasons report) ∧
    ∀ name, (heap.getItem res name).isSome = true → ∃ attachment ∈ unsync, ∃ netName,
      getNetworkNameFromAttachment engine attachment.toNetworkAttachment = .ok netName ∧
        name = some netName

/-! ## A report -/

section

variable {res shared r : Nat} {heap : DictHeap} {report : ReportedConfiguration}
  {key : Option Text}

theorem getItem_addReport_name :
    (addReport shared heap report).getItem shared report.name = some (.ref heap.next) :=
  Heap.getItem_setItem_self _ _ _ _

/-- The other objects are as they were. -/
theorem getItem_addReport_of_lt (hr : r < heap.next) (hne : r ≠ shared) :
    (addReport shared heap report).getItem r key = heap.getItem r key := by
  have hnew : r ≠ heap.next := Nat.ne_of_lt hr
  unfold addReport
  rw [Heap.getItem_setItem_of_ne _ _ _ _ hne, Heap.getItem_setItem_of_ne _ _ _ _ hnew,
    Heap.getItem_setItem_of_ne _ _ _ _ hnew, Heap.getItem_alloc_of_lt _ _ hr]

/-- The other reports are as they were. -/
theorem getItem_addReport_of_ne (hshared : shared < heap.next) (hkey : key ≠ report.name) :
    (addReport shared heap report).getItem shared key = heap.getItem shared key := by
  have hnew : shared ≠ heap.next := Nat.ne_of_lt hshared
  unfold addReport
  rw [Heap.getItem_setItem_of_key_ne _ _ _ _ hkey, Heap.getItem_setItem_of_ne _ _ _ _ hnew,
    Heap.getItem_setItem_of_ne _ _ _ _ hnew, Heap.getItem_alloc_of_lt _ _ hshared]

theorem getItem_addReport_expected (hshared : shared < heap.next) :
    (addReport shared heap report).getItem heap.next (some expected) =
      report.reason.expected := by
  have hkeys : some expected ≠ some actual := by decide
  unfold addReport
  rw [Heap.getItem_setItem_of_ne _ _ _ _ (Nat.ne_of_gt hshared),
    Heap.getItem_setItem_of_key_ne _ _ _ _ hkeys]
  exact Heap.getItem_setItem_self _ _ _ _

theorem getItem_addReport_actual (hshared : shared < heap.next) :
    (addReport shared heap report).getItem heap.next (some actual) = report.reason.actual := by
  unfold addReport
  rw [Heap.getItem_setItem_of_ne _ _ _ _ (Nat.ne_of_gt hshared)]
  exact Heap.getItem_setItem_self _ _ _ _

end

/-! ## The dictionaries in the loops -/

/-- The networks so far refer to one dictionary, which has what was written so far. -/
structure Accumulated (res shared : Nat) (heap : DictHeap) (names : List Text)
    (writes : List (Option Text × Reason)) : Prop where
  apart : res ≠ shared
  res_lt : res < heap.next
  shared_lt : shared < heap.next
  networks : ∀ name, heap.getItem res name =
    if name ∈ names.map some then some (.ref shared) else none
  inner : ∀ name slot, heap.getItem shared name = some slot →
    ∃ r, slot = .ref r ∧ r < heap.next ∧ r ≠ res ∧ r ≠ shared
  reasons : ∀ name, reasonAt heap shared name = tableOf writes name

namespace Accumulated

variable {res shared : Nat} {heap : DictHeap} {names : List Text}
  {writes : List (Option Text × Reason)}

theorem report (h : Accumulated res shared heap names writes) (report : ReportedConfiguration) :
    Accumulated res shared (addReport shared heap report) names
      (writes ++ [(report.name, report.reason)]) where
  apart := h.apart
  res_lt := Nat.lt_succ_of_lt h.res_lt
  shared_lt := Nat.lt_succ_of_lt h.shared_lt
  networks := fun name => by
    rw [getItem_addReport_of_lt h.res_lt h.apart]
    exact h.networks name
  inner := by
    intro name slot hslot
    by_cases hname : name = report.name
    · rw [hname, getItem_addReport_name] at hslot
      exact ⟨heap.next, (Option.some.inj hslot).symm, Nat.lt_succ_self _,
        Nat.ne_of_gt h.res_lt, Nat.ne_of_gt h.shared_lt⟩
    · rw [getItem_addReport_of_ne h.shared_lt hname] at hslot
      obtain ⟨r, hr, hlt, hres, hshared⟩ := h.inner name slot hslot
      exact ⟨r, hr, Nat.lt_succ_of_lt hlt, hres, hshared⟩
  reasons := by
    intro name
    rw [tableOf_concat]
    by_cases hname : name = report.name
    · subst hname
      rw [Function.update_self, reasonAt, getItem_addReport_name]
      simp only [getItem_addReport_expected h.shared_lt, getItem_addReport_actual h.shared_lt]
    · rw [Function.update_of_ne hname, ← h.reasons name, reasonAt, reasonAt,
        getItem_addReport_of_ne h.shared_lt hname]
      cases hslot : heap.getItem shared name with
      | none => rfl
      | some slot =>
        obtain ⟨r, rfl, hlt, _, hne⟩ := h.inner name slot hslot
        simp only [getItem_addReport_of_lt hlt hne]

theorem reports (reports : List ReportedConfiguration)
    (h : Accumulated res shared heap names writes) :
    Accumulated res shared (reports.foldl (addReport shared) heap) names
      (writes ++ reports.map fun report => (report.name, report.reason)) := by
  induction reports generalizing heap writes with
  | nil =>
    rw [List.map_nil, List.append_nil]
    exact h
  | cons report reports ih =>
    rw [List.map_cons, List.append_cons]
    exact ih (h.report report)

theorem network (h : Accumulated res shared heap names writes) (name : Text) :
    Accumulated res shared (heap.setItem res (some name) (.ref shared)) (names ++ [name])
      writes where
  apart := h.apart
  res_lt := h.res_lt
  shared_lt := h.shared_lt
  networks := by
    intro other
    by_cases hother : other = some name
    · rw [hother, Heap.getItem_setItem_self, if_pos (by simp)]
    · rw [Heap.getItem_setItem_of_key_ne _ _ _ _ hother, h.networks other]
      have hmem : other ∈ (names ++ [name]).map some ↔ other ∈ names.map some := by
        simp [hother]
      simp only [hmem]
  inner := by
    intro other slot hslot
    rw [Heap.getItem_setItem_of_ne _ _ _ _ h.apart.symm] at hslot
    exact h.inner other slot hslot
  reasons := by
    intro other
    rw [← h.reasons other, reasonAt, reasonAt, Heap.getItem_setItem_of_ne _ _ _ _ h.apart.symm]
    cases hslot : heap.getItem shared other with
    | none => rfl
    | some slot =>
      obtain ⟨r, rfl, _, hres, _⟩ := h.inner other slot hslot
      simp only [Heap.getItem_setItem_of_ne _ _ _ _ hres]

theorem attachment {engine : Engine} {attachment : ReportedAttachment} {heap' : DictHeap}
    (h : Accumulated res shared heap names writes)
    (hadd : addAttachment engine res shared heap attachment = .ok heap') :
    ∃ name, getNetworkNameFromAttachment engine attachment.toNetworkAttachment = .ok name ∧
      Accumulated res shared heap' (names ++ [name]) (writes ++ attachment.writes) := by
  unfold addAttachment getAttachmentReportedConfigurations at hadd
  cases hname : getNetworkNameFromAttachment engine attachment.toNetworkAttachment with
  | error e => simp [hname, bind, Except.bind] at hadd
  | ok name =>
    cases hreported : attachment.reportedConfigurations with
    | none => simp [hname, hreported, bind, Except.bind] at hadd
    | some reported =>
      simp only [hname, hreported, bind, Except.bind, Except.ok.injEq] at hadd
      subst hadd
      refine ⟨name, rfl, ?_⟩
      unfold ReportedAttachment.writes
      rw [hreported]
      exact (h.reports reported).network name

theorem attachments {engine : Engine} {attachments : List ReportedAttachment}
    {heap' : DictHeap} (h : Accumulated res shared heap names writes)
    (hadd : attachments.foldlM (addAttachment engine res shared) heap = .ok heap') :
    ∃ found, List.Forall₂ (fun (attachment : ReportedAttachment) name =>
        getNetworkNameFromAttachment engine attachment.toNetworkAttachment = .ok name)
          attachments found ∧
      Accumulated res shared heap' (names ++ found)
        (writes ++ (attachments.map ReportedAttachment.writes).flatten) := by
  induction attachments generalizing heap names writes with
  | nil =>
    obtain rfl := Except.ok.inj hadd
    refine ⟨[], .nil, ?_⟩
    rw [List.map_nil, List.flatten_nil, List.append_nil, List.append_nil]
    exact h
  | cons attachment attachments ih =>
    rw [List.foldlM_cons] at hadd
    cases hfirst : addAttachment engine res shared heap attachment with
    | error e => simp [hfirst, bind, Except.bind] at hadd
    | ok middle =>
      rw [hfirst] at hadd
      obtain ⟨name, hname, hmiddle⟩ := h.attachment hfirst
      obtain ⟨found, hfound, hafter⟩ := ih hmiddle hadd
      refine ⟨name :: found, .cons hname hfound, ?_⟩
      rw [List.map_cons, List.flatten_cons, List.append_cons, ← List.append_assoc writes]
      exact hafter

end Accumulated

/-! ## Whose reasons are found -/

/-- The engine knows the network of the attachment, and reports its configurations. -/
structure Reportable (engine : Engine) (attachment : ReportedAttachment) : Prop where
  network : ∃ name,
    getNetworkNameFromAttachment engine attachment.toNetworkAttachment = .ok name
  reported : attachment.reportedConfigurations.isSome = true

/-- All attachments have the same reasons. -/
def ReportAlike (unsync : List ReportedAttachment) : Prop :=
  ∀ attachment ∈ unsync, ∀ other ∈ unsync, attachment.reasons = other.reasons

section

variable {engine : Engine}

theorem addAttachment_ok {res shared : Nat} {attachment : ReportedAttachment}
    (h : Reportable engine attachment) (heap : DictHeap) :
    ∃ heap', addAttachment engine res shared heap attachment = .ok heap' := by
  obtain ⟨name, hname⟩ := h.network
  obtain ⟨reported, hreported⟩ := Option.isSome_iff_exists.mp h.reported
  unfold addAttachment getAttachmentReportedConfigurations
  rw [hname, hreported]
  exact ⟨_, rfl⟩

theorem addAttachments_ok {res shared : Nat} {attachments : List ReportedAttachment}
    (h : ∀ attachment ∈ attachments, Reportable engine attachment) (heap : DictHeap) :
    ∃ heap', attachments.foldlM (addAttachment engine res shared) heap = .ok heap' := by
  induction attachments generalizing heap with
  | nil => exact ⟨heap, rfl⟩
  | cons attachment attachments ih =>
    obtain ⟨hfirst, hrest⟩ := List.forall_mem_cons.mp h
    obtain ⟨middle, hmiddle⟩ := @addAttachment_ok engine res shared attachment hfirst heap
    rw [List.foldlM_cons, hmiddle]
    exact ih hrest middle

/-- The two dictionaries before the loop. -/
theorem accumulated_start :
    Accumulated 0 1 ((⟨0, fun _ => []⟩ : DictHeap).alloc.alloc) [] [] where
  apart := Nat.zero_ne_one
  res_lt := Nat.zero_lt_two
  shared_lt := Nat.one_lt_two
  networks := fun _ => rfl
  inner := fun _ _ hslot => by cases hslot
  reasons := fun _ => rfl

variable {unsync attachments : List ReportedAttachment}

/-- Every network is found with the reports of all attachments. -/
theorem getNetworksUnsyncReason_ok {networks : List Text}
    (hunsync : getUnsyncNetworkAttachments engine attachments networks = .ok unsync)
    (h : ∀ attachment ∈ unsync, Reportable engine attachment) :
    ∃ heap found, getNetworksUnsyncReason engine attachments networks = .ok (0, heap) ∧
      List.Forall₂ (fun (attachment : ReportedAttachment) name =>
        getNetworkNameFromAttachment engine attachment.toNetworkAttachment = .ok name)
          unsync found ∧
      Accumulated 0 1 heap found (unsync.map ReportedAttachment.writes).flatten := by
  obtain ⟨heap, hheap⟩ := @addAttachments_ok engine 0 1 unsync h
    ((⟨0, fun _ => []⟩ : DictHeap).alloc.alloc)
  obtain ⟨found, hfound, hafter⟩ := accumulated_start.attachments hheap
  refine ⟨heap, found, ?_, hfound, hafter⟩
  unfold getNetworksUnsyncReason
  simp only [hunsync, bind, Except.bind]
  simp only [Heap.next_alloc, hheap]

theorem reasons_flatten_iff :
    (∀ attachment ∈ unsync,
        tableOf (unsync.map ReportedAttachment.writes).flatten = attachment.reasons) ↔
      ReportAlike unsync := by
  have hiff := @tableOf_flatten_iff _ _ _ (unsync.map ReportedAttachment.writes)
  simp only [List.forall_mem_map] at hiff
  exact hiff

/-- The networks are found with their own reasons exactly if all reasons are the same. -/
theorem ownReasons_iff {networks : List Text}
    (hunsync : getUnsyncNetworkAttachments engine attachments networks = .ok unsync)
    (h : ∀ attachment ∈ unsync, Reportable engine attachment) :
    OwnReasons engine unsync (getNetworksUnsyncReason engine attachments networks) ↔
      ReportAlike unsync := by
  obtain ⟨heap, found, hok, hfound, hafter⟩ := getNetworksUnsyncReason_ok hunsync h
  have hnetwork : ∀ attachment ∈ unsync, ∀ name,
      getNetworkNameFromAttachment engine attachment.toNetworkAttachment = .ok name →
        heap.getItem 0 (some name) = some (.ref 1) := by
    intro attachment hmem name hname
    obtain ⟨other, hother, hname'⟩ := exists_right_of_forall₂ hfound hmem
    obtain rfl := Except.ok.inj (hname.symm.trans hname')
    rw [hafter.networks, if_pos (List.mem_map_of_mem hother)]
  rw [← reasons_flatten_iff]
  constructor
  · rintro ⟨res, heap', hok', hown, _⟩ attachment hmem
    obtain ⟨rfl, rfl⟩ := Prod.mk.inj (Except.ok.inj (hok.symm.trans hok'))
    obtain ⟨name, hname⟩ := (h attachment hmem).network
    obtain ⟨reports, hreports, hreasons⟩ := hown attachment hmem name hname
    rw [hnetwork attachment hmem name hname] at hreports
    obtain rfl := Slot.ref.inj (Option.some.inj hreports)
    funext report
    exact (hafter.reasons report).symm.trans (hreasons report)
  · intro halike
    refine ⟨0, heap, hok, fun attachment hmem name hname => ?_, fun name hsome => ?_⟩
    · refine ⟨1, hnetwork attachment hmem name hname, fun report => ?_⟩
      rw [hafter.reasons report, halike attachment hmem]
    · rw [hafter.networks] at hsome
      have hin : name ∈ found.map some := by
        by_contra hout
        rw [if_neg hout] at hsome
        cases hsome
      obtain ⟨netName, hfoundName, rfl⟩ := List.mem_map.mp hin
      obtain ⟨attachment, hmem, hname⟩ := exists_left_of_forall₂ hfound hfoundName
      exact ⟨attachment, hmem, netName, hname, rfl⟩

/-- Of attachments that are not in sync, each with a network that is known and with reported
configurations: every network is found with the reports of its own attachment, and only these,
exactly if all of the attachments report the same. -/
theorem unsync_reasons_own_iff (engine : Engine) (attachments unsync : List ReportedAttachment)
    (networks : List Text)
    (hunsync : getUnsyncNetworkAttachments engine attachments networks = .ok unsync)
    (h : ∀ attachment ∈ unsync, Reportable engine attachment) :
    OwnReasons engine unsync (getNetworksUnsyncReason engine attachments networks) ↔
      ReportAlike unsync :=
  ownReasons_iff hunsync h

end

/-! ## Two networks -/

/-- An engine that knows every network by its id. -/
def namingEngine : Engine where
  hostNics := []
  attachments := []
  networkName := fun name => .ok name
  findNetwork := fun _ _ _ => .ok none
  hostNicLabels := fun _ => []
  hasQosAttribute := fun _ => false

/-- A network that is not in sync, with one report. -/
def unsyncNetwork (name report expectedValue actualValue : String) : ReportedAttachment where
  network := some { id := name.toList, name := [] }
  inSync := some false
  reportedConfigurations := some [
    { name := some report.toList
      expectedValue := some expectedValue.toList
      actualValue := some actualValue.toList }]

theorem reportable_unsyncNetwork (name report expectedValue actualValue : String) :
    Reportable namingEngine (unsyncNetwork name report expectedValue actualValue) :=
  ⟨⟨name.toList, rfl⟩, rfl⟩

/-- The reasons do not depend on the network. -/
theorem reasons_unsyncNetwork (name other report expectedValue actualValue : String) :
    (unsyncNetwork name report expectedValue actualValue).reasons =
      (unsyncNetwork other report expectedValue actualValue).reasons := rfl

/-- Two networks with one and the same difference. -/
def sameMtu : List ReportedAttachment :=
  [unsyncNetwork "net1" "mtu" "1500" "9000", unsyncNetwork "net2" "mtu" "1500" "9000"]

theorem same_mtu_own :
    OwnReasons namingEngine sameMtu (getNetworksUnsyncReason namingEngine sameMtu []) := by
  have hunsync : getUnsyncNetworkAttachments namingEngine sameMtu [] = .ok sameMtu := rfl
  have hreportable : ∀ attachment ∈ sameMtu, Reportable namingEngine attachment := by
    simp only [sameMtu, List.forall_mem_cons]
    exact ⟨reportable_unsyncNetwork _ _ _ _, reportable_unsyncNetwork _ _ _ _, by simp⟩
  have halike : ReportAlike sameMtu := by
    simp only [ReportAlike, sameMtu, List.forall_mem_cons, List.not_mem_nil, false_implies,
      implies_true, and_true, true_and]
    exact ⟨reasons_unsyncNetwork _ _ _ _ _, reasons_unsyncNetwork _ _ _ _ _⟩
  exact (unsync_reasons_own_iff namingEngine sameMtu sameMtu [] hunsync hreportable).mpr halike

/-- One network with another MTU, one with another VLAN. -/
def mtuAndVlan : List ReportedAttachment :=
  [unsyncNetwork "net1" "mtu" "1500" "9000", unsyncNetwork "net2" "vlan" "10" "20"]

/-- The first network is found with the report of the second. -/
theorem vlan_of_other_network :
    getUnsyncNetworkAttachments namingEngine mtuAndVlan [] = .ok mtuAndVlan ∧
      (∀ attachment ∈ mtuAndVlan, Reportable namingEngine attachment) ∧
      ¬ OwnReasons namingEngine mtuAndVlan
        (getNetworksUnsyncReason namingEngine mtuAndVlan []) := by
  have hunsync : getUnsyncNetworkAttachments namingEngine mtuAndVlan [] = .ok mtuAndVlan := rfl
  have hreportable : ∀ attachment ∈ mtuAndVlan, Reportable namingEngine attachment := by
    simp only [mtuAndVlan, List.forall_mem_cons]
    exact ⟨reportable_unsyncNetwork _ _ _ _, reportable_unsyncNetwork _ _ _ _, by simp⟩
  refine ⟨hunsync, hreportable, fun hown => ?_⟩
  have halike := (ownReasons_iff hunsync hreportable).mp hown
  have hsame := congrFun (halike _ List.mem_cons_self _
    (List.mem_cons_of_mem _ List.mem_cons_self)) (some "vlan".toList)
  exact absurd hsame (by decide)

end OvirtArt.Networking
