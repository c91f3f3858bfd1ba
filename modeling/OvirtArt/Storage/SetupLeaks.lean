import OvirtArt.Foundation.Emissions
import OvirtArt.Foundation.Lists
import OvirtArt.Storage.SetupRuns

set_option autoImplicit false

/-!
# Storage that is left behind

The cleanup removes the recorded devices, each of them once.  Where that is all that was
created, nothing is left behind.

A creation that fails leaves the devices of its section unrecorded, and these are what leaks.  The
condition is on the calls of the setup, section by section; that a host group is found is asked of
the environment.
-/

namespace OvirtArt.Storage.Wrapper

open OvirtArt.Foundation

/-! ## What is removed -/

section

variable (s : StorageUtils)

/-- The name of the manager that devices are removed by. -/
def managerOf (kind : Kind) : String :=
  match kind with
  | .net type => (managerName s type).getD ""
  | .localFs => "local"

/-- The server that devices are removed from. -/
def hostOf (kind : Kind) (storageSection : String) : String :=
  match kind with
  | .net _ => ((s.storageServers.lookup (managerOf s kind)).map Manager.host).getD ""
  | .localFs => ((s.localStorages.lookup storageSection).map LocalParams.ip).getD ""

/-- A device for whose removal a manager is called. -/
def removalAt (kind : Kind) (storageSection : String) (index : Nat) (id : String) : Made :=
  ⟨⟨kind, storageSection, index⟩, managerOf s kind, hostOf s kind storageSection, id⟩

/-- The recorded devices of a section. -/
def removalsAt (kind : Kind) (storageSection : String) : List Made :=
  ((recordedIds s kind storageSection).getD []).zipIdx.map fun device =>
    removalAt s kind storageSection device.2 device.1

/-- The sections for a kind of devices. -/
def sectionsOf (kind : Kind) : List String :=
  match kind with
  | .net type => (s.storages type).keys
  | .localFs => s.localStorages.keys

/-- What the cleanup removes of a kind. -/
def removalsOf (kind : Kind) : List Made := (sectionsOf s kind).flatMap (removalsAt s kind)

/-- All recorded devices, in the order in which they are removed. -/
def removals : List Made := allKinds.flatMap (removalsOf s)

end

section

variable {env : Environment} {s₀ s : StorageUtils} {kind : Kind} {storageSection : String}
  {made : Made}

theorem mem_removalsAt :
    made ∈ removalsAt s kind storageSection ↔ ∃ ids, recordedIds s kind storageSection = some ids ∧
      ∃ index id, ids[index]? = some id ∧ made = removalAt s kind storageSection index id := by
  unfold removalsAt
  rw [List.mem_map]
  constructor
  · rintro ⟨⟨id, index⟩, hmem, rfl⟩
    have hid := List.mk_mem_zipIdx_iff_getElem?.mp hmem
    cases hrecorded : recordedIds s kind storageSection with
    | none =>
      rw [hrecorded] at hid
      cases hid
    | some ids =>
      rw [hrecorded] at hid
      exact ⟨ids, rfl, index, id, hid, rfl⟩
  · rintro ⟨ids, hrecorded, index, id, hid, rfl⟩
    refine ⟨(id, index), List.mk_mem_zipIdx_iff_getElem?.mpr ?_, rfl⟩
    rw [hrecorded]
    exact hid

theorem nodup_removalsAt : (removalsAt s kind storageSection).Nodup := by
  have hindices : (removalsAt s kind storageSection).map (fun made => made.slot.index) =
      List.range' 0 ((recordedIds s kind storageSection).getD []).length := by
    unfold removalsAt
    rw [List.map_map, ← List.zipIdx_map_snd]
    rfl
  refine List.Nodup.of_map (fun made : Made => made.slot.index) ?_
  rw [hindices]
  exact List.nodup_range'

theorem nodup_sectionsOf : (sectionsOf s kind).Nodup := by
  cases kind with
  | net type => exact (s.storages type).keys_nodup
  | localFs => exact s.localStorages.keys_nodup

theorem slot_of_mem_removalsAt (h : made ∈ removalsAt s kind storageSection) :
    made.slot.kind = kind ∧ made.slot.storageSection = storageSection := by
  obtain ⟨_, _, index, id, _, rfl⟩ := mem_removalsAt.mp h
  exact ⟨rfl, rfl⟩

/-- No device is removed twice. -/
theorem nodup_removals : (removals s).Nodup := by
  refine nodup_flatMap_of_source (fun made : Made => made.slot.kind) (by decide)
    (fun kind _ => ?_) fun kind made hmem => ?_
  · exact nodup_flatMap_of_source (fun made : Made => made.slot.storageSection) nodup_sectionsOf
      (fun _ _ => nodup_removalsAt) fun _ _ h => (slot_of_mem_removalsAt h).2
  · obtain ⟨_, _, hat⟩ := List.mem_flatMap.mp hmem
    exact (slot_of_mem_removalsAt hat).1

theorem mem_sectionsOf_of_total {total : Nat}
    (h : sectionTotal s kind storageSection = some total) :
    storageSection ∈ sectionsOf s kind := by
  cases kind with
  | net type =>
    obtain ⟨params, hparams, _⟩ := Option.map_eq_some_iff.mp h
    exact AList.mem_keys.mpr (AList.lookup_isSome.mp (by rw [hparams]; rfl))
  | localFs =>
    obtain ⟨params, hparams, _⟩ := Option.map_eq_some_iff.mp h
    exact AList.mem_keys.mpr (AList.lookup_isSome.mp (by rw [hparams]; rfl))

/-- The removal of a device is called on the server that the device is on. -/
theorem eq_removalAt {device : Made} (h : OnItsServer s device) :
    device = removalAt s device.slot.kind device.slot.storageSection device.slot.index
      device.id := by
  obtain ⟨⟨kind, storageSection, index⟩, manager, host, id⟩ := device
  have hremoval : managerOf s kind = manager ∧ hostOf s kind storageSection = host := by
    cases kind with
    | net type =>
      obtain ⟨hname, found, hlookup, hhost, _⟩ := h
      have hmanager : managerOf s (.net type) = manager :=
        congrArg (fun name => Option.getD name "") hname
      refine ⟨hmanager, ?_⟩
      change ((s.storageServers.lookup (managerOf s (.net type))).map Manager.host).getD "" = host
      rw [hmanager]
      exact (congrArg (fun found => (Option.map Manager.host found).getD "") hlookup).trans
        hhost.symm
    | localFs =>
      obtain ⟨hname, params, hlookup, hhost⟩ := h
      refine ⟨hname.symm, ?_⟩
      exact (congrArg (fun found => (Option.map LocalParams.ip found).getD "") hlookup).trans
        hhost.symm
  unfold removalAt
  simp only [hremoval]

/-- Every recorded device was made by a call that returned. -/
theorem Books.call_of_recorded (h : Books s₀ none s) {ids : List String} {index : Nat}
    {id : String} (hrecorded : recordedIds s kind storageSection = some ids)
    (hid : ids[index]? = some id) :
    ∃ call ∈ s.calls, call.device.slot = ⟨kind, storageSection, index⟩ ∧
      OnItsServer s call.device ∧ call.device = removalAt s kind storageSection index id := by
  have hbooked := (h.booked kind storageSection ids (by simp) hrecorded).1
  obtain ⟨call, hmem, hslot⟩ := hbooked.called index id hid
  obtain ⟨hreturned, hcallId⟩ := hbooked.returned call hmem ⟨by rw [hslot], by rw [hslot]⟩
  have hserver := h.servers call hmem hreturned
  have hdevice := eq_removalAt hserver
  rw [hslot] at hcallId hdevice
  rw [hid] at hcallId
  rw [← Option.some.inj hcallId] at hdevice
  exact ⟨call, hmem, hslot, hserver, hdevice⟩

/-- The devices that are removed are those of the calls for recorded sections. -/
theorem Books.mem_removals_iff (h : Books s₀ none s) :
    made ∈ removals s ↔ ∃ call ∈ s.calls, call.device = made ∧
      recordedIds s made.slot.kind made.slot.storageSection ≠ none := by
  constructor
  · intro hmem
    obtain ⟨kind, _, hkind⟩ := List.mem_flatMap.mp hmem
    obtain ⟨storageSection, _, hat⟩ := List.mem_flatMap.mp hkind
    obtain ⟨ids, hrecorded, index, id, hid, rfl⟩ := mem_removalsAt.mp hat
    obtain ⟨call, hcall, _, _, hdevice⟩ := h.call_of_recorded hrecorded hid
    refine ⟨call, hcall, hdevice, fun hnone => ?_⟩
    cases hrecorded.symm.trans hnone
  · rintro ⟨call, hcall, rfl, hsome⟩
    obtain ⟨ids, hrecorded⟩ := Option.ne_none_iff_exists'.mp hsome
    obtain ⟨hbooked, htotal⟩ := h.booked _ _ ids (by simp) hrecorded
    obtain ⟨hreturned, hid⟩ := hbooked.returned call hcall ⟨rfl, rfl⟩
    rw [← h.settings.totals] at htotal
    refine List.mem_flatMap.mpr ⟨call.device.slot.kind, mem_allKinds _,
      List.mem_flatMap.mpr ⟨_, mem_sectionsOf_of_total htotal, mem_removalsAt.mpr ?_⟩⟩
    exact ⟨ids, hrecorded, _, _, hid, eq_removalAt (h.servers call hcall hreturned)⟩

/-! ## What was created -/

/-- The devices that are on a server after these calls. -/
def created (calls : List Call) : List Made := (calls.filter Call.onServer).map Call.device

/-- In every section either all calls return and make their device, or no call does. -/
def AllOrNothing (calls : List Call) : Prop :=
  ∀ call ∈ calls, call.onServer = true ↔
    ∀ other ∈ calls, other.At call.device.slot.kind call.device.slot.storageSection →
      other.returned = true

theorem Books.recorded_iff (h : Books s₀ none s) {call : Call} (hcall : call ∈ s.calls) :
    recordedIds s call.device.slot.kind call.device.slot.storageSection ≠ none ↔
      ∀ other ∈ s.calls, other.At call.device.slot.kind call.device.slot.storageSection →
        other.returned = true := by
  constructor
  · intro hsome other hother hat
    obtain ⟨ids, hrecorded⟩ := Option.ne_none_iff_exists'.mp hsome
    exact ((h.booked _ _ ids (by simp) hrecorded).1.returned other hother hat).1
  · intro hall hnone
    rcases h.abandoned _ _ (by simp) hnone with hnoCall | ⟨other, hother, hat, hraised⟩
    · exact hnoCall call hcall ⟨rfl, rfl⟩
    · rw [hall other hother hat] at hraised
      cases hraised

/-- What is removed is what was created exactly if every section was made as a whole or not
at all. -/
theorem Books.removals_perm_iff (h : Books s₀ none s) :
    (removals s).Perm (created s.calls) ↔ AllOrNothing s.calls := by
  have hdevices : (s.calls.map Call.device).Nodup := by
    refine List.Nodup.of_map Made.slot ?_
    rw [List.map_map]
    exact h.distinct
  have hinjective : ∀ call ∈ s.calls, ∀ other ∈ s.calls, call.device = other.device →
      call = other := fun call hcall other hother heq =>
    List.inj_on_of_nodup_map hdevices hcall hother heq
  have hcreated : (created s.calls).Nodup :=
    hdevices.sublist (List.filter_sublist.map Call.device)
  rw [List.perm_ext_iff_of_nodup nodup_removals hcreated]
  constructor
  · intro hsame call hcall
    rw [← h.recorded_iff hcall]
    have hdevice := hsame call.device
    rw [h.mem_removals_iff] at hdevice
    constructor
    · intro hon
      obtain ⟨_, _, _, hrecorded⟩ := hdevice.mpr
        (List.mem_map_of_mem (List.mem_filter.mpr ⟨hcall, hon⟩))
      exact hrecorded
    · intro hrecorded
      obtain ⟨other, hother, heq⟩ := List.mem_map.mp (hdevice.mp ⟨call, hcall, rfl, hrecorded⟩)
      obtain ⟨hotherMem, hon⟩ := List.mem_filter.mp hother
      rw [← hinjective other hotherMem call hcall heq]
      exact hon
  · intro hall made
    rw [h.mem_removals_iff]
    constructor
    · rintro ⟨call, hcall, rfl, hrecorded⟩
      exact List.mem_map_of_mem
        (List.mem_filter.mpr ⟨hcall, (hall call hcall).mpr ((h.recorded_iff hcall).mp hrecorded)⟩)
    · intro hmade
      obtain ⟨call, hfilter, rfl⟩ := List.mem_map.mp hmade
      obtain ⟨hcall, hon⟩ := List.mem_filter.mp hfilter
      exact ⟨call, hcall, rfl, (h.recorded_iff hcall).mpr ((hall call hcall).mp hon)⟩

end

/-! ## The cleanup -/

/-- A state in which these removals were called. -/
def withRemoved (devices : List Made) (s : StorageUtils) : StorageUtils :=
  { s with removed := s.removed ++ devices }

/-- A procedure calls these removals and does nothing else. -/
abbrev Removes (s : StorageUtils) (m : Action Unit) (devices : List Made) : Prop :=
  Emits withRemoved s m devices

section

variable {env : Environment} {s₀ s : StorageUtils}

theorem removes_callRemoval {remove : Action Made} {device : Made}
    (h : ∀ done, remove.run (withRemoved done s) = .ok device (withRemoved done s)) :
    Removes s (callRemoval remove) [device] := by
  intro done
  have hrun := h done
  unfold callRemoval
  rw [run_tryCatch, EStateM.run_bind, hrun]
  simp only
  rw [EStateM.run_modify]
  unfold withRemoved
  simp only [List.append_assoc]

/-- The devices of the sections are removed as they were recorded. -/
theorem removes_cleanupSections {π δ : Type} {kind : Kind}
    {recorded : StorageUtils → Sections (List δ)} {remove : String → π → Nat → δ → Action Unit}
    {afterwards : String → π → Action Unit} {sections : List (Sigma fun _ : String => π)}
    (idOf : π → δ → String)
    (hsame : ∀ done, recorded (withRemoved done s) = recorded s)
    (hids : ∀ params ∈ sections, recordedIds s kind params.1 =
      ((recorded s).lookup params.1).map fun devices => devices.map (idOf params.2))
    (hremove : ∀ params ∈ sections, ∀ devices, (recorded s).lookup params.1 = some devices →
      devices ≠ [] →
        (∀ index device, Removes s (remove params.1 params.2 index device)
          [removalAt s kind params.1 index (idOf params.2 device)]) ∧
        Removes s (afterwards params.1 params.2) []) :
    Removes s (cleanupSections recorded remove afterwards sections)
      (sections.flatMap fun params => removalsAt s kind params.1) := by
  refine Emits.forM fun params hmem => emits_get_bind fun done => ?_
  rw [hsame]
  unfold removalsAt
  rw [hids params hmem]
  cases hlookup : (recorded s).lookup params.1 with
  | none => exact emits_pure
  | some devices =>
    have hloop : Removes s
        (devices.zipIdx.forM fun device => remove params.1 params.2 device.2 device.1)
        (devices.zipIdx.flatMap fun device =>
          [removalAt s kind params.1 device.2 (idOf params.2 device.1)]) := by
      refine Emits.forM fun device hdevice => ?_
      have hne : devices ≠ [] := by
        rintro rfl
        cases hdevice
      exact (hremove params hmem devices hlookup hne).1 device.2 device.1
    have hlast : Removes s (if devices.isEmpty then pure () else afterwards params.1 params.2)
        [] := by
      cases devices with
      | nil => exact emits_pure
      | cons first rest => exact (hremove params hmem _ hlookup (List.cons_ne_nil _ _)).2
    have hboth := hloop.bind hlast
    rw [List.append_nil, ← List.map_eq_flatMap] at hboth
    rw [Option.map_some, Option.getD_some, List.zipIdx_map, List.map_map]
    exact hboth

/-- Where devices are recorded there is the manager that made them. -/
theorem Books.manager_of_recorded (h : Books s₀ none s) {type : DevType}
    {storageSection : String} {ids : List String}
    (hrecorded : recordedIds s (.net type) storageSection = some ids) (hne : ids ≠ []) :
    ∃ name manager, managerName s type = some name ∧
      s.storageServers.lookup name = some manager ∧
        ∀ index id, removalAt s (.net type) storageSection index id =
          ⟨⟨.net type, storageSection, index⟩, name, manager.host, id⟩ := by
  obtain ⟨id, rest, rfl⟩ := List.exists_cons_of_ne_nil hne
  obtain ⟨call, hmem, hslot, hserver, hdevice⟩ := h.call_of_recorded hrecorded
    (show (id :: rest)[0]? = some id from rfl)
  have hparts := eq_removalAt hserver
  unfold OnItsServer at hserver
  rw [hslot] at hserver hparts
  obtain ⟨hname, manager, hlookup, hhost, _⟩ := hserver
  refine ⟨call.device.manager, manager, hname, hlookup, fun index id => ?_⟩
  have hmanager : call.device.manager = managerOf s (.net type) := congrArg Made.manager hparts
  have hhostOf : call.device.host = hostOf s (.net type) storageSection :=
    congrArg Made.host hparts
  unfold removalAt
  rw [← hmanager, ← hhost, hhostOf]

theorem removes_cleanupNasSections (h : Books s₀ none s) {type : NasType} {fsType : String}
    (hname : managerName s (.nas type) = some fsType) :
    Removes s (cleanupNasSections env type fsType) (removalsOf s (.net (.nas type))) := by
  unfold removalsOf sectionsOf AList.keys List.keys
  rw [List.flatMap_map]
  refine emits_get_bind fun done => removes_cleanupSections (fun _ path => path) (fun _ => rfl)
    (fun params _ => ?_) fun params _ devices hlookup hne => ⟨fun index device => ?_, emits_pure⟩
  · unfold recordedIds
    simp
  · have hrecorded : recordedIds s (.net (.nas type)) params.1 = some devices := hlookup
    obtain ⟨name, manager, hmanager, hserver, hremoval⟩ := h.manager_of_recorded hrecorded hne
    rw [hname] at hmanager
    obtain rfl := Option.some.inj hmanager
    rw [hremoval]
    refine removes_callRemoval fun done => ?_
    rw [EStateM.run_bind, @run_getStorageManager env (withRemoved done s) _ _ params.2.ip hserver]
    rfl

/-- The managers find the groups of the initiators that they had mapped. -/
def FindsHostGroups (env : Environment) : Prop :=
  ∀ type storageSection, ∃ hostGroup hostGroups,
    env.hostGroupsAtCleanup type storageSection = some (hostGroup :: hostGroups)

theorem removes_unmapInitiators (henv : FindsHostGroups env) {type : SanType} {manager : Manager}
    (hserver : s.storageServers.lookup type.name = some manager) (storageSection : String)
    (ip : Option String) : Removes s (unmapInitiators env type storageSection ip) [] := by
  intro done
  obtain ⟨hostGroup, hostGroups, hgroups⟩ := henv type storageSection
  unfold unmapInitiators
  rw [EStateM.run_bind, @run_getStorageManager env (withRemoved done s) _ _ ip hserver]
  simp only
  rw [EStateM.run_bind, EStateM.run_get, List.append_nil]
  simp only
  split
  · rfl
  · rw [hgroups]
    rfl

theorem removes_cleanupSanSections (h : Books s₀ none s) (henv : FindsHostGroups env)
    (type : SanType) :
    Removes s (cleanupSanSections env type) (removalsOf s (.net (.san type))) := by
  have hentry : ∀ params ∈ (s.storages (.san type)).entries,
      (s.storages (.san type)).lookup params.1 = some params.2 :=
    fun _ hmem => AList.mem_lookup_iff.mpr hmem
  have hnothing : ∀ params ∈ (s.storages (.san type)).entries,
      decide (0 < params.2.total) = false → removalsAt s (.net (.san type)) params.1 = [] := by
    intro params hmem hzero
    unfold removalsAt
    cases hrecorded : recordedIds s (.net (.san type)) params.1 with
    | none => rfl
    | some ids =>
      have htotal := (h.booked _ _ ids (by simp) hrecorded).2
      rw [sectionTotal_of_mem (.san type) h.settings hmem] at htotal
      have hlength : ids.length = 0 := by
        rw [← Option.some.inj htotal]
        simpa using hzero
      rw [List.eq_nil_of_length_eq_zero hlength]
      rfl
  unfold removalsOf sectionsOf AList.keys List.keys
  rw [List.flatMap_map, ← flatMap_filter_of_eq_nil hnothing]
  refine emits_get_bind fun done => removes_cleanupSections
    (fun params lun => lun.lunId params.isSpecific) (fun _ => rfl) (fun params hmem => ?_)
    fun params hmem devices hlookup hne => ?_
  · unfold recordedIds isSpecificAt
    simp only [hentry params (List.mem_of_mem_filter hmem), Option.elim_some]
  · have hrecorded : recordedIds s (.net (.san type)) params.1 = some (devices.map fun lun =>
        lun.lunId (isSpecificAt s (.san type) params.1)) := congrArg (Option.map _) hlookup
    obtain ⟨name, manager, hmanager, hserver, hremoval⟩ := h.manager_of_recorded hrecorded
      (fun hnil => hne (List.map_eq_nil_iff.mp hnil))
    obtain rfl : type.name = name := Option.some.inj hmanager
    refine ⟨fun index device => ?_, removes_unmapInitiators henv hserver _ _⟩
    rw [hremoval]
    refine removes_callRemoval fun done => ?_
    rw [EStateM.run_bind, @run_getStorageManager env (withRemoved done s) _ _ params.2.ip hserver]
    rfl

theorem removes_cleanupLocalSections : Removes s cleanupLocalSections (removalsOf s .localFs) := by
  unfold removalsOf sectionsOf AList.keys List.keys
  rw [List.flatMap_map]
  refine emits_get_bind fun done => removes_cleanupSections (fun _ path => path) (fun _ => rfl)
    (fun params _ => ?_) fun params hmem devices _ _ => ⟨fun index device => ?_, emits_pure⟩
  · unfold recordedIds
    simp
  · have hlookup : s.localStorages.lookup params.1 = some params.2 := AList.mem_lookup_iff.mpr hmem
    have hremoval : removalAt s .localFs params.1 index device =
        ⟨⟨.localFs, params.1, index⟩, "local", params.2.ip, device⟩ := by
      unfold removalAt hostOf
      simp only [hlookup]
      rfl
    rw [hremoval]
    exact removes_callRemoval fun _ => rfl

/-- Without a type for the iso and export domains no device of theirs was recorded. -/
theorem Books.removalsOf_eq_nil (h : Books s₀ none s) {type : DevType}
    (hname : managerName s type = none) : removalsOf s (.net type) = [] := by
  refine List.flatMap_eq_nil_iff.mpr fun storageSection _ => ?_
  unfold removalsAt
  cases hrecorded : recordedIds s (.net type) storageSection with
  | none => rfl
  | some ids =>
    cases ids with
    | nil => rfl
    | cons id rest =>
      obtain ⟨name, _, hsome, _⟩ := h.manager_of_recorded hrecorded (List.cons_ne_nil _ _)
      rw [hname] at hsome
      cases hsome

/-- The cleanup removes all recorded devices. -/
theorem removed_storageCleanup (h : Books s₀ none s) (henv : FindsHostGroups env) :
    (after (storageCleanup env) s).removed = s.removed ++ removals s := by
  have hnas : Removes s (nasStorageTypes.forM fun type => cleanupNasSections env type type.name)
      (nasStorageTypes.flatMap fun type => removalsOf s (nasKind type)) :=
    Emits.forM fun type hmem => removes_cleanupNasSections h (managerName_of_mem hmem)
  have hsan : Removes s (sanStorageTypes.forM fun type => cleanupSanSections env type)
      (sanStorageTypes.flatMap fun type => removalsOf s (sanKind type)) :=
    Emits.forM fun type _ => removes_cleanupSanSections h henv type
  have hlocal := @removes_cleanupLocalSections s
  have hall : removals s =
      (nasStorageTypes.flatMap fun type => removalsOf s (nasKind type)) ++
        ((sanStorageTypes.flatMap fun type => removalsOf s (sanKind type)) ++
          (removalsOf s .localFs ++
            (removalsOf s (nasKind .isoDomain) ++ removalsOf s (nasKind .exportDomain)))) := by
    unfold removals allKinds isoExportKinds
    simp only [List.flatMap_append, List.flatMap_map, List.flatMap_cons, List.flatMap_nil,
      List.append_nil]
  have hstart : withRemoved [] s = s := by
    unfold withRemoved
    rw [List.append_nil]
  have hend : ∀ devices, (withRemoved devices s).removed = s.removed ++ devices := fun _ => rfl
  rw [hall, ← hend]
  refine congrArg StorageUtils.removed ?_
  cases hname : s.isoExportDomainNas with
  | some fsType =>
    have hiso : Removes s
        (do
          let self ← get
          let fsType ← fromExcept self.fsType
          cleanupNasSections env .isoDomain fsType
          cleanupNasSections env .exportDomain fsType)
        (removalsOf s (nasKind .isoDomain) ++ removalsOf s (nasKind .exportDomain)) := by
      refine emits_get_bind fun done => ?_
      have hfsType : (withRemoved done s).fsType = .ok fsType := by
        unfold StorageUtils.fsType
        rw [show (withRemoved done s).isoExportDomainNas = some fsType from hname]
      rw [hfsType]
      exact (@removes_cleanupNasSections env s₀ s h .isoDomain fsType hname).bind
        (@removes_cleanupNasSections env s₀ s h .exportDomain fsType hname)
    have hrun := hnas.bind (hsan.bind (hlocal.bind hiso)) []
    rw [hstart] at hrun
    exact after_eq_of_ok hrun
  | none =>
    have hisoNil := @Books.removalsOf_eq_nil _ _ h (.nas .isoDomain) hname
    have hexportNil := @Books.removalsOf_eq_nil _ _ h (.nas .exportDomain) hname
    have hrun := hnas.bind (hsan.bind hlocal) []
    rw [hstart] at hrun
    rw [hisoNil, hexportNil, List.append_nil, List.append_nil]
    have hfsType : ∀ devices, (withRemoved devices s).fsType = .error .keyError := by
      intro devices
      unfold StorageUtils.fsType
      rw [show (withRemoved devices s).isoExportDomainNas = none from hname]
    unfold storageCleanup
    rw [← bind_assoc, ← bind_assoc, after_bind, bind_assoc, hrun]
    simp only [List.nil_append]
    rw [after_get_bind, hfsType]
    rfl

/-! ## Leaks -/

/-- The state after the setup, wherever it stopped, and then the cleanup. -/
def setupThenCleanup (env : Environment) (self : StorageUtils) : StorageUtils :=
  after (storageCleanup env) (after (storageSetup env) self.fresh)

/-- The calls of the setup for creating devices. -/
def setupCalls (env : Environment) (self : StorageUtils) : List Call :=
  (after (storageSetup env) self.fresh).calls

/-- What was created is removed, each device once, and nothing else is, exactly if every
section was made as a whole or not at all. -/
theorem removed_perm_created_iff (henv : FindsHostGroups env) (self : StorageUtils) :
    (setupThenCleanup env self).removed.Perm (created (setupCalls env self)) ↔
      AllOrNothing (setupCalls env self) := by
  have hbooks := books_storageSetup env self
  unfold setupThenCleanup
  rw [removed_storageCleanup hbooks henv, hbooks.settings.removed]
  exact hbooks.removals_perm_iff

end

/-- Two nfs devices for the target of the data domains. -/
def twoNfs : StorageUtils where
  storageType := "none"
  realStorageType := "mixed"
  loadBalancing := ""
  isoExportDomainNas := some "nfs"
  hostGroup := "group"
  vdsData := [("10.0.0.9", "iqn.host")]
  storages
    | .nas .nfs => AList.singleton "PARAMETERS.data_domain" { ip := some "10.0.0.1", total := 2 }
    | _ => ∅
  localStorages := ∅

/-- Servers on which as many directories can be created in a section. -/
def serversWith (directories : Nat) : Environment where
  getIpAddressByHostName name := name
  getStorageServer _ := none
  connect name ip := ip.map fun host => ⟨host, name⟩
  createDevice slot :=
    if slot.index < directories then some s!"/exports/group_{slot.index}" else none
  blockCalls _ := ⟨none, fun _ => some [], fun _ _ => true, true, true⟩
  createLocalStorage _ := .created
  timeStamp _ := "0"
  hostGroupsAtCleanup _ _ := some ["group"]

theorem findsHostGroups_serversWith (directories : Nat) :
    FindsHostGroups (serversWith directories) := fun _ _ => ⟨"group", [], rfl⟩

theorem removed_perm_created_iff_twoNfs :
    FindsHostGroups (serversWith 2) ∧
      ((setupThenCleanup (serversWith 2) twoNfs).removed.Perm
        (created (setupCalls (serversWith 2) twoNfs)) ↔
          AllOrNothing (setupCalls (serversWith 2) twoNfs)) :=
  ⟨findsHostGroups_serversWith 2, removed_perm_created_iff (findsHostGroups_serversWith 2) twoNfs⟩

/-- Where the second directory of a section cannot be created, the first is left behind. -/
theorem first_device_left_behind :
    ¬ (setupThenCleanup (serversWith 1) twoNfs).removed.Perm
      (created (setupCalls (serversWith 1) twoNfs)) := by
  have hnone : (setupThenCleanup (serversWith 1) twoNfs).removed = [] := by decide
  have hfirst : created (setupCalls (serversWith 1) twoNfs) =
      [⟨⟨.net (.nas .nfs), "PARAMETERS.data_domain", 0⟩, "nfs", "10.0.0.1",
        "/exports/group_0"⟩] := by decide
  rw [hnone, hfirst]
  decide

end OvirtArt.Storage.Wrapper
