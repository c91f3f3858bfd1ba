import OvirtArt.Storage.SetupRuns

set_option autoImplicit false

/-!
# Setup on servers that answer

Where servers are found and creations succeed, the sections of a type are all recorded, on
the server that was chosen for the type.

`Progress` says which types are done and what is recorded for them.  The rules here keep it
through the sections of one type, whatever the sections ask for.
-/

namespace OvirtArt.Storage.Wrapper

open OvirtArt.Foundation

/-- A server is found for every type, and everything can be created on it. -/
structure Serves (env : Environment) : Prop where
  getStorageServer : ∀ stype, (env.getStorageServer stype).isSome = true
  createDevice : ∀ slot, (env.createDevice slot).isSome = true
  createLun : ∀ slot, (env.blockCalls slot).createLun.isSome = true
  getInitiatorHostGroups : ∀ slot initiator,
    ((env.blockCalls slot).getInitiatorHostGroups initiator).isSome = true
  unmapInitiator : ∀ slot hostGroup initiator,
    (env.blockCalls slot).unmapInitiator hostGroup initiator = true
  mapLun : ∀ slot, (env.blockCalls slot).mapLun = true
  getLun : ∀ slot, (env.blockCalls slot).getLun = true
  createLocalStorage : ∀ slot, env.createLocalStorage slot ≠ .failed

/-- The servers of the sections are as they were, and what was recorded still is. -/
structure Advances (s t : StorageUtils) : Prop where
  settings : SameSettings s t
  loadBalancing : t.loadBalancing = s.loadBalancing
  vdsData : t.vdsData = s.vdsData
  storageServers : t.storageServers = s.storageServers
  addresses : ∀ type storageSection,
    ((t.storages type).lookup storageSection).map SectionParams.ip =
      ((s.storages type).lookup storageSection).map SectionParams.ip
  recorded : ∀ kind storageSection, recordedIds s kind storageSection ≠ none →
    recordedIds t kind storageSection ≠ none

section

variable {env : Environment} {s t u : StorageUtils} {current : Option (Kind × String)}

theorem Advances.refl (s : StorageUtils) : Advances s s :=
  ⟨SameSettings.refl s, rfl, rfl, rfl, fun _ _ => rfl, fun _ _ h => h⟩

theorem Advances.trans (h : Advances s t) (h' : Advances t u) : Advances s u where
  settings := h.settings.trans h'.settings
  loadBalancing := h'.loadBalancing.trans h.loadBalancing
  vdsData := h'.vdsData.trans h.vdsData
  storageServers := h'.storageServers.trans h.storageServers
  addresses type storageSection :=
    (h'.addresses type storageSection).trans (h.addresses type storageSection)
  recorded kind storageSection hsome :=
    h'.recorded kind storageSection (h.recorded kind storageSection hsome)

theorem advances_withCall (call : Call) : Advances s (withCall call s) where
  settings := (within_withCall call none).settings
  loadBalancing := rfl
  vdsData := rfl
  storageServers := rfl
  addresses _ _ := rfl
  recorded kind storageSection hsome := by
    rw [(within_withCall call none).recorded kind storageSection (by simp)]
    exact hsome

theorem advances_setIsSpecific (type : SanType) (storageSection : String) (isSpecific : Bool) :
    Advances s (setIsSpecific (.san type) storageSection isSpecific s) where
  settings := ⟨rfl, rfl, sectionTotal_setIsSpecific _ _ _, rfl⟩
  loadBalancing := rfl
  vdsData := rfl
  storageServers := rfl
  addresses other otherSection := by
    by_cases htype : other = .san type
    · subst htype
      rw [storages_setIsSpecific, lookup_mapValues, Option.map_map]
      refine congrArg (fun f => Option.map f _) (funext fun params => ?_)
      rw [Function.comp_apply]
      split <;> rfl
    · rw [storages_setIsSpecific_of_ne htype]
  recorded kind otherSection hsome := by
    rcases kind with (nas | san) | _
    · exact hsome
    · unfold recordedIds at hsome ⊢
      rw [ne_eq, Option.map_eq_none_iff] at hsome ⊢
      exact hsome
    · exact hsome

variable {manager : Manager} {kind : Kind}

/-- What is recorded for a section comes to what was recorded before. -/
theorem Records.advances {δ : Type} {storageSection : String}
    {record : List δ → StorageUtils → StorageUtils} {idIn : StorageUtils → δ → String}
    (h : Records kind storageSection record idIn) (devices : List δ) (s : StorageUtils)
    (hloadBalancing : (record devices s).loadBalancing = s.loadBalancing)
    (hvdsData : (record devices s).vdsData = s.vdsData)
    (hservers : (record devices s).storageServers = s.storageServers)
    (hstorages : (record devices s).storages = s.storages) : Advances s (record devices s) where
  settings := (h.within devices s).settings
  loadBalancing := hloadBalancing
  vdsData := hvdsData
  storageServers := hservers
  addresses type otherSection := by rw [hstorages]
  recorded other otherSection hsome := by
    by_cases heq : (kind, storageSection) = (other, otherSection)
    · obtain ⟨rfl, rfl⟩ := Prod.mk.inj heq
      rw [h.recorded devices s]
      simp
    · rw [(h.within devices s).recorded other otherSection fun hsome => heq (Option.some.inj hsome)]
      exact hsome

/-! ## Creations that succeed -/

/-- A creation that returns, with the servers as they are. -/
def Works {δ : Type} (s : StorageUtils) (create : Action δ) : Prop :=
  ∀ t, Advances s t → Triple (fun u => u = t) create (fun _ => Advances t) fun _ => False

theorem works_createNasDevice (henv : Serves env) {fsType : String}
    (hserver : s.storageServers.lookup fsType = some manager) (slot : Slot) (ip : Option String) :
    Works s (createNasDevice env slot ip fsType) := by
  rintro _ ht t rfl
  have hlookup : t.storageServers.lookup fsType = some manager := by
    rw [ht.storageServers]
    exact hserver
  obtain ⟨path, hpath⟩ := Option.isSome_iff_exists.mp (henv.createDevice slot)
  have hrun : (createNasDevice env slot ip fsType).run t =
      .ok path (withCall ⟨⟨slot, fsType, manager.host, path⟩, true, true⟩ t) := by
    unfold createNasDevice
    rw [EStateM.run_bind, run_getStorageManager ip hlookup]
    simp only [hpath]
    rfl
  rw [hrun]
  exact advances_withCall _

theorem forM_eq_ok {γ ε : Type} {f : γ → Except ε Unit} {xs : List γ}
    (h : ∀ x ∈ xs, f x = .ok ()) : xs.forM f = .ok () := by
  induction xs with
  | nil => rfl
  | cons x rest ih =>
    change (f x >>= fun _ => rest.forM f) = .ok ()
    rw [h x List.mem_cons_self]
    exact ih fun y hy => h y (List.mem_cons_of_mem x hy)

/-- With a host to look a LUN up for, nothing fails once the LUN is there. -/
theorem finishLun_eq_ok (henv : Serves env) (slot : Slot) (manager : Manager) (lunName : String)
    {vdsData : List (String × String)} (hvds : vdsData ≠ []) :
    finishLun (env.blockCalls slot) manager lunName vdsData = .ok () := by
  have hunmap : (initiators manager vdsData).forM
      (fun initiator => unmapOthers (env.blockCalls slot) lunName initiator) = .ok () := by
    refine forM_eq_ok fun initiator _ => ?_
    obtain ⟨hostGroups, hgroups⟩ :=
      Option.isSome_iff_exists.mp (henv.getInitiatorHostGroups slot initiator)
    unfold unmapOthers
    simp only [hgroups, henv.unmapInitiator slot, Bool.or_true, List.all_eq_true, implies_true,
      if_true]
  have hempty : vdsData.isEmpty = false := by
    rw [List.isEmpty_eq_false_iff]
    exact hvds
  unfold finishLun
  rw [hunmap]
  simp only [henv.mapLun slot, henv.getLun slot, hempty, Bool.and_false, if_true]
  rfl

theorem works_createBlockDevice (henv : Serves env) {type : SanType}
    (hserver : s.storageServers.lookup type.name = some manager) (hvds : s.vdsData ≠ [])
    (slot : Slot) (ip : Option String) : Works s (createBlockDevice env type slot ip) := by
  rintro _ ht t rfl
  have hlookup : t.storageServers.lookup type.name = some manager := by
    rw [ht.storageServers]
    exact hserver
  have hhosts : t.vdsData ≠ [] := by
    rw [ht.vdsData]
    exact hvds
  obtain ⟨lun, hlun⟩ := Option.isSome_iff_exists.mp (henv.createLun slot)
  have hrun := @run_createBlockDevice env t type slot ip manager t.storageServers lun
    (run_getStorageManager ip hlookup) hlun
  rw [finishLun_eq_ok henv slot manager t.hostGroup hhosts] at hrun
  rw [hrun]
  exact (advances_setIsSpecific type slot.storageSection _).trans (advances_withCall _)

theorem works_createLocalDevice (henv : Serves env) (slot : Slot) (server path : String) :
    Works s (createLocalDevice env slot server path) := by
  rintro _ _ t rfl
  unfold createLocalDevice
  cases hcall : env.createLocalStorage slot with
  | created => exact advances_withCall _
  | alreadyExists => exact advances_withCall _
  | failed => exact absurd hcall (henv.createLocalStorage slot)

/-- All sections are recorded where all creations succeed. -/
theorem works_setupSections {δ π : Type} {total : π → Nat} {create : String → π → Nat → Action δ}
    {record : String → List δ → StorageUtils → StorageUtils}
    {entries : List (Sigma fun _ : String => π)}
    (hcreate : ∀ storageSection params index, Works s (create storageSection params index))
    (hrecord : ∀ storageSection devices u, Advances u (record storageSection devices u) ∧
      recordedIds (record storageSection devices u) kind storageSection ≠ none) :
    Triple (Advances s) (setupSections total create record entries)
      (fun _ t => Advances s t ∧ ∀ entry ∈ entries, recordedIds t kind entry.1 ≠ none)
      fun _ => False := by
  have hloop := @Triple.forM _ _ (Sigma fun _ : String => π) (fun _ => False)
    (fun params => do
      let devices ← (List.range (total params.2)).mapM (create params.1 params.2)
      modify (record params.1 devices))
    (fun left t => Advances s t ∧
      ∀ entry ∈ entries, entry ∈ left ∨ recordedIds t kind entry.1 ≠ none) ?_ entries
  · refine hloop.imp (fun t ht => ⟨ht, fun entry hmem => Or.inl hmem⟩) (fun _ t ht => ⟨ht.1, ?_⟩)
      fun _ h => h
    exact fun entry hmem => (ht.2 entry hmem).resolve_left List.not_mem_nil
  · intro params left
    have hdevices := @Triple.mapM _ _ δ Nat (fun _ => False) (create params.1 params.2)
      (fun _ _ t => Advances s t ∧
        ∀ entry ∈ entries, entry ∈ params :: left ∨ recordedIds t kind entry.1 ≠ none) ?_
      (List.range (total params.2)) []
    · refine hdevices.bind fun devices => triple_modify ?_
      rintro t ⟨ht, hleft⟩
      obtain ⟨hstep, hrecorded⟩ := hrecord params.1 devices t
      refine ⟨ht.trans hstep, fun entry hmem => ?_⟩
      rcases hleft entry hmem with hin | hdone
      · rcases List.mem_cons.mp hin with rfl | hrest
        · exact Or.inr hrecorded
        · exact Or.inl hrest
      · exact Or.inr (hstep.recorded kind entry.1 hdone)
    · rintro index rest found t ⟨ht, hleft⟩
      refine (hcreate params.1 params.2 index t ht).imp (fun _ h => h) (fun _ u hu => ?_)
        (fun _ h => h) t rfl
      exact ⟨ht.trans hu, fun entry hmem =>
        (hleft entry hmem).imp_right (hu.recorded kind entry.1)⟩

/-- The sections of a kind are all recorded. -/
theorem works_setupKind {δ π : Type} {total : π → Nat} {create : String → π → Nat → Action δ}
    {record : String → List δ → StorageUtils → StorageUtils} {dict : StorageUtils → Sections π}
    (hcreate : ∀ storageSection params index, Works s (create storageSection params index))
    (hrecord : ∀ storageSection devices u, Advances u (record storageSection devices u) ∧
      recordedIds (record storageSection devices u) kind storageSection ≠ none)
    (hkeys : ∀ t storageSection, sectionTotal t kind storageSection ≠ none →
      ∃ params, (dict t).lookup storageSection = some params) :
    Triple (Advances s)
      (do
        let self ← get
        setupSections total create record (dict self).entries)
      (fun _ t => Advances s t ∧ ∀ storageSection, sectionTotal s kind storageSection ≠ none →
        recordedIds t kind storageSection ≠ none)
      fun _ => False := by
  refine triple_get_bind fun before => ?_
  rintro t ⟨rfl, ht⟩
  refine (works_setupSections hcreate hrecord).imp (fun _ h => h) (fun _ u hu => ⟨hu.1, ?_⟩)
    (fun _ h => h) t ht
  intro storageSection hsome
  rw [← ht.settings.totals] at hsome
  obtain ⟨params, hparams⟩ := hkeys t storageSection hsome
  exact hu.2 ⟨storageSection, params⟩ (AList.mem_lookup_iff.mp hparams)

theorem exists_params_of_total {type : DevType} {storageSection : String}
    (h : sectionTotal s (.net type) storageSection ≠ none) :
    ∃ params, (s.storages type).lookup storageSection = some params := by
  obtain ⟨total, htotal⟩ := Option.ne_none_iff_exists'.mp h
  obtain ⟨params, hparams, _⟩ := Option.map_eq_some_iff.mp htotal
  exact ⟨params, hparams⟩

theorem works_setupNasSections (henv : Serves env) {type : NasType} {fsType : String}
    (hserver : s.storageServers.lookup fsType = some manager) :
    Triple (Advances s) (setupNasSections env type fsType)
      (fun _ t => Advances s t ∧ ∀ storageSection,
        sectionTotal s (.net (.nas type)) storageSection ≠ none →
          recordedIds t (.net (.nas type)) storageSection ≠ none)
      fun _ => False := by
  refine works_setupKind (fun _ _ _ => works_createNasDevice henv hserver _ _)
    (fun storageSection devices u => ?_) fun _ _ => exists_params_of_total
  have hrecords := records_recordPaths type storageSection
  refine ⟨hrecords.advances devices u rfl rfl rfl rfl, ?_⟩
  rw [hrecords.recorded]
  simp

theorem works_setupSanSections (henv : Serves env) {type : SanType}
    (hserver : s.storageServers.lookup type.name = some manager) (hvds : s.vdsData ≠ []) :
    Triple (Advances s) (setupSanSections env type)
      (fun _ t => Advances s t ∧ ∀ storageSection,
        sectionTotal s (.net (.san type)) storageSection ≠ none →
          recordedIds t (.net (.san type)) storageSection ≠ none)
      fun _ => False := by
  refine works_setupKind (fun _ _ _ => works_createBlockDevice henv hserver hvds _ _)
    (fun storageSection devices u => ?_) fun _ _ => exists_params_of_total
  have hrecords := records_recordLuns type storageSection
  refine ⟨hrecords.advances devices u rfl rfl rfl rfl, ?_⟩
  rw [hrecords.recorded]
  simp

theorem works_storageSetupDAS (henv : Serves env) (s : StorageUtils) :
    Triple (Advances s) (storageSetupDAS env) (fun _ t => Advances s t) fun _ => False := by
  have hkind : Triple (Advances s) (storageSetupDAS env)
      (fun _ t => Advances s t ∧ ∀ storageSection, sectionTotal s .localFs storageSection ≠ none →
        recordedIds t .localFs storageSection ≠ none) fun _ => False := by
    refine works_setupKind (fun _ _ _ => works_createLocalDevice henv _ _ _)
      (fun storageSection devices u => ?_) fun t storageSection hsome => ?_
    · have hrecords := records_recordLocalPaths storageSection
      refine ⟨hrecords.advances devices u rfl rfl rfl rfl, ?_⟩
      rw [hrecords.recorded]
      simp
    · obtain ⟨total, htotal⟩ := Option.ne_none_iff_exists'.mp hsome
      obtain ⟨params, hparams, _⟩ := Option.map_eq_some_iff.mp htotal
      exact ⟨params, hparams⟩
  exact hkind.imp (fun _ h => h) (fun _ _ h => h.1) fun _ h => h

end

end OvirtArt.Storage.Wrapper
