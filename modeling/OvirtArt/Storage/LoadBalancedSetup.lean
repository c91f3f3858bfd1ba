import OvirtArt.Storage.LoadBalancing

set_option autoImplicit false

/-!
# Setup with load balancing

A server is chosen for a type where the type is requested under its default path.

Each step of the setup has one triple over the progress made so far, with a server for the type or
without one.
-/

namespace OvirtArt.Storage.Wrapper

open OvirtArt.Foundation

/-! ## What is requested -/

section

variable (utils : StorageUtils)

/-- A type is requested in some section. -/
def Requested (type : DevType) : Prop :=
  ∃ storageSection, sectionTotal utils (.net type) storageSection ≠ none

/-- A type is requested under its default path. -/
def RequestedAtDefault (type : DevType) : Prop :=
  sectionTotal utils (.net type) (devicesTargetPath type) ≠ none

/-- Load balancing for storage type none, as `__init__` reads it. -/
structure LoadBalanced : Prop where
  storageType : utils.storageType = "none"
  loadBalancing : utils.loadBalancing = "capacity" ∨ utils.loadBalancing = "random"
  vdsData : utils.vdsData ≠ []
  total_pos : ∀ type storageSection total,
    sectionTotal utils (.net type) storageSection = some total → 0 < total

end

section

variable {env : Environment} {utils s t : StorageUtils} {type : DevType} {done : List DevType}

theorem keys_eq_nil_iff : (s.storages type).keys = [] ↔ ¬ Requested s type := by
  unfold Requested
  rw [List.eq_nil_iff_forall_not_mem, not_exists]
  refine forall_congr' fun storageSection => ?_
  rw [not_not, ← AList.mem_keys, ← AList.lookup_eq_none]
  exact Option.map_eq_none_iff.symm

theorem ofName_name (type : DevType) : DevType.ofName type.name = some type := by
  rcases type with nas | san
  · cases nas <;> decide
  · cases san <;> decide

theorem name_injective {type other : DevType} (h : type.name = other.name) : type = other := by
  have hname := ofName_name type
  rw [h, ofName_name] at hname
  exact (Option.some.inj hname).symm

theorem requested_of_settings (h : SameSettings utils s) :
    Requested s type ↔ Requested utils type := by
  unfold Requested
  simp only [h.totals]

theorem isRequested_of_not_requested (h : ¬ Requested s type) :
    s.isRequested type.name = .ok false := by
  unfold StorageUtils.isRequested
  rw [ofName_name]
  simp only [if_pos (keys_eq_nil_iff.mpr h)]

theorem isRequested_of_missing (h : Requested s type) (hmissing : ¬ RequestedAtDefault s type) :
    s.isRequested type.name = .error .keyError := by
  unfold RequestedAtDefault sectionTotal at hmissing
  rw [not_not, Option.map_eq_none_iff] at hmissing
  unfold StorageUtils.isRequested
  rw [ofName_name]
  simp only [if_neg fun hkeys => keys_eq_nil_iff.mp hkeys h]
  rw [show getDeviceTargetPath none (devicesTargetPath type) = devicesTargetPath type from rfl,
    hmissing]

theorem isRequested_of_atDefault (h : RequestedAtDefault s type)
    (hpos : ∀ storageSection total, sectionTotal s (.net type) storageSection = some total →
      0 < total) : s.isRequested type.name = .ok true := by
  have hrequested : Requested s type := ⟨_, h⟩
  obtain ⟨total, htotal⟩ := Option.ne_none_iff_exists'.mp h
  have htotalPos := hpos _ _ htotal
  obtain ⟨params, hparams, rfl⟩ := Option.map_eq_some_iff.mp htotal
  unfold StorageUtils.isRequested
  rw [ofName_name]
  simp only [if_neg fun hkeys => keys_eq_nil_iff.mp hkeys hrequested]
  rw [show getDeviceTargetPath none (devicesTargetPath type) = devicesTargetPath type from rfl,
    hparams]
  simp only [decide_eq_true htotalPos]

theorem LoadBalanced.loadBalancing_ne (h : LoadBalanced utils) : utils.loadBalancing ≠ "" := by
  rcases h.loadBalancing with hmode | hmode
  · rw [hmode]
    decide
  · rw [hmode]
    decide

/-! ## Types that were set up -/

/-- A section is recorded, on the server whose address it was given. -/
def Assigned (s : StorageUtils) (type : DevType) (storageSection : String) : Prop :=
  recordedIds s (.net type) storageSection ≠ none ∧
    ∃ name manager, managerName s type = some name ∧ s.storageServers.lookup name = some manager ∧
      ((s.storages type).lookup storageSection).map SectionParams.ip = some (some manager.host)

/-- Some types were set up; servers were chosen for requested types only. -/
structure Progress (utils : StorageUtils) (done : List DevType) (s : StorageUtils) : Prop where
  settings : SameSettings utils s
  loadBalancing : s.loadBalancing = utils.loadBalancing
  vdsData : s.vdsData = utils.vdsData
  servers : ∀ name ∈ s.storageServers, ∃ type, Requested utils type ∧ type.name = name
  assigned : ∀ type ∈ done, ∀ storageSection,
    sectionTotal utils (.net type) storageSection ≠ none → Assigned s type storageSection

theorem Progress.advances (h : Progress utils done s) (hstep : Advances s t) :
    Progress utils done t where
  settings := h.settings.trans hstep.settings
  loadBalancing := hstep.loadBalancing.trans h.loadBalancing
  vdsData := hstep.vdsData.trans h.vdsData
  servers name hname := by
    rw [hstep.storageServers] at hname
    exact h.servers name hname
  assigned type hmem storageSection hsome := by
    obtain ⟨hrecorded, name, manager, hname, hlookup, hip⟩ :=
      h.assigned type hmem storageSection hsome
    refine ⟨hstep.recorded _ _ hrecorded, name, manager, ?_, ?_, ?_⟩
    · rw [managerName_eq hstep.settings, hname]
    · rw [hstep.storageServers, hlookup]
    · rw [hstep.addresses, hip]

/-- The sections of these types have the address of the manager with this name. -/
def ServerFor (utils s : StorageUtils) (name : String) (dtypes : List DevType) : Prop :=
  ∃ manager, s.storageServers.lookup name = some manager ∧
    ∀ type ∈ dtypes, ∀ storageSection, sectionTotal utils (.net type) storageSection ≠ none →
      ((s.storages type).lookup storageSection).map SectionParams.ip = some (some manager.host)

variable {f : Action Unit} {name : String}

/-- Types are set up when their sections have a server and are recorded. -/
theorem Progress.setUp {dtypes : List DevType} (h : Progress utils done s)
    (hserver : ServerFor utils s name dtypes)
    (hnames : ∀ type ∈ dtypes, managerName utils type = some name) (hstep : Advances s t)
    (hrecorded : ∀ type ∈ dtypes, ∀ storageSection,
      sectionTotal s (.net type) storageSection ≠ none →
        recordedIds t (.net type) storageSection ≠ none) : Progress utils (dtypes ++ done) t := by
  have ht := h.advances hstep
  refine ⟨ht.settings, ht.loadBalancing, ht.vdsData, ht.servers,
    fun type hmem storageSection hsome => ?_⟩
  rcases List.mem_append.mp hmem with hnew | hold
  · obtain ⟨manager, hlookup, hips⟩ := hserver
    refine ⟨hrecorded type hnew storageSection (by rw [h.settings.totals]; exact hsome), name,
      manager, ?_, ?_, ?_⟩
    · rw [managerName_eq ht.settings, hnames type hnew]
    · rw [hstep.storageServers, hlookup]
    · rw [hstep.addresses, hips type hnew storageSection hsome]
  · exact ht.assigned type hold storageSection hsome

/-! ## Choosing servers -/

theorem lookup_assignIps_of_not_mem (host : String) {dtypes : List DevType} {type : DevType}
    (hmem : type ∉ dtypes) :
    (dtypes.foldl (assignIp host) s).storages type = s.storages type := by
  induction dtypes generalizing s with
  | nil => rfl
  | cons first rest ih =>
    rw [List.mem_cons, not_or] at hmem
    rw [List.foldl_cons, ih hmem.2, storages_assignIp_of_ne hmem.1]

theorem lookup_assignIps (host : String) {dtypes : List DevType} {type : DevType}
    (hmem : type ∈ dtypes) {storageSection : String}
    (hsome : sectionTotal s (.net type) storageSection ≠ none) :
    (((dtypes.foldl (assignIp host) s).storages type).lookup storageSection).map
      SectionParams.ip = some (some host) := by
  induction dtypes generalizing s with
  | nil => cases hmem
  | cons first rest ih =>
    rw [List.foldl_cons]
    by_cases hrest : type ∈ rest
    · refine ih hrest ?_
      rw [(within_assignIp host first).settings.totals]
      exact hsome
    · obtain rfl : type = first := (List.mem_cons.mp hmem).resolve_right hrest
      rw [lookup_assignIps_of_not_mem host hrest, storages_assignIp, lookup_mapValues,
        Option.map_map]
      obtain ⟨total, htotal⟩ := Option.ne_none_iff_exists'.mp hsome
      obtain ⟨params, hparams, _⟩ := Option.map_eq_some_iff.mp htotal
      rw [hparams]
      rfl

theorem within_assignIps (host : String) (dtypes : List DevType) :
    Within none s (dtypes.foldl (assignIp host) s) := by
  induction dtypes generalizing s with
  | nil => exact ⟨SameSettings.refl s, fun _ _ _ => rfl, fun _ h => h⟩
  | cons first rest ih => exact (within_assignIp host first).trans ih

theorem assignIps_same (host : String) (dtypes : List DevType) :
    (dtypes.foldl (assignIp host) s).loadBalancing = s.loadBalancing ∧
      (dtypes.foldl (assignIp host) s).vdsData = s.vdsData ∧
        (dtypes.foldl (assignIp host) s).storageServers = s.storageServers := by
  induction dtypes generalizing s with
  | nil => exact ⟨rfl, rfl, rfl⟩
  | cons first rest ih => exact ih

theorem Progress.withServers {servers : AList fun _ : String => Manager}
    (h : Progress utils done s) (hextends : Extends s.storageServers servers)
    (hservers : ∀ name ∈ servers, ∃ type, Requested utils type ∧ type.name = name) :
    Progress utils done (withServers servers s) where
  settings := h.settings.trans (within_withServers hextends none).settings
  loadBalancing := h.loadBalancing
  vdsData := h.vdsData
  servers := hservers
  assigned type hmem storageSection hsome := by
    obtain ⟨hrecorded, name, manager, hname, hlookup, hip⟩ :=
      h.assigned type hmem storageSection hsome
    refine ⟨?_, name, manager, hname, hextends _ _ hlookup, hip⟩
    rw [(within_withServers hextends none).recorded _ _ (by simp)]
    exact hrecorded

theorem Progress.assignIps (h : Progress utils done s) (host : String) {dtypes : List DevType}
    (hnew : ∀ type ∈ dtypes, type ∉ done) :
    Progress utils done (dtypes.foldl (assignIp host) s) := by
  have hwithin := @within_assignIps s host dtypes
  obtain ⟨hloadBalancing, hvdsData, hservers⟩ := @assignIps_same s host dtypes
  refine ⟨h.settings.trans hwithin.settings, hloadBalancing.trans h.loadBalancing,
    hvdsData.trans h.vdsData, fun name hname => ?_, fun type hmem storageSection hsome => ?_⟩
  · rw [hservers] at hname
    exact h.servers name hname
  · obtain ⟨hrecorded, name, manager, hname, hlookup, hip⟩ :=
      h.assigned type hmem storageSection hsome
    refine ⟨?_, name, manager, ?_, ?_, ?_⟩
    · rw [hwithin.recorded _ _ (by simp)]
      exact hrecorded
    · rw [managerName_eq hwithin.settings, hname]
    · rw [hservers, hlookup]
    · rw [lookup_assignIps_of_not_mem host fun hin => hnew type hin hmem, hip]

/-- A manager is there, or chosen, for a type that is requested. -/
theorem triple_chosenManager (henv : Serves env) (hutils : LoadBalanced utils)
    (hrequested : Requested utils type) :
    Triple (Progress utils done) (chosenManager env type.name)
      (fun manager t => Progress utils done t ∧ t.storageServers.lookup type.name = some manager)
      fun _ => False := by
  refine triple_get_bind fun before => ?_
  rintro s ⟨rfl, hprogress⟩
  cases hlookup : s.storageServers.lookup type.name with
  | some manager => exact ⟨hprogress, hlookup⟩
  | none =>
    obtain ⟨manager, hmanager⟩ := Option.isSome_iff_exists.mp (henv.getStorageServer type.name)
    have hselect : selectServer env s.loadBalancing type.name = .ok manager := by
      unfold selectServer
      rw [hprogress.loadBalancing, if_pos hutils.loadBalancing, hmanager]
      rfl
    simp only [hselect]
    refine ⟨hprogress.withServers (extends_insert hlookup manager) fun name hname => ?_,
      AList.lookup_insert _⟩
    rcases (AList.mem_insert _).mp hname with rfl | hold
    · exact ⟨type, hrequested, rfl⟩
    · exact hprogress.servers name hold

theorem triple_assignServer_progress (henv : Serves env) (hutils : LoadBalanced utils)
    (hrequested : Requested utils type) {dtypes : List DevType}
    (hnew : ∀ type ∈ dtypes, type ∉ done) :
    Triple (Progress utils done) (assignServer env type.name dtypes)
      (fun _ t => Progress utils done t ∧ ServerFor utils t type.name dtypes) fun _ => False := by
  refine (triple_chosenManager henv hutils hrequested).bind fun manager => triple_modify ?_
  rintro s ⟨hprogress, hlookup⟩
  refine ⟨hprogress.assignIps manager.host hnew, manager, ?_,
    fun other hmem storageSection hsome => ?_⟩
  · rw [(assignIps_same manager.host dtypes).2.2, hlookup]
  · refine lookup_assignIps manager.host hmem ?_
    rw [hprogress.settings.totals]
    exact hsome

/-! ## The decorator -/

/-- What is decorated is only called with a manager. -/
def ifServed (name : String) (f : Action Unit) : Action Unit := do
  let self ← get
  if name ∈ self.storageServers then f else pure ()

theorem run_getStorageServers {requested : Bool} {dtypes : List DevType}
    (hon : s.loadBalancing ≠ "") (hrequested : s.isRequested name = .ok requested) :
    (getStorageServers env (.ok name) dtypes f).run s =
      ((if requested then assignServer env name dtypes else pure ()) >>= fun _ =>
        ifServed name f).run s := by
  unfold getStorageServers
  rw [EStateM.run_bind, EStateM.run_get]
  simp only [if_neg hon]
  rw [EStateM.run_bind, run_fromExcept]
  simp only
  rw [EStateM.run_bind, run_fromExcept, hrequested]
  simp only
  cases requested with
  | true => rfl
  | false => rfl

theorem run_getStorageServers_error {stype : Except StorageError String} {dtypes : List DevType}
    {exception : StorageError} (hon : s.loadBalancing ≠ "")
    (hrequested : (do s.isRequested (← stype)) = .error exception) :
    (getStorageServers env stype dtypes f).run s = .error exception s := by
  unfold getStorageServers
  rw [EStateM.run_bind, EStateM.run_get]
  simp only [if_neg hon]
  rw [EStateM.run_bind, run_fromExcept]
  cases stype with
  | error e =>
    cases hrequested
    rfl
  | ok name =>
    simp only
    have herror : s.isRequested name = .error exception := hrequested
    rw [EStateM.run_bind, run_fromExcept, herror]

/-- The types get a server and are set up where one type is requested under its default
path. -/
theorem triple_served (henv : Serves env) (hutils : LoadBalanced utils)
    (hdefault : RequestedAtDefault utils type) {dtypes : List DevType}
    (hnames : ∀ other ∈ dtypes, managerName utils other = some type.name)
    (hnew : ∀ other ∈ dtypes, other ∉ done)
    (hf : ∀ s manager, SameSettings utils s → s.vdsData ≠ [] →
      s.storageServers.lookup type.name = some manager →
        Triple (Advances s) f
          (fun _ t => Advances s t ∧ ∀ other ∈ dtypes, ∀ storageSection,
            sectionTotal s (.net other) storageSection ≠ none →
              recordedIds t (.net other) storageSection ≠ none) fun _ => False) :
    Triple (Progress utils done) (getStorageServers env (.ok type.name) dtypes f)
      (fun _ => Progress utils (dtypes ++ done)) fun _ => False := by
  intro s hprogress
  have hrequested : s.isRequested type.name = .ok true := by
    refine isRequested_of_atDefault ?_ fun storageSection total htotal => ?_
    · unfold RequestedAtDefault
      rw [hprogress.settings.totals]
      exact hdefault
    · rw [hprogress.settings.totals] at htotal
      exact hutils.total_pos _ _ _ htotal
  have hon : s.loadBalancing ≠ "" := by
    rw [hprogress.loadBalancing]
    exact hutils.loadBalancing_ne
  rw [run_getStorageServers hon hrequested]
  refine Triple.bind (triple_assignServer_progress henv hutils ⟨_, hdefault⟩ hnew) (fun _ => ?_) s
    hprogress
  refine triple_get_bind fun before => ?_
  rintro t ⟨rfl, ht, hserver⟩
  obtain ⟨manager, hlookup, _⟩ := id hserver
  have hmem : type.name ∈ t.storageServers := AList.lookup_isSome.mp (by rw [hlookup]; rfl)
  rw [if_pos hmem]
  have hvds : t.vdsData ≠ [] := by
    rw [ht.vdsData]
    exact hutils.vdsData
  refine (hf t manager ht.settings hvds hlookup).imp (fun _ h => h) (fun _ u hu => ?_)
    (fun _ h => h) t (Advances.refl t)
  exact ht.setUp hserver hnames hu.1 hu.2

/-- Nothing is done for a name under which nothing is requested. -/
theorem run_getStorageServers_skip (hutils : LoadBalanced utils) {dtypes : List DevType}
    (hprogress : Progress utils done s) (hrequested : s.isRequested name = .ok false)
    (hnone : ∀ type, Requested utils type → type.name ≠ name) :
    (getStorageServers env (.ok name) dtypes f).run s = .ok () s := by
  have hon : s.loadBalancing ≠ "" := by
    rw [hprogress.loadBalancing]
    exact hutils.loadBalancing_ne
  have hmem : name ∉ s.storageServers := by
    intro hmem
    obtain ⟨type, htype, hname⟩ := hprogress.servers name hmem
    exact hnone type htype hname
  rw [run_getStorageServers hon hrequested]
  change (ifServed name f).run s = .ok () s
  unfold ifServed
  rw [EStateM.run_bind, EStateM.run_get]
  simp only [if_neg hmem]
  rfl

/-! ## Types with servers of their own -/

/-- The types that a server is chosen for by their own name. -/
def ownTypes : List DevType := nasStorageTypes.map .nas ++ sanStorageTypes.map .san

/-- The setup of a type with its own server. -/
def setupOwn (env : Environment) : DevType → Action Unit
  | .nas type => storageSetupNAS env type
  | .san type => storageSetupSAN env type

theorem setupByType_none (realStorageType : String) :
    setupByType env "none" realStorageType = (do
      ownTypes.forM (setupOwn env)
      storageSetupDAS env) := by
  have hposixfs : (posixfsCompliantTypes.filter fun type => type ∉ nasStorageTypes) = [] := by
    decide
  unfold setupByType ownTypes
  rw [if_pos rfl, hposixfs]
  simp only [List.forM_eq_forM, List.forM_append, List.forM_map, List.forM_nil, bind_assoc,
    bind_pure_unit]
  rfl

theorem Progress.requested_iff (h : Progress utils done s) :
    Requested s type ↔ Requested utils type := requested_of_settings h.settings

/-- A type that is requested nowhere is skipped. -/
theorem Progress.cons_of_not_requested (h : Progress utils done s)
    (hnot : ¬ Requested utils type) : Progress utils (type :: done) s := by
  refine ⟨h.settings, h.loadBalancing, h.vdsData, h.servers,
    fun other hmem storageSection hsome => ?_⟩
  rcases List.mem_cons.mp hmem with rfl | hold
  · exact absurd ⟨storageSection, hsome⟩ hnot
  · exact h.assigned other hold storageSection hsome

theorem triple_setupOwn (henv : Serves env) (hutils : LoadBalanced utils) (hown : type ∈ ownTypes)
    (hgood : Requested utils type → RequestedAtDefault utils type) (hnew : type ∉ done) :
    Triple (Progress utils done) (setupOwn env type) (fun _ => Progress utils (type :: done))
      fun _ => False := by
  have hnewTypes : ∀ other ∈ [type], other ∉ done := by
    intro other hmem
    rw [List.mem_singleton.mp hmem]
    exact hnew
  by_cases hrequested : Requested utils type
  · have hdefault := hgood hrequested
    cases type with
    | nas nas =>
      have hmem : nas ∈ nasStorageTypes := by
        revert hown
        cases nas <;> decide
      refine triple_served henv hutils hdefault (fun other hother => ?_) hnewTypes
        fun s manager _ _ hserver => ?_
      · rw [List.mem_singleton.mp hother]
        exact managerName_of_mem hmem
      · refine (works_setupNasSections henv hserver).imp (fun _ h => h)
          (fun _ t ht => ⟨ht.1, fun other hother => ?_⟩) fun _ h => h
        rw [List.mem_singleton.mp hother]
        exact ht.2
    | san san =>
      refine triple_served henv hutils hdefault (fun other hother => ?_) hnewTypes
        fun s manager _ hvds hserver => ?_
      · rw [List.mem_singleton.mp hother]
        rfl
      · refine (works_setupSanSections henv hserver hvds).imp (fun _ h => h)
          (fun _ t ht => ⟨ht.1, fun other hother => ?_⟩) fun _ h => h
        rw [List.mem_singleton.mp hother]
        exact ht.2
  · intro s hprogress
    have hskip : (setupOwn env type).run s = .ok () s := by
      have hnot : s.isRequested type.name = .ok false :=
        isRequested_of_not_requested fun h => hrequested (hprogress.requested_iff.mp h)
      have hnone : ∀ other, Requested utils other → other.name ≠ type.name := by
        intro other hother hname
        rw [name_injective hname] at hother
        exact hrequested hother
      cases type with
      | nas nas => exact run_getStorageServers_skip hutils hprogress hnot hnone
      | san san => exact run_getStorageServers_skip hutils hprogress hnot hnone
    rw [hskip]
    exact hprogress.cons_of_not_requested hrequested

theorem raises_setupOwn (hutils : LoadBalanced utils) (hrequested : Requested utils type)
    (hmissing : ¬ RequestedAtDefault utils type) :
    Foundation.Raises (Progress utils done) (setupOwn env type) .keyError := by
  intro s hprogress
  have hon : s.loadBalancing ≠ "" := by
    rw [hprogress.loadBalancing]
    exact hutils.loadBalancing_ne
  have herror : s.isRequested type.name = .error .keyError := by
    refine isRequested_of_missing (hprogress.requested_iff.mpr hrequested) ?_
    unfold RequestedAtDefault at hmissing ⊢
    rw [hprogress.settings.totals]
    exact hmissing
  refine ⟨s, ?_⟩
  cases type with
  | nas nas => exact run_getStorageServers_error hon herror
  | san san => exact run_getStorageServers_error hon herror

theorem Progress.mono {fewer : List DevType} (h : Progress utils done s) (hsub : fewer ⊆ done) :
    Progress utils fewer s :=
  ⟨h.settings, h.loadBalancing, h.vdsData, h.servers,
    fun type hmem => h.assigned type (hsub hmem)⟩

/-- All types with a server of their own are set up. -/
theorem triple_setupOwns (henv : Serves env) (hutils : LoadBalanced utils) {types : List DevType}
    (hown : types ⊆ ownTypes) (hnodup : (types ++ done).Nodup)
    (hgood : ∀ type ∈ types, Requested utils type → RequestedAtDefault utils type) :
    Triple (Progress utils done) (types.forM (setupOwn env))
      (fun _ => Progress utils (types ++ done)) fun _ => False := by
  induction types generalizing done with
  | nil => exact triple_pure fun _ h => h
  | cons type rest ih =>
    rw [List.cons_append, List.nodup_cons] at hnodup
    have hnew : type ∉ done := fun hmem => hnodup.1 (List.mem_append_right _ hmem)
    refine (triple_setupOwn henv hutils (hown List.mem_cons_self)
      (hgood type List.mem_cons_self) hnew).bind fun _ => ?_
    have hrest := @ih (type :: done)
      (fun other hmem => hown (List.mem_cons_of_mem _ hmem)) ?_
      fun other hmem => hgood other (List.mem_cons_of_mem _ hmem)
    · exact hrest.imp (fun _ h => h) (fun _ _ h => h.mono List.perm_middle.symm.subset)
        fun _ h => h
    · exact List.perm_middle.symm.nodup (List.nodup_cons.mpr hnodup)

/-- A type that is not requested under its default path stops the setup. -/
theorem raises_setupOwns (henv : Serves env) (hutils : LoadBalanced utils) {types : List DevType}
    (hown : types ⊆ ownTypes) (hnodup : (types ++ done).Nodup)
    (hbad : ¬ ∀ type ∈ types, Requested utils type → RequestedAtDefault utils type) :
    Foundation.Raises (Progress utils done) (types.forM (setupOwn env)) .keyError := by
  induction types generalizing done with
  | nil => exact absurd (fun _ hmem => absurd hmem List.not_mem_nil) hbad
  | cons type rest ih =>
    rw [List.cons_append, List.nodup_cons] at hnodup
    have hnew : type ∉ done := fun hmem => hnodup.1 (List.mem_append_right _ hmem)
    by_cases hgood : Requested utils type → RequestedAtDefault utils type
    · refine (triple_setupOwn henv hutils (hown List.mem_cons_self) hgood hnew).bind_raises
        fun _ => ih (fun other hmem => hown (List.mem_cons_of_mem _ hmem)) ?_ fun hall => ?_
      · exact List.perm_middle.symm.nodup (List.nodup_cons.mpr hnodup)
      · refine hbad fun other hmem => ?_
        rcases List.mem_cons.mp hmem with rfl | hrest
        · exact hgood
        · exact hall other hrest
    · rw [Classical.not_imp] at hgood
      exact (raises_setupOwn hutils hgood.1 hgood.2).bind

end

end OvirtArt.Storage.Wrapper
