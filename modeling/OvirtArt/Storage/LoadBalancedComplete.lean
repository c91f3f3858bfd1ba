import OvirtArt.Storage.LoadBalancedSetup
import OvirtArt.Storage.SetupLeaks

set_option autoImplicit false

/-!
# When the setup with load balancing is complete

The setup is complete exactly if every type is requested under its default path as well,
and the iso and export domains are on a type that is.

The condition is on the configuration and on the types that are requested.  That servers are found
and creations succeed is what the claim of completeness supposes, and is stated as a property of
the environment.
-/

namespace OvirtArt.Storage.Wrapper

open OvirtArt.Foundation

/-! ## The iso and export domains -/

/-- The types of the iso and export domains. -/
def isoExportTypes : List DevType := [.nas .isoDomain, .nas .exportDomain]

/-- The manager of the iso and export domains is one for a type that is requested under its
default path. -/
def IsoExportServed (utils : StorageUtils) : Prop :=
  ∃ type : DevType, utils.isoExportDomainNas = some type.name ∧ RequestedAtDefault utils type

section

variable {env : Environment} {utils s : StorageUtils} {done : List DevType}

theorem triple_isoExport (henv : Serves env) (hutils : LoadBalanced utils)
    (hserved : IsoExportServed utils) :
    Triple (Progress utils ownTypes) (storageSetupISOandExportDomains env)
      (fun _ => Progress utils (isoExportTypes ++ ownTypes)) fun _ => False := by
  obtain ⟨type, hname, hdefault⟩ := hserved
  refine triple_get_bind fun before => ?_
  rintro s ⟨rfl, hprogress⟩
  have hsame : s.isoExportDomainNas = some type.name := by
    rw [hprogress.settings.isoExportDomainNas, hname]
  have hfsType : s.fsType = .ok type.name := by
    unfold StorageUtils.fsType
    rw [hsame]
  rw [hfsType]
  refine triple_served henv hutils hdefault (fun other hother => ?_) (by decide)
    (fun t manager ht _ hserver => ?_) s hprogress
  · rcases List.mem_cons.mp hother with rfl | hother
    · exact hname
    · rw [List.mem_singleton.mp hother]
      exact hname
  · have hsections : Triple (Advances t)
        (do
          setupNasSections env .isoDomain type.name
          setupNasSections env .exportDomain type.name)
        (fun _ u => Advances t u ∧ ∀ other ∈ isoExportTypes, ∀ storageSection,
          sectionTotal t (.net other) storageSection ≠ none →
            recordedIds u (.net other) storageSection ≠ none) fun _ => False := by
      refine (works_setupNasSections henv hserver).bind fun _ => ?_
      rintro u ⟨hu, hiso⟩
      have hlookup : u.storageServers.lookup type.name = some manager := by
        rw [hu.storageServers, hserver]
      refine (works_setupNasSections henv hlookup).imp (fun _ h => h) (fun _ v hv => ?_)
        (fun _ h => h) u (Advances.refl u)
      refine ⟨hu.trans hv.1, fun other hother storageSection hsome => ?_⟩
      rcases List.mem_cons.mp hother with rfl | hother
      · exact hv.1.recorded _ _ (hiso storageSection hsome)
      · obtain rfl := List.mem_singleton.mp hother
        refine hv.2 storageSection ?_
        rw [hu.settings.totals]
        exact hsome
    exact hsections

theorem name_of_ofName {name : String} {type : DevType} (h : DevType.ofName name = some type) :
    type.name = name := by
  unfold DevType.ofName at h
  simpa using List.find?_some h

/-- Without a type for them the iso and export domains are skipped, or the setup stops. -/
theorem run_isoExport_of_not_served (hutils : LoadBalanced utils)
    (hserved : ¬ IsoExportServed utils) (hprogress : Progress utils done s) :
    (storageSetupISOandExportDomains env).run s = .error .keyError s ∨
      (storageSetupISOandExportDomains env).run s = .ok () s := by
  have hon : s.loadBalancing ≠ "" := by
    rw [hprogress.loadBalancing]
    exact hutils.loadBalancing_ne
  have hsame := hprogress.settings.isoExportDomainNas
  unfold storageSetupISOandExportDomains
  rw [EStateM.run_bind, EStateM.run_get]
  simp only
  cases hname : utils.isoExportDomainNas with
  | none =>
    have hfsType : s.fsType = .error .keyError := by
      unfold StorageUtils.fsType
      rw [hsame, hname]
    rw [hfsType]
    exact Or.inl (run_getStorageServers_error hon rfl)
  | some fsType =>
    have hfsType : s.fsType = .ok fsType := by
      unfold StorageUtils.fsType
      rw [hsame, hname]
    rw [hfsType]
    cases htype : DevType.ofName fsType with
    | none =>
      have hnone : ∀ type, Requested utils type → type.name ≠ fsType := by
        rintro type _ rfl
        rw [ofName_name] at htype
        cases htype
      by_cases hlocal : fsType = "local" ∧ s.localStorages.keys = []
      · refine Or.inr (run_getStorageServers_skip hutils hprogress ?_ hnone)
        unfold StorageUtils.isRequested
        rw [htype]
        simp only [if_pos hlocal]
      · refine Or.inl (run_getStorageServers_error hon ?_)
        change s.isRequested fsType = .error .keyError
        unfold StorageUtils.isRequested
        rw [htype]
        simp only [if_neg hlocal]
    | some type =>
      obtain rfl := name_of_ofName htype
      have hmissing : ¬ RequestedAtDefault utils type := fun hdefault =>
        hserved ⟨type, hname, hdefault⟩
      by_cases hrequested : Requested utils type
      · refine Or.inl (run_getStorageServers_error hon ?_)
        refine isRequested_of_missing (hprogress.requested_iff.mpr hrequested) ?_
        unfold RequestedAtDefault at hmissing ⊢
        rw [hprogress.settings.totals]
        exact hmissing
      · refine Or.inr (run_getStorageServers_skip hutils hprogress
          (isRequested_of_not_requested fun h => hrequested (hprogress.requested_iff.mp h)) ?_)
        intro other hother hsameName
        rw [name_injective hsameName] at hother
        exact hrequested hother

theorem any_total_iff (hutils : LoadBalanced utils) (hsettings : SameSettings utils s)
    (type : DevType) :
    ((s.storages type).entries.any fun params => 0 < params.2.total) = true ↔
      Requested utils type := by
  rw [List.any_eq_true]
  constructor
  · rintro ⟨params, hmem, _⟩
    exact ⟨params.1, by rw [sectionTotal_of_mem type hsettings hmem]; simp⟩
  · rintro ⟨storageSection, hsome⟩
    obtain ⟨total, htotal⟩ := Option.ne_none_iff_exists'.mp hsome
    have hpos := hutils.total_pos _ _ _ htotal
    rw [← hsettings.totals] at htotal
    obtain ⟨params, hparams, rfl⟩ := Option.map_eq_some_iff.mp htotal
    exact ⟨⟨storageSection, params⟩, AList.mem_lookup_iff.mp hparams, decide_eq_true hpos⟩

/-- The iso and export domains are to be created if some are requested. -/
theorem createIsoExp_iff (hutils : LoadBalanced utils) (hsettings : SameSettings utils s) :
    s.createIsoExp = true ↔ ∃ type ∈ isoExportTypes, Requested utils type := by
  unfold StorageUtils.createIsoExp
  rw [List.any_eq_true]
  simp only [any_total_iff hutils hsettings]
  unfold isoExportTypes
  simp only [List.mem_cons, List.not_mem_nil, or_false, exists_eq_or_imp, exists_eq_left]

/-! ## The devices of a section -/

/-- The devices that were created for a section. -/
def createdAt (calls : List Call) (type : DevType) (storageSection : String) : List Made :=
  (created calls).filter fun made =>
    made.slot.kind = .net type ∧ made.slot.storageSection = storageSection

/-- A section has as many devices as it asks for, on the server whose address it was given. -/
def Provided (s : StorageUtils) (type : DevType) (storageSection : String) (total : Nat) : Prop :=
  ∃ host, ((s.storages type).lookup storageSection).map SectionParams.ip = some (some host) ∧
    (createdAt s.calls type storageSection).length = total ∧
      ∀ made ∈ createdAt s.calls type storageSection, made.host = host

variable {storageSection : String}

theorem mem_createdAt {calls : List Call} {type : DevType} {made : Made} :
    made ∈ createdAt calls type storageSection ↔ ∃ call ∈ calls, call.onServer = true ∧
      call.At (.net type) storageSection ∧ call.device = made := by
  unfold createdAt created
  rw [List.mem_filter, List.mem_map]
  constructor
  · rintro ⟨⟨call, hcall, rfl⟩, hat⟩
    obtain ⟨hmem, hon⟩ := List.mem_filter.mp hcall
    have hslot : call.device.slot.kind = .net type ∧
        call.device.slot.storageSection = storageSection := by simpa using hat
    exact ⟨call, hmem, hon, hslot, rfl⟩
  · rintro ⟨call, hmem, hon, hat, rfl⟩
    exact ⟨⟨call, List.mem_filter.mpr ⟨hmem, hon⟩, rfl⟩, decide_eq_true hat⟩

/-- A recorded section with a server has all its devices there. -/
theorem Books.provided (h : Books utils none s) {type : DevType} {total : Nat}
    (hassigned : Assigned s type storageSection)
    (htotal : sectionTotal utils (.net type) storageSection = some total) :
    Provided s type storageSection total := by
  obtain ⟨hrecorded, name, manager, hname, hlookup, hip⟩ := hassigned
  obtain ⟨ids, hids⟩ := Option.ne_none_iff_exists'.mp hrecorded
  obtain ⟨hbooked, hlength⟩ := h.booked _ _ ids (by simp) hids
  rw [htotal] at hlength
  obtain rfl := Option.some.inj hlength
  refine ⟨manager.host, hip, ?_, fun made hmade => ?_⟩
  · have hslots : ((createdAt s.calls type storageSection).map Made.slot).Perm
        ((List.range ids.length).map fun index => ⟨.net type, storageSection, index⟩) := by
      have hdistinct : ((createdAt s.calls type storageSection).map Made.slot).Nodup := by
        have hsub : (createdAt s.calls type storageSection).Sublist (s.calls.map Call.device) :=
          List.filter_sublist.trans (List.filter_sublist.map Call.device)
        have hslots := hsub.map Made.slot
        rw [List.map_map] at hslots
        exact h.distinct.sublist hslots
      rw [List.perm_ext_iff_of_nodup hdistinct
        (List.nodup_range.map fun index other heq => congrArg Slot.index heq)]
      intro slot
      rw [List.mem_map, List.mem_map]
      constructor
      · rintro ⟨made, hmade, rfl⟩
        obtain ⟨call, hcall, _, hat, rfl⟩ := mem_createdAt.mp hmade
        have hid := (hbooked.returned call hcall hat).2
        refine ⟨call.device.slot.index,
          List.mem_range.mpr (List.getElem?_eq_some_iff.mp hid).1, ?_⟩
        rw [← hat.1, ← hat.2]
      · rintro ⟨index, hindex, rfl⟩
        obtain ⟨call, hcall, hslot⟩ := hbooked.called index _
          (List.getElem?_eq_getElem (List.mem_range.mp hindex))
        have hat : call.At (.net type) storageSection := ⟨by rw [hslot], by rw [hslot]⟩
        have hreturned := (hbooked.returned call hcall hat).1
        have hon := h.sound call hcall hreturned (by rw [hslot]; simp)
        exact ⟨call.device, mem_createdAt.mpr ⟨call, hcall, hon, hat, rfl⟩, hslot⟩
    have hlengths := hslots.length_eq
    rw [List.length_map, List.length_map, List.length_range] at hlengths
    exact hlengths
  · obtain ⟨call, hcall, _, hat, rfl⟩ := mem_createdAt.mp hmade
    have hserver := h.servers call hcall (hbooked.returned call hcall hat).1
    unfold OnItsServer at hserver
    rw [hat.1] at hserver
    obtain ⟨hmanager, found, hfound, hhost, _⟩ := hserver
    rw [hname] at hmanager
    rw [← Option.some.inj hmanager, hlookup] at hfound
    rw [hhost, ← Option.some.inj hfound]

/-- A section without calls has no devices. -/
theorem not_provided_of_idle {sections : Kind → String → Prop} (h : Idle sections s)
    {type : DevType} (hsection : sections (.net type) storageSection) {total : Nat}
    (htotal : 0 < total) : ¬ Provided s type storageSection total := by
  rintro ⟨host, _, hlength, _⟩
  rw [← hlength] at htotal
  obtain ⟨made, hmade⟩ := List.exists_mem_of_length_pos htotal
  obtain ⟨call, hcall, _, hat, _⟩ := mem_createdAt.mp hmade
  exact (h _ _ hsection).2 call hcall hat

/-! ## The whole setup -/

/-- The setup raises no `KeyError` and provides all sections with their devices. -/
structure SetUpCompletely (env : Environment) (utils : StorageUtils) : Prop where
  noKeyError : ∀ t, (storageSetup env).run utils ≠ .error .keyError t
  provided : ∀ type storageSection total,
    sectionTotal utils (.net type) storageSection = some total → 0 < total →
      Provided (after (storageSetup env) utils) type storageSection total

/-- Every type is requested under its default path as well, and the iso and export domains
are on such a type. -/
structure DefaultPaths (utils : StorageUtils) : Prop where
  own : ∀ type ∈ ownTypes, Requested utils type → RequestedAtDefault utils type
  isoExport : (∃ type ∈ isoExportTypes, Requested utils type) → IsoExportServed utils

theorem run_storageSetup_none (h : utils.storageType = "none") :
    (storageSetup env).run utils =
      ((do
        ownTypes.forM (setupOwn env)
        storageSetupDAS env) >>= fun _ => do
          let self ← get
          if self.createIsoExp then storageSetupISOandExportDomains env else pure ()).run
        utils := by
  unfold storageSetup
  rw [EStateM.run_bind, EStateM.run_get]
  simp only [h, setupByType_none]

theorem LoadBalanced.fresh (h : LoadBalanced utils) : LoadBalanced utils.fresh :=
  ⟨h.storageType, h.loadBalancing, h.vdsData, h.total_pos⟩

theorem progress_fresh (utils : StorageUtils) : Progress utils.fresh [] utils.fresh where
  settings := SameSettings.refl _
  loadBalancing := rfl
  vdsData := rfl
  servers name hname := absurd hname (AList.notMem_empty name)
  assigned _ hmem := absurd hmem List.not_mem_nil

/-- With a default path for each type, only the iso and export domains are left. -/
theorem exists_run_owns (henv : Serves env) (hutils : LoadBalanced utils)
    (hown : ∀ type ∈ ownTypes, Requested utils type → RequestedAtDefault utils type) :
    ∃ t, Progress utils.fresh ownTypes t ∧ Ready utils.fresh isoExportKinds t ∧
      (storageSetup env).run utils.fresh =
        (if t.createIsoExp then storageSetupISOandExportDomains env else pure ()).run t := by
  have hprogress : Triple (Progress utils.fresh [])
      (do
        ownTypes.forM (setupOwn env)
        storageSetupDAS env)
      (fun _ => Progress utils.fresh ownTypes) fun _ => False := by
    refine (triple_setupOwns henv hutils.fresh (List.Subset.refl _) (by decide)
      hown).bind fun _ => ?_
    intro s hs
    rw [List.append_nil] at hs
    exact (works_storageSetupDAS henv s).imp (fun _ h => h) (fun _ _ h => hs.advances h)
      (fun _ h => h) s (Advances.refl s)
  have hready := @triple_setupByType env utils.fresh "none" ""
  rw [setupByType_none] at hready
  have hboth := (hprogress.and hready) utils.fresh ⟨progress_fresh utils, ready_fresh utils⟩
  have hrun := @run_storageSetup_none env utils.fresh hutils.storageType
  rw [EStateM.run_bind] at hrun
  cases hfirst : (do
      ownTypes.forM (setupOwn env)
      storageSetupDAS env : Action Unit).run utils.fresh with
  | ok a t =>
    rw [hfirst] at hboth hrun
    exact ⟨t, hboth.1, hboth.2, hrun⟩
  | error e t =>
    rw [hfirst] at hboth
    exact hboth.1.elim

/-- A type that is not requested under its default path stops the setup. -/
theorem raises_storageSetup (henv : Serves env) (hutils : LoadBalanced utils)
    (hbad : ¬ ∀ type ∈ ownTypes, Requested utils type → RequestedAtDefault utils type) :
    ∃ t, (storageSetup env).run utils.fresh = .error .keyError t := by
  rw [run_storageSetup_none hutils.fresh.storageType]
  exact (raises_setupOwns henv hutils.fresh (List.Subset.refl _) (by decide) hbad).bind.bind
    utils.fresh (progress_fresh utils)

theorem defaultPaths_of_complete (henv : Serves env) (hutils : LoadBalanced utils)
    (h : SetUpCompletely env utils.fresh) : DefaultPaths utils := by
  have hown : ∀ type ∈ ownTypes, Requested utils type → RequestedAtDefault utils type := by
    by_contra hbad
    obtain ⟨t, hrun⟩ := raises_storageSetup henv hutils hbad
    exact h.noKeyError t hrun
  refine ⟨hown, fun hrequested => ?_⟩
  by_contra hserved
  obtain ⟨t, hprogress, hready, hrun⟩ := exists_run_owns henv hutils hown
  have hcreate : t.createIsoExp = true :=
    (createIsoExp_iff hutils.fresh hprogress.settings).mpr hrequested
  rw [hcreate, if_pos rfl] at hrun
  rcases @run_isoExport_of_not_served env _ _ _ hutils.fresh hserved hprogress with
    hraises | hskips
  · exact h.noKeyError t (hrun.trans hraises)
  · obtain ⟨type, hmem, storageSection, hsome⟩ := hrequested
    obtain ⟨total, htotal⟩ := Option.ne_none_iff_exists'.mp hsome
    have hpos := hutils.total_pos _ _ _ htotal
    have hprovided := h.provided type storageSection total htotal hpos
    rw [after_eq_of_ok (hrun.trans hskips)] at hprovided
    refine not_provided_of_idle hready.idle ?_ hpos hprovided
    rcases List.mem_cons.mp hmem with rfl | hmem
    · decide
    · rw [List.mem_singleton.mp hmem]
      decide

/-- With default paths the setup returns, and all requested types were set up. -/
theorem exists_run_of_defaultPaths (henv : Serves env) (hutils : LoadBalanced utils)
    (h : DefaultPaths utils) :
    ∃ t done, (storageSetup env).run utils.fresh = .ok () t ∧ Progress utils.fresh done t ∧
      ∀ type, Requested utils type → type ∈ done := by
  obtain ⟨t, hprogress, hready, hrun⟩ := exists_run_owns henv hutils h.own
  have hall : ∀ type : DevType, type ∈ ownTypes ∨ type ∈ isoExportTypes := by
    rintro (nas | san)
    · cases nas <;> decide
    · cases san <;> decide
  by_cases hrequested : ∃ type ∈ isoExportTypes, Requested utils type
  · rw [(createIsoExp_iff hutils.fresh hprogress.settings).mpr hrequested, if_pos rfl] at hrun
    have hiso := triple_isoExport henv hutils.fresh (h.isoExport hrequested) t hprogress
    cases hlast : (storageSetupISOandExportDomains env).run t with
    | ok a u =>
      rw [hlast] at hiso
      exact ⟨u, _, hrun.trans hlast, hiso, fun type _ => List.mem_append.mpr (hall type).symm⟩
    | error e u =>
      rw [hlast] at hiso
      exact hiso.elim
  · have hcreate : t.createIsoExp = false := by
      rw [← Bool.not_eq_true]
      exact fun hcreate => hrequested
        ((createIsoExp_iff hutils.fresh hprogress.settings).mp hcreate)
    rw [hcreate] at hrun
    refine ⟨t, _, hrun, hprogress, fun type htype => (hall type).resolve_right fun hmem => ?_⟩
    exact hrequested ⟨type, hmem, htype⟩

theorem setUpCompletely_iff (henv : Serves env) (hutils : LoadBalanced utils) :
    SetUpCompletely env utils.fresh ↔ DefaultPaths utils := by
  refine ⟨defaultPaths_of_complete henv hutils, fun h => ?_⟩
  obtain ⟨t, done, hrun, hprogress, hdone⟩ := exists_run_of_defaultPaths henv hutils h
  refine ⟨fun u hraises => ?_, fun type storageSection total htotal _ => ?_⟩
  · rw [hrun] at hraises
    cases hraises
  · have hsome : sectionTotal utils.fresh (.net type) storageSection ≠ none := by
      rw [htotal]
      simp
    refine (books_storageSetup env utils).provided ?_ htotal
    rw [after_eq_of_ok hrun]
    exact hprogress.assigned type (hdone type ⟨storageSection, hsome⟩) storageSection hsome

/-! ## The configuration -/

/-- The attributes before the configuration is read. -/
def StorageUtils.blank (self : StorageUtils) : StorageUtils :=
  { self.fresh with
    storages := fun _ => ∅
    localStorages := ∅ }

/-- What is read asks for devices only in sections with a number of them. -/
structure Configured (base : StorageUtils) (mode : String) (s : StorageUtils) : Prop where
  fresh : s.fresh = s
  storageType : s.storageType = base.storageType
  vdsData : s.vdsData = base.vdsData
  loadBalancing : s.loadBalancing = mode
  total_pos : ∀ type storageSection total,
    sectionTotal s (.net type) storageSection = some total → 0 < total

variable {base t : StorageUtils} {mode : String} {storageRoles : String → Option String}
  {confSection : ConfSection} {targetPath : Option String} {type : DevType}

/-- What is found after an insertion is what was inserted, or what was there before. -/
theorem lookup_update_insert {storages : DevType → Sections SectionParams} {type other : DevType}
    {path : String} {new params : SectionParams} {P : Prop}
    (h : (Function.update storages type ((storages type).insert path new) other).lookup
      storageSection = some params) (hnew : params = new → P)
    (hold : (storages other).lookup storageSection = some params → P) : P := by
  by_cases htype : other = type
  · subst htype
    rw [Function.update_self] at h
    by_cases hpath : storageSection = path
    · subst hpath
      rw [AList.lookup_insert] at h
      exact hnew (Option.some.inj h).symm
    · rw [AList.lookup_insert_ne hpath] at h
      exact hold h
  · rw [Function.update_of_ne htype] at h
    exact hold h

theorem Configured.addDevType (h : Configured base mode s)
    (hadd : addDevType env storageRoles confSection targetPath s type = .ok t) :
    Configured base mode t := by
  unfold OvirtArt.Storage.Wrapper.addDevType at hadd
  obtain ⟨server, _, hadd⟩ := bind_eq_ok_iff.mp hadd
  simp only at hadd
  split at hadd
  · rename_i hboth
    obtain rfl := Except.ok.inj hadd
    have hpos : 0 < confSection.devices type := by
      simpa using (Bool.and_eq_true_iff.mp hboth).2
    refine ⟨?_, h.storageType, h.vdsData, h.loadBalancing,
      fun other storageSection total htotal => ?_⟩
    · rw [← h.fresh]
      rfl
    · obtain ⟨params, hparams, rfl⟩ := Option.map_eq_some_iff.mp htotal
      refine lookup_update_insert hparams (fun hnew => ?_) fun hold => ?_
      · rw [hnew]
        exact Int.lt_toNat.mpr hpos
      · exact h.total_pos other storageSection _ (congrArg (Option.map SectionParams.total) hold)
  · obtain rfl := Except.ok.inj hadd
    exact h

theorem Configured.getStorageConfData {vds vdsPassw : String} (h : Configured base mode s)
    (hread : getStorageConfData env storageRoles vds vdsPassw targetPath confSection s = .ok t) :
    Configured base mode t := by
  unfold OvirtArt.Storage.Wrapper.getStorageConfData at hread
  obtain ⟨u, hfold, hread⟩ := bind_eq_ok_iff.mp hread
  have hu : Configured base mode u :=
    foldlM_rule (R := fun _ s t => Configured base mode s → Configured base mode t)
      (fun _ h => h) (fun hstep hrest h => hrest (h.addDevType hstep)) hfold h
  split at hread
  · obtain rfl := Except.ok.inj hread
    exact hu
  · obtain rfl := Except.ok.inj hread
    refine ⟨?_, hu.storageType, hu.vdsData, hu.loadBalancing, hu.total_pos⟩
    rw [← hu.fresh]
    rfl

theorem configured_readStorageConf {vds vdsPassw : String} {conf : StorageConf}
    (hread : readStorageConf env storageRoles vds vdsPassw conf base.blank = .ok t) :
    Configured base conf.loadBalancingMode t := by
  have hblank : Configured base conf.loadBalancingMode
      { base.blank with loadBalancing := conf.loadBalancingMode } :=
    ⟨rfl, rfl, rfl, rfl, fun _ _ _ htotal => by cases htotal⟩
  unfold readStorageConf at hread
  obtain ⟨u, hmain, hfold⟩ := bind_eq_ok_iff.mp hread
  exact foldlM_rule
    (R := fun _ s t => Configured base conf.loadBalancingMode s →
      Configured base conf.loadBalancingMode t)
    (fun _ h => h) (fun hstep hrest h => hrest (h.getStorageConfData hstep)) hfold
    (hblank.getStorageConfData hmain)

/-- With storage type none and load balancing, on servers that answer, the setup of what a
configuration asks for is complete exactly if the default paths are there. -/
theorem storageSetup_complete_iff (henv : Serves env) {vds vdsPassw : String} {conf : StorageConf}
    (hmode : conf.loadBalancing = some "capacity" ∨ conf.loadBalancing = some "random")
    (htype : base.storageType = "none") (hvds : base.vdsData ≠ [])
    (hread : readStorageConf env storageRoles vds vdsPassw conf base.blank = .ok utils) :
    SetUpCompletely env utils ↔ DefaultPaths utils := by
  have hconfigured := configured_readStorageConf hread
  have hbalanced : conf.loadBalancingMode = "capacity" ∨ conf.loadBalancingMode = "random" := by
    unfold StorageConf.loadBalancingMode
    rcases hmode with hmode | hmode
    · rw [hmode]
      exact Or.inl (by decide)
    · rw [hmode]
      exact Or.inr (by decide)
  have hutils : LoadBalanced utils := by
    refine ⟨hconfigured.storageType.trans htype, ?_, ?_, hconfigured.total_pos⟩
    · rw [hconfigured.loadBalancing]
      exact hbalanced
    · rw [hconfigured.vdsData]
      exact hvds
  have hiff := setUpCompletely_iff henv hutils
  rw [hconfigured.fresh] at hiff
  exact hiff

end

/-! ## Sections without a default path -/

/-- Servers that are found and on which everything can be created. -/
def goodServers : Environment where
  getIpAddressByHostName name := name
  getStorageServer stype := some ⟨"10.0.0.1", stype⟩
  connect name ip := ip.map fun host => ⟨host, name⟩
  createDevice slot := some s!"/exports/group_{slot.index}"
  blockCalls _ :=
    ⟨some ⟨"iqn.target", "uuid", "serial"⟩, fun _ => some [], fun _ _ => true, true, true⟩
  createLocalStorage _ := .created
  timeStamp _ := "0"
  hostGroupsAtCleanup _ _ := some ["group"]

theorem serves_goodServers : Serves goodServers :=
  ⟨fun _ => rfl, fun _ => rfl, fun _ => rfl, fun _ _ => rfl, fun _ _ _ => rfl, fun _ => rfl,
    fun _ => rfl, fun _ h => by cases h⟩

/-- What `__init__` knows before it reads the sections. -/
def noStorages : StorageUtils where
  storageType := "none"
  realStorageType := "mixed"
  loadBalancing := ""
  isoExportDomainNas := some "nfs"
  hostGroup := "group"
  vdsData := [("10.0.0.9", "iqn.host")]
  storages _ := ∅
  localStorages := ∅

/-- One nfs device, in a sub-section or in the section itself. -/
def oneNfs (inSubSection : Bool) : StorageConf where
  main := { devices := fun type => if type = .nas .nfs ∧ inSubSection = false then 1 else 0 }
  subSections :=
    if inSubSection then
      AList.singleton "PARAMETERS.extra_domain"
        { devices := fun type => if type = .nas .nfs then 1 else 0 }
    else ∅
  loadBalancing := some "random"

/-- The attributes after this configuration was read. -/
def configuredBy (conf : StorageConf) : StorageUtils :=
  match readStorageConf goodServers (fun _ => none) "10.0.0.9" "secret" conf noStorages.blank with
  | .ok utils => utils
  | .error _ => noStorages

theorem readStorageConf_oneNfs (inSubSection : Bool) :
    readStorageConf goodServers (fun _ => none) "10.0.0.9" "secret" (oneNfs inSubSection)
      noStorages.blank = .ok (configuredBy (oneNfs inSubSection)) := by
  have hok : (readStorageConf goodServers (fun _ => none) "10.0.0.9" "secret"
      (oneNfs inSubSection) noStorages.blank).isOk = true := by
    cases inSubSection <;> decide
  unfold configuredBy
  cases hread : readStorageConf goodServers (fun _ => none) "10.0.0.9" "secret"
      (oneNfs inSubSection) noStorages.blank with
  | ok utils => rfl
  | error exception =>
    rw [hread] at hok
    cases hok

theorem storageSetup_complete_iff_oneNfs :
    SetUpCompletely goodServers (configuredBy (oneNfs false)) ↔
      DefaultPaths (configuredBy (oneNfs false)) :=
  storageSetup_complete_iff serves_goodServers (Or.inr rfl) rfl (by decide)
    (readStorageConf_oneNfs false)

/-- A device that is requested in a sub-section only stops the setup with a `KeyError`. -/
theorem sub_section_not_complete :
    ¬ SetUpCompletely goodServers (configuredBy (oneNfs true)) := by
  intro h
  have hraises : (match (storageSetup goodServers).run (configuredBy (oneNfs true)) with
      | .error .keyError _ => true
      | _ => false) = true := by decide
  cases hrun : (storageSetup goodServers).run (configuredBy (oneNfs true)) with
  | ok a t =>
    rw [hrun] at hraises
    cases hraises
  | error exception t =>
    cases exception with
    | keyError => exact h.noKeyError t hrun
    | stopIteration =>
      rw [hrun] at hraises
      cases hraises
    | indexError =>
      rw [hrun] at hraises
      cases hraises
    | failed =>
      rw [hrun] at hraises
      cases hraises

end OvirtArt.Storage.Wrapper
