import OvirtArt.Storage.SetupRecords
import OvirtArt.Storage.UpdateConfLists

set_option autoImplicit false

/-!
# The setup of all storage

Whatever the storage type, with and without load balancing, and wherever the setup stops,
the records say of every section that it was set up or given up.

A run is a setup and the cleanup after it, with any environment.  This is where the lemmas on
single sections are put together in the order in which the types are gone through.
-/

namespace OvirtArt.Storage.Wrapper

open OvirtArt.Foundation

section

variable {env : Environment} {s₀ s : StorageUtils} {left : List Kind}

/-! ## Servers for the sections -/

theorem storages_assignIp (host : String) (type : DevType) :
    (assignIp host s type).storages type =
      mapValues (fun _ params => { params with ip := some host }) (s.storages type) :=
  Function.update_self _ _ _

theorem storages_assignIp_of_ne {type other : DevType} (h : other ≠ type) (host : String) :
    (assignIp host s type).storages other = s.storages other :=
  Function.update_of_ne h _ _

/-- The sections of all types are the same but for their addresses. -/
theorem lookup_assignIp {β : Type} (read : SectionParams → β)
    (hread : ∀ params host, read { params with ip := some host } = read params) (host : String)
    (type other : DevType) (storageSection : String) :
    (((assignIp host s type).storages other).lookup storageSection).map read =
      ((s.storages other).lookup storageSection).map read := by
  by_cases htype : other = type
  · subst htype
    rw [storages_assignIp, lookup_mapValues, Option.map_map]
    exact congrArg (fun f => Option.map f _) (funext fun params => hread params host)
  · rw [storages_assignIp_of_ne htype]

theorem isSpecificAt_assignIp (host : String) (type other : DevType) (storageSection : String) :
    isSpecificAt (assignIp host s type) other storageSection =
      isSpecificAt s other storageSection := by
  have hread := lookup_assignIp (s := s) SectionParams.isSpecific (fun _ _ => rfl) host type other
    storageSection
  unfold isSpecificAt
  cases hold : (s.storages other).lookup storageSection with
  | none =>
    rw [hold, Option.map_none, Option.map_eq_none_iff] at hread
    rw [hread]
  | some params =>
    rw [hold, Option.map_some, Option.map_eq_some_iff] at hread
    obtain ⟨found, hfound, hsame⟩ := hread
    rw [hfound]
    exact hsame

theorem within_assignIp (host : String) (type : DevType) :
    Within none s (assignIp host s type) where
  settings := by
    refine ⟨rfl, rfl, fun kind storageSection => ?_, rfl⟩
    cases kind with
    | net other => exact lookup_assignIp _ (fun _ _ => rfl) host type other storageSection
    | localFs => rfl
  recorded kind storageSection _ := by
    rcases kind with (nas | san) | _
    · rfl
    · unfold recordedIds
      simp only [isSpecificAt_assignIp]
      rfl
    · rfl
  servers device hdevice := by
    unfold OnItsServer at hdevice ⊢
    cases hkind : device.slot.kind with
    | net other =>
      rw [hkind] at hdevice
      obtain ⟨hname, manager, hlookup, hhost, hspecific⟩ := hdevice
      refine ⟨hname, manager, hlookup, hhost, fun san hsan => ?_⟩
      rw [isSpecificAt_assignIp]
      exact hspecific san hsan
    | localFs =>
      rw [hkind] at hdevice
      exact hdevice

theorem triple_assignServer (stype : String) (dtypes : List DevType) :
    Triple (Ready s₀ left) (assignServer env stype dtypes) (fun _ => Ready s₀ left)
      (Books s₀ none) := by
  have hassign : ∀ host s, Ready s₀ left s → Ready s₀ left (dtypes.foldl (assignIp host) s) := by
    intro host
    induction dtypes with
    | nil => exact fun _ h => h
    | cons type rest ih => exact fun s h => ih _ (h.within (within_assignIp host type) rfl)
  refine Triple.bind (Q := fun _ => Ready s₀ left) ?_ fun manager => triple_modify (hassign _)
  refine triple_get_bind fun before => ?_
  rintro s ⟨rfl, hready⟩
  cases hlookup : s.storageServers.lookup stype with
  | some manager => exact hready
  | none =>
    cases hselect : selectServer env s.loadBalancing stype with
    | error exception => exact hready.books
    | ok manager =>
      exact hready.within (within_withServers (extends_insert hlookup manager) none) rfl

/-- The decorator keeps the records for what it decorates, or skips it. -/
theorem triple_getStorageServers {stype : Except StorageError String} {dtypes : List DevType}
    {f : Action Unit} {fewer : List Kind}
    (hf : Triple (Ready s₀ left) f (fun _ => Ready s₀ fewer) (Books s₀ none))
    (hsub : fewer ⊆ left) :
    Triple (Ready s₀ left) (getStorageServers env stype dtypes f) (fun _ => Ready s₀ fewer)
      (Books s₀ none) := by
  refine triple_get_bind fun before => ?_
  rintro s ⟨rfl, hready⟩
  by_cases hoff : s.loadBalancing = ""
  · rw [if_pos hoff]
    exact hf s hready
  · rw [if_neg hoff]
    refine Triple.bind (P := Ready s₀ left) (Q := fun _ => Ready s₀ left)
      (triple_fromExcept (fun _ _ h => h) fun _ h => h.books) (fun stype => ?_) s hready
    refine Triple.bind (Q := fun _ => Ready s₀ left)
      (triple_fromExcept (fun _ _ h => h) fun _ h => h.books) fun requested => ?_
    have hlast : Triple (Ready s₀ left)
        (do
          let self ← get
          if stype ∈ self.storageServers then f else pure ())
        (fun _ => Ready s₀ fewer) (Books s₀ none) := by
      refine triple_get_bind fun before => ?_
      rintro t ⟨rfl, ht⟩
      by_cases hserver : stype ∈ t.storageServers
      · rw [if_pos hserver]
        exact hf t ht
      · rw [if_neg hserver]
        exact ht.mono hsub
    cases requested with
    | true => exact (triple_assignServer stype dtypes).bind fun _ => hlast
    | false => exact hlast

/-! ## All storage types -/

/-- The kind of a type of directories. -/
abbrev nasKind (type : NasType) : Kind := .net (.nas type)

/-- The kind of the LUNs of a type. -/
abbrev sanKind (type : SanType) : Kind := .net (.san type)

/-- The kinds that are set up after all others. -/
def isoExportKinds : List Kind := [nasKind .isoDomain, nasKind .exportDomain]

theorem managerName_of_mem {type : NasType} (h : type ∈ nasStorageTypes) :
    managerName s₀ (.nas type) = some type.name := by
  cases type with
  | gluster => rfl
  | nfs => rfl
  | pnfs => rfl
  | isoDomain => exact absurd h (by decide)
  | exportDomain => exact absurd h (by decide)

theorem triple_storageSetupNAS {type : NasType} (htype : type ∈ nasStorageTypes)
    (hkind : nasKind type ∉ left) :
    Triple (Ready s₀ (nasKind type :: left)) (storageSetupNAS env type) (fun _ => Ready s₀ left)
      (Books s₀ none) :=
  triple_getStorageServers (triple_setupNasSections (managerName_of_mem htype) hkind)
    (List.subset_cons_self _ _)

theorem triple_storageSetupSAN (type : SanType) (hkind : sanKind type ∉ left) :
    Triple (Ready s₀ (sanKind type :: left)) (storageSetupSAN env type) (fun _ => Ready s₀ left)
      (Books s₀ none) :=
  triple_getStorageServers (triple_setupSanSections type hkind) (List.subset_cons_self _ _)

/-- Distinct types are set up one after the other. -/
theorem triple_forM_kinds {γ : Type} {kindOf : γ → Kind} {setup : γ → Action Unit} {types : List γ}
    (hsetup : ∀ type ∈ types, ∀ left, kindOf type ∉ left →
      Triple (Ready s₀ (kindOf type :: left)) (setup type) (fun _ => Ready s₀ left) (Books s₀ none))
    (hnodup : (types.map kindOf ++ left).Nodup) :
    Triple (Ready s₀ (types.map kindOf ++ left)) (types.forM setup) (fun _ => Ready s₀ left)
      (Books s₀ none) := by
  induction types with
  | nil => exact triple_pure fun _ h => h
  | cons type rest ih =>
    rw [List.map_cons, List.cons_append] at hnodup ⊢
    obtain ⟨hhead, hrest⟩ := List.nodup_cons.mp hnodup
    exact (hsetup type List.mem_cons_self _ hhead).bind fun _ =>
      ih (fun other hmem => hsetup other (List.mem_cons_of_mem _ hmem)) hrest

theorem triple_forM_storageSetupNAS {types : List NasType} (htypes : types ⊆ nasStorageTypes)
    (hnodup : (types.map nasKind ++ left).Nodup) :
    Triple (Ready s₀ (types.map nasKind ++ left)) (types.forM (storageSetupNAS env))
      (fun _ => Ready s₀ left) (Books s₀ none) :=
  triple_forM_kinds (fun _ hmem _ hkind => triple_storageSetupNAS (htypes hmem) hkind) hnodup

/-- All kinds, in the order in which they are set up. -/
def allKinds : List Kind :=
  nasStorageTypes.map nasKind ++ (sanStorageTypes.map sanKind ++ (.localFs :: isoExportKinds))

theorem mem_allKinds (kind : Kind) : kind ∈ allKinds := by
  rcases kind with (nas | san) | _
  · cases nas <;> decide
  · cases san <;> decide
  · decide

theorem Triple.mono_left {left fewer : List Kind} {f : Action Unit} {Q : Unit → StorageUtils → Prop}
    {E : StorageUtils → Prop} (hf : Triple (Ready s₀ fewer) f Q E) (hsub : fewer ⊆ left) :
    Triple (Ready s₀ left) f Q E :=
  hf.imp (fun _ h => h.mono hsub) (fun _ _ h => h) fun _ h => h

theorem nasKind_of_mem : ∀ type ∈ nasStorageTypes,
    nasKind type ∉ isoExportKinds ∧ nasKind type :: isoExportKinds ⊆ allKinds := by decide

/-- What is set up for a storage type leaves the iso and export domains to do. -/
theorem triple_setupByType (storageType realStorageType : String) :
    Triple (Ready s₀ allKinds) (setupByType env storageType realStorageType)
      (fun _ => Ready s₀ isoExportKinds) (Books s₀ none) := by
  unfold setupByType
  split
  · refine Triple.bind (triple_forM_storageSetupNAS (List.Subset.refl _) (by decide)) fun _ => ?_
    refine Triple.bind (triple_forM_kinds (fun type _ _ hkind => triple_storageSetupSAN type hkind)
      (by decide)) fun _ => ?_
    refine Triple.bind (triple_storageSetupDAS (by decide)) fun _ => ?_
    exact triple_pure fun _ h => h
  · split
    · rename_i type hfind
      have hmem := List.mem_of_find?_eq_some hfind
      obtain ⟨hkind, hsub⟩ := nasKind_of_mem type hmem
      exact Triple.mono_left (triple_storageSetupNAS hmem hkind) hsub
    · split
      · split
        · exact Triple.mono_left (triple_forM_storageSetupNAS (List.Subset.refl _) (by decide))
            (by decide)
        · have hfilter := @List.filter_sublist NasType
            (fun type => decide (type.name = realStorageType)) posixfsCompliantTypes
          have hkinds := (hfilter.map nasKind).append_right isoExportKinds
          exact Triple.mono_left (triple_forM_storageSetupNAS hfilter.subset
            (hkinds.nodup (by decide))) (List.Subset.trans hkinds.subset (by decide))
      · split
        · rename_i type hfind
          refine Triple.mono_left (triple_storageSetupSAN type ?_) ?_
          · cases type <;> decide
          · cases type <;> decide
        · split
          · exact Triple.mono_left (triple_storageSetupDAS (by decide)) (by decide)
          · exact triple_pure fun _ h => h.mono (by decide)

/-- The iso and export domains are set up by the manager for their type. -/
theorem triple_storageSetupISOandExportDomains :
    Triple (Ready s₀ isoExportKinds) (storageSetupISOandExportDomains env) (fun _ => Ready s₀ [])
      (Books s₀ none) := by
  refine triple_get_bind fun before => ?_
  rintro s ⟨rfl, hready⟩
  have hiso : s.isoExportDomainNas = s₀.isoExportDomainNas :=
    hready.books.settings.isoExportDomainNas
  refine triple_getStorageServers ?_ (List.nil_subset _) s hready
  unfold StorageUtils.fsType
  rw [hiso]
  cases hname : s₀.isoExportDomainNas with
  | none => exact triple_throw fun _ h => h.books
  | some fsType =>
    have hsections : Triple (Ready s₀ isoExportKinds)
        (do
          setupNasSections env .isoDomain fsType
          setupNasSections env .exportDomain fsType)
        (fun _ => Ready s₀ []) (Books s₀ none) :=
      (@triple_setupNasSections env s₀ _ .isoDomain fsType hname (by decide)).bind fun _ =>
        @triple_setupNasSections env s₀ _ .exportDomain fsType hname (by decide)
    exact hsections

/-- The attributes as they are before anything is set up. -/
def StorageUtils.fresh (self : StorageUtils) : StorageUtils :=
  { self with
    storageServers := ∅
    paths := fun _ => ∅
    luns := fun _ => ∅
    localPaths := ∅
    calls := []
    removed := [] }

theorem ready_fresh (self : StorageUtils) : Ready self.fresh allKinds self.fresh where
  books := by
    refine ⟨SameSettings.refl _, List.nodup_nil, fun kind storageSection ids _ hrecorded => ?_,
      fun _ _ _ _ => Or.inl fun _ hmem => absurd hmem List.not_mem_nil,
      fun _ hmem => absurd hmem List.not_mem_nil, fun _ hmem => absurd hmem List.not_mem_nil⟩
    rcases kind with (nas | san) | _ <;> cases hrecorded
  idle kind storageSection _ := by
    refine ⟨?_, fun _ hmem => absurd hmem List.not_mem_nil⟩
    rcases kind with (nas | san) | _ <;> rfl

/-- Wherever the setup stops, the records are right. -/
theorem books_storageSetup (env : Environment) (self : StorageUtils) :
    Books self.fresh none (after (storageSetup env) self.fresh) := by
  have hsetup : Triple (Ready self.fresh allKinds) (storageSetup env)
      (fun _ => Books self.fresh none) (Books self.fresh none) := by
    refine triple_get_bind fun before => ?_
    rintro s ⟨rfl, hready⟩
    refine (triple_setupByType _ _).bind (fun _ => triple_get_bind fun t => ?_) s hready
    rintro u ⟨rfl, hu⟩
    cases u.createIsoExp with
    | true =>
      exact (triple_storageSetupISOandExportDomains.imp (fun _ h => h) (fun _ _ h => h.books)
        fun _ h => h) u hu
    | false => exact hu.books
  exact hsetup.after (ready_fresh self)

end

end OvirtArt.Storage.Wrapper
