import OvirtArt.Storage.SetupBooks

set_option autoImplicit false

/-!
# What the setup of storage keeps in its records

Every section is set up once, and afterwards either all its devices are recorded or its
last creation did not return.  This holds wherever the setup stops.

Each kind of device has one frame lemma for its records.  Which storage server a section gets does
not matter for them.
-/

namespace OvirtArt.Storage.Wrapper

open OvirtArt.Foundation

/-! ## The creations -/

section

variable {env : Environment} {s₀ s t : StorageUtils}

/-- A state with other managers. -/
def withServers (servers : AList fun _ : String => Manager) (s : StorageUtils) : StorageUtils :=
  { s with storageServers := servers }

/-- Managers are only added. -/
def Extends (old new : AList fun _ : String => Manager) : Prop :=
  ∀ name manager, old.lookup name = some manager → new.lookup name = some manager

variable {storageSection : String} {servers : AList fun _ : String => Manager} {type : DevType}

theorem extends_insert {name : String} (h : servers.lookup name = none) (manager : Manager) :
    Extends servers (servers.insert name manager) := by
  intro other found hfound
  rw [AList.lookup_insert_ne]
  · exact hfound
  · rintro rfl
    rw [h] at hfound
    cases hfound

/-- The manager that there is for a type is taken. -/
theorem run_getStorageManager {name : String} {manager : Manager} (ip : Option String)
    (h : s.storageServers.lookup name = some manager) :
    (getStorageManager env name ip).run s = .ok manager s := by
  unfold getStorageManager
  rw [EStateM.run_bind, EStateM.run_get]
  simp only [h]
  rfl

/-- The manager for a type is the one that there is, or a new one, or there is none. -/
theorem getStorageManager_cases (env : Environment) (name : String) (ip : Option String)
    (s : StorageUtils) :
    (∃ manager servers,
      (getStorageManager env name ip).run s = .ok manager (withServers servers s) ∧
        servers.lookup name = some manager ∧ Extends s.storageServers servers) ∨
      ((getStorageManager env name ip).run s = .error .failed s ∧
        s.storageServers.lookup name = none) := by
  cases hlookup : s.storageServers.lookup name with
  | some manager =>
    exact Or.inl ⟨manager, s.storageServers, run_getStorageManager ip hlookup, hlookup,
      fun _ _ h => h⟩
  | none =>
    unfold getStorageManager
    rw [EStateM.run_bind, EStateM.run_get]
    cases hconnect : env.connect name ip with
    | none =>
      refine Or.inr ⟨?_, rfl⟩
      simp only [hlookup]
      rfl
    | some manager =>
      refine Or.inl ⟨manager, s.storageServers.insert name manager, ?_,
        AList.lookup_insert _, extends_insert hlookup manager⟩
      simp only [hlookup]
      rfl

/-- With more managers everything is as it was. -/
theorem within_withServers (h : Extends s.storageServers servers) (current : Option (Kind × String))
    :
    Within current s (withServers servers s) where
  settings := ⟨rfl, rfl, fun kind storageSection => by cases kind <;> rfl, rfl⟩
  recorded kind storageSection _ := by
    rcases kind with (nas | san) | _ <;> rfl
  servers device hdevice := by
    unfold OnItsServer at hdevice ⊢
    cases hkind : device.slot.kind with
    | net type =>
      rw [hkind] at hdevice
      obtain ⟨hname, manager, hlookup, hhost, hspecific⟩ := hdevice
      exact ⟨hname, manager, h _ _ hlookup, hhost, hspecific⟩
    | localFs =>
      rw [hkind] at hdevice
      exact hdevice

/-- A state with one more call. -/
def withCall (call : Call) (s : StorageUtils) : StorageUtils :=
  { s with calls := s.calls ++ [call] }

theorem within_withCall (call : Call) (current : Option (Kind × String)) :
    Within current s (withCall call s) where
  settings := ⟨rfl, rfl, fun kind storageSection => by cases kind <;> rfl, rfl⟩
  recorded kind storageSection _ := by
    rcases kind with (nas | san) | _ <;> rfl
  servers device hdevice := hdevice

theorem Within.trans {u : StorageUtils} {current : Option (Kind × String)}
    (h : Within current s t) (h' : Within current t u) : Within current s u where
  settings := h.settings.trans h'.settings
  recorded kind storageSection hother :=
    (h'.recorded kind storageSection hother).trans (h.recorded kind storageSection hother)
  servers device hdevice := h'.servers device (h.servers device hdevice)

/-- A call that is added after a step for the same section. -/
theorem called_withCall {slot : Slot} {call : Call}
    (hstep : Within (some (slot.kind, slot.storageSection)) s t) (hcalls : t.calls = s.calls)
    (hslot : call.device.slot = slot)
    (hnotYet : recordedIds s slot.kind slot.storageSection = none →
      recordedIds t slot.kind slot.storageSection = none)
    (hsound : call.Sound) (hserver : call.returned = true → OnItsServer t call.device) :
    Called slot s (withCall call t) call where
  toWithin := hstep.trans (within_withCall call _)
  calls := by rw [← hcalls]; rfl
  slot_eq := hslot
  notYet h := by
    have hwithin := @within_withCall t call none
    rw [hwithin.recorded _ _ (by simp)]
    exact hnotYet h
  server hreturned := (within_withCall call none).servers _ (hserver hreturned)
  sound := hsound

/-- How one creation ended. -/
inductive Ended {δ : Type} (create : Action δ) (idIn : StorageUtils → δ → String) (slot : Slot)
    (s : StorageUtils) : Prop where
  | early (exception : StorageError) (hrun : create.run s = .error exception s)
      (hserver : ∀ made : Made, made.slot.kind = slot.kind →
        made.slot.storageSection = slot.storageSection → ¬ OnItsServer s made)
  | raised (exception : StorageError) (t : StorageUtils) (call : Call)
      (hrun : create.run s = .error exception t) (hcalled : Called slot s t call)
      (hreturned : call.returned = false)
  | returned (device : δ) (t : StorageUtils) (call : Call) (hrun : create.run s = .ok device t)
      (hcalled : Called slot s t call) (hreturned : call.returned = true)
      (hid : call.device.id = idIn t device)
      (hstable : ∀ made : Made, made.slot.kind = slot.kind →
        made.slot.storageSection = slot.storageSection → OnItsServer s made → idIn t = idIn s)

theorem creates_of_ended {δ : Type} {kind : Kind} {create : Nat → Action δ}
    {idIn : StorageUtils → δ → String}
    (h : ∀ index s, SameSettings s₀ s → Ended (create index) idIn ⟨kind, storageSection, index⟩ s) :
    Creates s₀ kind storageSection create idIn where
  returns index s device t hs hrun := by
    cases h index s hs with
    | early exception hearly hserver =>
      rw [hearly] at hrun
      cases hrun
    | raised exception u call herror hcalled hreturned =>
      rw [herror] at hrun
      cases hrun
    | returned found u call hok hcalled hreturned hid hstable =>
      rw [hok] at hrun
      cases hrun
      exact ⟨⟨call, hcalled, hreturned, hid⟩, hstable⟩
  raises index s exception t hs hrun := by
    cases h index s hs with
    | early exception hearly hserver =>
      rw [hearly] at hrun
      cases hrun
      exact Or.inl ⟨rfl, hserver⟩
    | raised exception u call herror hcalled hreturned =>
      rw [herror] at hrun
      cases hrun
      exact Or.inr ⟨call, hcalled, hreturned⟩
    | returned found u call hok hcalled hreturned hid hstable =>
      rw [hok] at hrun
      cases hrun

theorem managerName_eq (h : SameSettings s₀ s) (type : DevType) :
    managerName s type = managerName s₀ type := by
  rcases type with nas | san
  · cases nas with
    | isoDomain => exact h.isoExportDomainNas
    | exportDomain => exact h.isoExportDomainNas
    | gluster => rfl
    | nfs => rfl
    | pnfs => rfl
  · rfl

/-- Without a manager no device is on its server. -/
theorem not_onItsServer {name : String} (hname : managerName s type = some name)
    (hlookup : s.storageServers.lookup name = none) {made : Made}
    (hkind : made.slot.kind = .net type) : ¬ OnItsServer s made := by
  unfold OnItsServer
  rw [hkind]
  rintro ⟨hmade, manager, hfound, _⟩
  rw [hname] at hmade
  rw [← Option.some.inj hmade, hlookup] at hfound
  cases hfound

/-- A directory is made by the manager for its type. -/
theorem creates_createNasDevice {type : NasType} {fsType : String} {ip : Option String}
    (hname : managerName s₀ (.nas type) = some fsType) :
    Creates s₀ (.net (.nas type)) storageSection
      (fun index => createNasDevice env ⟨.net (.nas type), storageSection, index⟩ ip fsType)
      fun _ path => path := by
  refine creates_of_ended fun index s hs => ?_
  have hmanager := (managerName_eq hs (.nas type)).trans hname
  rcases getStorageManager_cases env fsType ip s with
    ⟨manager, servers, hrun, hlookup, hextends⟩ | ⟨hrun, hlookup⟩
  · have hwithin := within_withServers hextends (some (.net (.nas type), storageSection))
    cases hpath : env.createDevice ⟨.net (.nas type), storageSection, index⟩ with
    | none =>
      refine .raised .failed _ ⟨⟨_, fsType, manager.host, ""⟩, false, false⟩ ?_
        (called_withCall hwithin rfl rfl (fun h => h) (fun h => by cases h) fun h => by cases h)
        rfl
      unfold createNasDevice
      rw [EStateM.run_bind, hrun]
      simp only [hpath]
      rfl
    | some path =>
      refine .returned path _ ⟨⟨_, fsType, manager.host, path⟩, true, true⟩ ?_
        (called_withCall hwithin rfl rfl (fun h => h) (fun _ _ => rfl) fun _ =>
          ⟨hmanager, manager, hlookup, rfl, fun san h => by cases h⟩) rfl rfl
        fun _ _ _ _ => rfl
      unfold createNasDevice
      rw [EStateM.run_bind, hrun]
      simp only [hpath]
      rfl
  · refine .early .failed ?_ fun made hkind _ => not_onItsServer hmanager hlookup hkind
    unfold createNasDevice
    rw [EStateM.run_bind, hrun]

theorem storages_setIsSpecific (type : DevType) (storageSection : String) (isSpecific : Bool) :
    (setIsSpecific type storageSection isSpecific s).storages type =
      mapValues (fun key params =>
        if key = storageSection then { params with isSpecific := isSpecific } else params)
        (s.storages type) := Function.update_self _ _ _

theorem storages_setIsSpecific_of_ne {other : DevType} (h : other ≠ type) (storageSection : String)
    (isSpecific : Bool) :
    (setIsSpecific type storageSection isSpecific s).storages other = s.storages other :=
  Function.update_of_ne h _ _

theorem isSpecificAt_setIsSpecific_of_ne {other : DevType} {otherSection : String}
    (isSpecific : Bool) (h : (other, otherSection) ≠ (type, storageSection)) :
    isSpecificAt (setIsSpecific type storageSection isSpecific s) other otherSection =
      isSpecificAt s other otherSection := by
  unfold isSpecificAt
  by_cases htype : other = type
  · subst htype
    have hsection : otherSection ≠ storageSection := fun heq => h (by rw [heq])
    rw [storages_setIsSpecific, lookup_mapValues]
    cases (s.storages other).lookup otherSection with
    | none => rfl
    | some params => simp only [Option.map_some, if_neg hsection]
  · rw [storages_setIsSpecific_of_ne htype]

theorem isSpecificAt_setIsSpecific (isSpecific : Bool)
    (h : ((s.storages type).lookup storageSection).isSome = true) :
    isSpecificAt (setIsSpecific type storageSection isSpecific s) type storageSection =
      isSpecific := by
  unfold isSpecificAt
  obtain ⟨params, hparams⟩ := Option.isSome_iff_exists.mp h
  rw [storages_setIsSpecific, lookup_mapValues, hparams, Option.map_some, if_pos rfl]
  rfl

theorem sectionTotal_setIsSpecific (type : DevType) (storageSection : String) (isSpecific : Bool)
    (kind : Kind) (otherSection : String) :
    sectionTotal (setIsSpecific type storageSection isSpecific s) kind otherSection =
      sectionTotal s kind otherSection := by
  cases kind with
  | localFs => rfl
  | net other =>
    unfold sectionTotal
    by_cases htype : other = type
    · subst htype
      simp only [storages_setIsSpecific, lookup_mapValues, Option.map_map]
      refine congrArg (fun f => Option.map f _) (funext fun params => ?_)
      rw [Function.comp_apply]
      split <;> rfl
    · simp only [storages_setIsSpecific_of_ne htype]

/-- Whether a section is specific is only looked at for the LUNs of that section. -/
theorem within_setIsSpecific {type : SanType} {storageSection : String} {manager : Manager}
    (hlookup : s.storageServers.lookup type.name = some manager)
    (hsome : ((s.storages (.san type)).lookup storageSection).isSome = true) :
    Within (some (.net (.san type), storageSection)) s
      (setIsSpecific (.san type) storageSection manager.isSpecific s) where
  settings := ⟨rfl, rfl, sectionTotal_setIsSpecific _ _ _, rfl⟩
  recorded kind otherSection hother := by
    rcases kind with (nas | san) | _
    · rfl
    · have hne : (DevType.san san, otherSection) ≠ (.san type, storageSection) := by
        rintro heq
        obtain ⟨hsan, rfl⟩ := Prod.mk.inj heq
        exact hother (by rw [hsan])
      unfold recordedIds
      simp only [isSpecificAt_setIsSpecific_of_ne _ hne]
      rfl
    · rfl
  servers device hdevice := by
    unfold OnItsServer at hdevice ⊢
    cases hkind : device.slot.kind with
    | localFs =>
      rw [hkind] at hdevice
      exact hdevice
    | net other =>
      rw [hkind] at hdevice
      obtain ⟨hname, found, hfound, hhost, hspecific⟩ := hdevice
      refine ⟨hname, found, hfound, hhost, fun san hsan => ?_⟩
      by_cases heq : (other, device.slot.storageSection) = (.san type, storageSection)
      · obtain ⟨rfl, hsection⟩ := Prod.mk.inj heq
        have hmanager : type.name = device.manager := Option.some.inj hname
        rw [← hmanager, hlookup] at hfound
        rw [hsection, isSpecificAt_setIsSpecific _ hsome, Option.some.inj hfound]
      · rw [isSpecificAt_setIsSpecific_of_ne _ heq]
        exact hspecific san hsan

theorem isSome_of_settings {total : Nat} (hs : SameSettings s₀ s)
    (htotal : sectionTotal s₀ (.net type) storageSection = some total) :
    ((s.storages type).lookup storageSection).isSome = true := by
  rw [← hs.totals] at htotal
  unfold sectionTotal at htotal
  obtain ⟨params, hparams, _⟩ := Option.map_eq_some_iff.mp htotal
  rw [hparams]
  rfl

/-- What becomes of a LUN that is there. -/
theorem run_createBlockDevice {type : SanType} {slot : Slot} {ip : Option String}
    {manager : Manager} {servers : AList fun _ : String => Manager} {lun : LunInfo}
    (hrun : (getStorageManager env type.name ip).run s = .ok manager (withServers servers s))
    (hlun : (env.blockCalls slot).createLun = some lun) :
    let device : Made := ⟨slot, type.name, manager.host, lun.lunId manager.isSpecific⟩
    let t := setIsSpecific (.san type) slot.storageSection manager.isSpecific
      (withServers servers s)
    (createBlockDevice env type slot ip).run s =
      match finishLun (env.blockCalls slot) manager s.hostGroup s.vdsData with
      | .error exception => .error exception (withCall ⟨device, true, false⟩ t)
      | .ok () => .ok lun (withCall ⟨device, true, true⟩ t) := by
  intro device t
  unfold createBlockDevice
  rw [EStateM.run_bind, hrun]
  simp only [hlun]
  rw [EStateM.run_bind, EStateM.run_modify]
  simp only
  rw [EStateM.run_bind, EStateM.run_get]
  simp only
  cases hfinish : finishLun (env.blockCalls slot) manager s.hostGroup s.vdsData with
  | error exception =>
    have hsame : finishLun (env.blockCalls slot) manager t.hostGroup t.vdsData =
        .error exception := hfinish
    rw [hsame]
    rfl
  | ok done =>
    have hsame : finishLun (env.blockCalls slot) manager t.hostGroup t.vdsData = .ok done :=
      hfinish
    rw [hsame]
    rfl

/-- A LUN is made by the manager for its type. -/
theorem creates_createBlockDevice {type : SanType} {total : Nat} {ip : Option String}
    (htotal : sectionTotal s₀ (.net (.san type)) storageSection = some total) :
    Creates s₀ (.net (.san type)) storageSection
      (fun index => createBlockDevice env type ⟨.net (.san type), storageSection, index⟩ ip)
      fun s lun => lun.lunId (isSpecificAt s (.san type) storageSection) := by
  refine creates_of_ended fun index s hs => ?_
  rcases getStorageManager_cases env type.name ip s with
    ⟨manager, servers, hrun, hlookup, hextends⟩ | ⟨hrun, hlookup⟩
  · have hwithin := within_withServers hextends (some (.net (.san type), storageSection))
    have hsome := isSome_of_settings (hs.trans hwithin.settings) htotal
    have hset := hwithin.trans (@within_setIsSpecific (withServers servers s) _ _ _ hlookup hsome)
    have hnotYet : recordedIds s (.net (.san type)) storageSection = none →
        recordedIds (setIsSpecific (.san type) storageSection manager.isSpecific
          (withServers servers s)) (.net (.san type)) storageSection = none := by
      intro hnone
      rw [recordedIds, Option.map_eq_none_iff] at hnone ⊢
      exact hnone
    cases hlun : (env.blockCalls ⟨.net (.san type), storageSection, index⟩).createLun with
    | none =>
      refine .raised .failed _ ⟨⟨_, type.name, manager.host, ""⟩, false, false⟩ ?_
        (called_withCall hwithin rfl rfl (fun h => h) (fun h => by cases h) fun h => by cases h)
        rfl
      unfold createBlockDevice
      rw [EStateM.run_bind, hrun]
      simp only [hlun]
      rfl
    | some lun =>
      have hblock := run_createBlockDevice hrun hlun
      cases hfinish : finishLun (env.blockCalls ⟨.net (.san type), storageSection, index⟩)
          manager s.hostGroup s.vdsData with
      | error exception =>
        rw [hfinish] at hblock
        exact .raised exception _ _ hblock
          (called_withCall hset rfl rfl hnotYet (fun h => by cases h) fun h => by cases h) rfl
      | ok =>
        rw [hfinish] at hblock
        have hspecific := isSpecificAt_setIsSpecific manager.isSpecific hsome
        refine .returned lun _ _ hblock
          (called_withCall hset rfl rfl hnotYet (fun _ _ => rfl) fun _ =>
            ⟨rfl, manager, hlookup, rfl, fun san _ => hspecific⟩) rfl ?_ ?_
        · exact congrArg lun.lunId hspecific.symm
        · intro made hkind hsection hserver
          unfold OnItsServer at hserver
          rw [hkind] at hserver
          obtain ⟨hname, found, hfound, _, hold⟩ := hserver
          have hmanager : type.name = made.manager := Option.some.inj hname
          rw [← hmanager] at hfound
          have hsame := Option.some.inj (hlookup.symm.trans (hextends _ _ hfound))
          have hbefore := hold type rfl
          rw [hsection, ← hsame] at hbefore
          funext found
          exact congrArg found.lunId (hspecific.trans hbefore.symm)
  · refine .early .failed ?_ fun made hkind _ => not_onItsServer rfl hlookup hkind
    unfold createBlockDevice
    rw [EStateM.run_bind, hrun]

/-- A directory of local storage is made on the server of its section. -/
theorem creates_createLocalDevice {params : LocalParams} {path : Nat → String}
    (hparams : s₀.localStorages.lookup storageSection = some params) :
    Creates s₀ .localFs storageSection
      (fun index => createLocalDevice env ⟨.localFs, storageSection, index⟩ params.ip (path index))
      fun _ path => path := by
  refine creates_of_ended fun index s hs => ?_
  let stamped := path index ++ "_" ++ env.timeStamp ⟨.localFs, storageSection, index⟩
  let device : Made := ⟨⟨.localFs, storageSection, index⟩, "local", params.ip, stamped⟩
  have hwithin : Within (some (.localFs, storageSection)) s s :=
    ⟨SameSettings.refl s, fun _ _ _ => rfl, fun _ h => h⟩
  have hserver : OnItsServer s device :=
    ⟨rfl, params, by rw [hs.localStorages]; exact hparams, rfl⟩
  cases hcall : env.createLocalStorage ⟨.localFs, storageSection, index⟩ with
  | created =>
    refine .returned stamped _ ⟨device, true, true⟩ ?_
      (called_withCall hwithin rfl rfl (fun h => h) (fun _ h => absurd rfl h) fun _ => hserver)
      rfl rfl
      fun _ _ _ _ => rfl
    unfold createLocalDevice
    simp only [hcall]
    rfl
  | alreadyExists =>
    refine .returned stamped _ ⟨device, false, true⟩ ?_
      (called_withCall hwithin rfl rfl (fun h => h) (fun _ h => absurd rfl h) fun _ => hserver)
      rfl rfl
      fun _ _ _ _ => rfl
    unfold createLocalDevice
    simp only [hcall]
    rfl
  | failed =>
    refine .raised .failed _ ⟨device, false, false⟩ ?_
      (called_withCall hwithin rfl rfl (fun h => h) (fun h => by cases h) fun h => by cases h) rfl
    unfold createLocalDevice
    simp only [hcall]
    rfl

/-! ## The records -/

theorem records_recordPaths (type : NasType) (storageSection : String) :
    Records (.net (.nas type)) storageSection (recordPaths type storageSection)
      fun _ path => path where
  within devices s := by
    refine ⟨⟨rfl, rfl, fun kind otherSection => by cases kind <;> rfl, rfl⟩,
      fun kind otherSection hother => ?_, fun device hdevice => hdevice⟩
    rcases kind with (nas | san) | _
    · unfold recordedIds recordPaths
      by_cases htype : nas = type
      · subst htype
        have hsection : otherSection ≠ storageSection := fun heq => hother (by rw [heq])
        simp only [Function.update_self]
        exact AList.lookup_insert_ne hsection
      · simp only [Function.update_of_ne htype]
    · rfl
    · rfl
  calls _ _ := rfl
  recorded devices s := by
    unfold recordedIds recordPaths
    simp only [Function.update_self, List.map_id']
    exact AList.lookup_insert _

theorem records_recordLuns (type : SanType) (storageSection : String) :
    Records (.net (.san type)) storageSection (recordLuns type storageSection)
      fun s lun => lun.lunId (isSpecificAt s (.san type) storageSection) where
  within devices s := by
    refine ⟨⟨rfl, rfl, fun kind otherSection => by cases kind <;> rfl, rfl⟩,
      fun kind otherSection hother => ?_, fun device hdevice => hdevice⟩
    rcases kind with (nas | san) | _
    · rfl
    · unfold recordedIds recordLuns
      by_cases htype : san = type
      · subst htype
        have hsection : otherSection ≠ storageSection := fun heq => hother (by rw [heq])
        simp only [Function.update_self, AList.lookup_insert_ne hsection]
        rfl
      · simp only [Function.update_of_ne htype]
        rfl
    · rfl
  calls _ _ := rfl
  recorded devices s := by
    unfold recordedIds recordLuns
    simp only [Function.update_self, AList.lookup_insert, Option.map_some]
    rfl

theorem records_recordLocalPaths (storageSection : String) :
    Records .localFs storageSection (recordLocalPaths storageSection) fun _ path => path where
  within devices s := by
    refine ⟨⟨rfl, rfl, fun kind otherSection => by cases kind <;> rfl, rfl⟩,
      fun kind otherSection hother => ?_, fun device hdevice => hdevice⟩
    rcases kind with (nas | san) | _
    · rfl
    · rfl
    · have hsection : otherSection ≠ storageSection := fun heq => hother (by rw [heq])
      exact AList.lookup_insert_ne hsection
  calls _ _ := rfl
  recorded devices s := by
    unfold recordedIds recordLocalPaths
    rw [List.map_id']
    exact AList.lookup_insert _

/-! ## The sections of a type -/

/-- The records are kept, and of these kinds nothing was set up yet. -/
structure Ready (s₀ : StorageUtils) (left : List Kind) (s : StorageUtils) : Prop where
  books : Books s₀ none s
  idle : Idle (fun kind _ => kind ∈ left) s

theorem Ready.within {left : List Kind} (h : Ready s₀ left s) (hstep : Within none s t)
    (hcalls : t.calls = s.calls) : Ready s₀ left t :=
  ⟨h.books.within hstep hcalls, h.idle.within hstep (fun _ _ _ => by simp) hcalls⟩

theorem Ready.mono {left fewer : List Kind} (h : Ready s₀ left s) (hsub : fewer ⊆ left) :
    Ready s₀ fewer s :=
  ⟨h.books, fun kind storageSection hmem => h.idle kind storageSection (hsub hmem)⟩

theorem sectionTotal_of_mem (type : DevType) {entry : Sigma fun _ : String => SectionParams}
    (hs : SameSettings s₀ s) (hentry : entry ∈ (s.storages type).entries) :
    sectionTotal s₀ (.net type) entry.1 = some entry.2.total := by
  rw [← hs.totals]
  have hlookup : (s.storages type).lookup entry.1 = some entry.2 :=
    AList.mem_lookup_iff.mpr hentry
  exact congrArg (Option.map SectionParams.total) hlookup

/-- The sections of a kind are set up from where nothing was done for them. -/
theorem triple_setupKind {δ π : Type} {kind : Kind} {left : List Kind} {total : π → Nat}
    {create : String → π → Nat → Action δ} {record : String → List δ → StorageUtils → StorageUtils}
    (dict : StorageUtils → Sections π) (idIn : StorageUtils → String → δ → String)
    (hcreate : ∀ s, SameSettings s₀ s → ∀ entry ∈ (dict s).entries,
      Creates s₀ kind entry.1 (create entry.1 entry.2) fun s => idIn s entry.1)
    (hrecord : ∀ storageSection, Records kind storageSection (record storageSection)
      fun s => idIn s storageSection)
    (htotal : ∀ s, SameSettings s₀ s → ∀ entry ∈ (dict s).entries,
      sectionTotal s₀ kind entry.1 = some (total entry.2))
    (hkind : kind ∉ left) :
    Triple (Ready s₀ (kind :: left))
      (do
        let self ← get
        setupSections total create record (dict self).entries)
      (fun _ => Ready s₀ left) (Books s₀ none) := by
  refine triple_get_bind fun before => ?_
  rintro s ⟨rfl, hready⟩
  have hs := hready.books.settings
  have hloop := @triple_setupSections _ _ _ _ _ _ _ _ (fun kind _ => kind ∈ left) _
    (hcreate s hs) hrecord
    (htotal s hs) (dict s).nodupKeys
  refine (hloop.imp (fun _ h => h) (fun _ t ht => ?_) fun _ ht => ht) s ⟨hready.books, ?_⟩
  · refine ⟨ht.1, fun other storageSection hmem => ht.2 other storageSection (Or.inr ⟨?_, hmem⟩)⟩
    rintro rfl
    exact hkind hmem
  · rintro other storageSection (⟨rfl, _⟩ | ⟨_, hmem⟩)
    · exact hready.idle _ _ List.mem_cons_self
    · exact hready.idle _ _ (List.mem_cons_of_mem _ hmem)

variable {left : List Kind}

theorem triple_setupNasSections {type : NasType} {fsType : String}
    (hname : managerName s₀ (.nas type) = some fsType) (hkind : .net (.nas type) ∉ left) :
    Triple (Ready s₀ (.net (.nas type) :: left)) (setupNasSections env type fsType)
      (fun _ => Ready s₀ left) (Books s₀ none) :=
  triple_setupKind (fun s => s.storages (.nas type)) (fun _ _ path => path)
    (fun _ _ _ _ => creates_createNasDevice hname) (records_recordPaths type)
    (fun _ hs _ hentry => sectionTotal_of_mem (.nas type) hs hentry) hkind

theorem triple_setupSanSections (type : SanType) (hkind : .net (.san type) ∉ left) :
    Triple (Ready s₀ (.net (.san type) :: left)) (setupSanSections env type)
      (fun _ => Ready s₀ left) (Books s₀ none) :=
  triple_setupKind (fun s => s.storages (.san type))
    (fun s storageSection lun => lun.lunId (isSpecificAt s (.san type) storageSection))
    (fun _ hs _ hentry => creates_createBlockDevice (sectionTotal_of_mem (.san type) hs hentry))
    (records_recordLuns type) (fun _ hs _ hentry => sectionTotal_of_mem (.san type) hs hentry)
    hkind

theorem triple_storageSetupDAS (hkind : .localFs ∉ left) :
    Triple (Ready s₀ (.localFs :: left)) (storageSetupDAS env) (fun _ => Ready s₀ left)
      (Books s₀ none) := by
  have hparams : ∀ s, SameSettings s₀ s → ∀ entry ∈ s.localStorages.entries,
      s₀.localStorages.lookup entry.1 = some entry.2 := by
    intro s hs entry hentry
    rw [← hs.localStorages]
    exact AList.mem_lookup_iff.mpr hentry
  refine triple_setupKind StorageUtils.localStorages (fun _ _ path => path)
    (fun s hs entry hentry => creates_createLocalDevice (hparams s hs entry hentry))
    records_recordLocalPaths (fun s hs entry hentry => ?_) hkind
  exact congrArg (Option.map fun params : LocalParams => params.paths.length)
    (hparams s hs entry hentry)

end

end OvirtArt.Storage.Wrapper
