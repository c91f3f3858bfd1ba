import OvirtArt.Storage.StorageWrapper

set_option autoImplicit false

/-!
# Records of the devices of sections

The records say of every section that all its devices were made, or that it was given up.
A section that is set up keeps the records of the others, wherever its creations stop.

Nothing is supposed of the environment here; a creation may raise at any device.  The books of all
sections are kept apart by a frame lemma for each kind of device.
-/

namespace OvirtArt.Storage.Wrapper

open OvirtArt.Foundation

/-! ## Reading the records -/

section

variable (s : StorageUtils)

/-- `self.storages[type][section]['is_specific']`. -/
def isSpecificAt (type : DevType) (storageSection : String) : Bool :=
  ((s.storages type).lookup storageSection).elim false SectionParams.isSpecific

/-- By what the recorded devices of a section are removed. -/
def recordedIds (kind : Kind) (storageSection : String) : Option (List String) :=
  match kind with
  | .net (.nas type) => (s.paths type).lookup storageSection
  | .net (.san type) =>
    ((s.luns type).lookup storageSection).map fun devices =>
      devices.map fun lun => lun.lunId (isSpecificAt s (.san type) storageSection)
  | .localFs => s.localPaths.lookup storageSection

/-- How many devices a section asks for. -/
def sectionTotal (kind : Kind) (storageSection : String) : Option Nat :=
  match kind with
  | .net type => ((s.storages type).lookup storageSection).map SectionParams.total
  | .localFs => (s.localStorages.lookup storageSection).map fun params => params.paths.length

/-- The name of the manager for a type of devices. -/
def managerName : DevType → Option String
  | .nas .isoDomain => s.isoExportDomainNas
  | .nas .exportDomain => s.isoExportDomainNas
  | .nas type => some type.name
  | .san type => some type.name

/-- A device is on the server that its removal would be called for. -/
def OnItsServer (device : Made) : Prop :=
  match device.slot.kind with
  | .net type =>
    managerName s type = some device.manager ∧
      ∃ manager, s.storageServers.lookup device.manager = some manager ∧
        device.host = manager.host ∧
          ∀ san, type = .san san →
            isSpecificAt s type device.slot.storageSection = manager.isSpecific
  | .localFs =>
    device.manager = "local" ∧
      ∃ params, s.localStorages.lookup device.slot.storageSection = some params ∧
        device.host = params.ip

end

/-- A call for a section. -/
def Call.At (call : Call) (kind : Kind) (storageSection : String) : Prop :=
  call.device.slot.kind = kind ∧ call.device.slot.storageSection = storageSection

/-- A creation that returns has made its device, but for a local directory that was there. -/
def Call.Sound (call : Call) : Prop :=
  call.returned = true → call.device.slot.kind ≠ .localFs → call.onServer = true

/-- The calls for a section are those for devices with these names, and all returned. -/
structure Booked (s : StorageUtils) (kind : Kind) (storageSection : String) (ids : List String) :
    Prop where
  returned : ∀ call ∈ s.calls, call.At kind storageSection →
    call.returned = true ∧ ids[call.device.slot.index]? = some call.device.id
  called : ∀ (index : Nat) (id : String), ids[index]? = some id →
    ∃ call ∈ s.calls, call.device.slot = ⟨kind, storageSection, index⟩

/-- A section was not set up: nothing was called for it, or one of its calls did not
return. -/
def Abandoned (s : StorageUtils) (kind : Kind) (storageSection : String) : Prop :=
  (∀ call ∈ s.calls, ¬ call.At kind storageSection) ∨
    ∃ call ∈ s.calls, call.At kind storageSection ∧ call.returned = false

/-- What the setup does not change. -/
structure SameSettings (s₀ s : StorageUtils) : Prop where
  isoExportDomainNas : s.isoExportDomainNas = s₀.isoExportDomainNas
  localStorages : s.localStorages = s₀.localStorages
  totals : ∀ kind storageSection, sectionTotal s kind storageSection =
    sectionTotal s₀ kind storageSection
  removed : s.removed = s₀.removed

theorem SameSettings.refl (s : StorageUtils) : SameSettings s s :=
  ⟨rfl, rfl, fun _ _ => rfl, rfl⟩

theorem SameSettings.trans {s₀ s t : StorageUtils} (h : SameSettings s₀ s)
    (h' : SameSettings s t) : SameSettings s₀ t where
  isoExportDomainNas := h'.isoExportDomainNas.trans h.isoExportDomainNas
  localStorages := h'.localStorages.trans h.localStorages
  totals kind storageSection := (h'.totals kind storageSection).trans (h.totals kind storageSection)
  removed := h'.removed.trans h.removed

/-- The records of all sections but the one that is being set up. -/
structure Books (s₀ : StorageUtils) (current : Option (Kind × String)) (s : StorageUtils) :
    Prop where
  settings : SameSettings s₀ s
  distinct : (s.calls.map fun call => call.device.slot).Nodup
  booked : ∀ kind storageSection ids, current ≠ some (kind, storageSection) →
    recordedIds s kind storageSection = some ids →
      Booked s kind storageSection ids ∧
        sectionTotal s₀ kind storageSection = some ids.length
  abandoned : ∀ kind storageSection, current ≠ some (kind, storageSection) →
    recordedIds s kind storageSection = none → Abandoned s kind storageSection
  servers : ∀ call ∈ s.calls, call.returned = true → OnItsServer s call.device
  sound : ∀ call ∈ s.calls, call.Sound

/-- Nothing was done for some of the sections. -/
def Idle (sections : Kind → String → Prop) (s : StorageUtils) : Prop :=
  ∀ kind storageSection, sections kind storageSection →
    recordedIds s kind storageSection = none ∧
      ∀ call ∈ s.calls, ¬ call.At kind storageSection

/-- A step that is only about one section, or about none. -/
structure Within (current : Option (Kind × String)) (s t : StorageUtils) : Prop where
  settings : SameSettings s t
  recorded : ∀ kind storageSection, current ≠ some (kind, storageSection) →
    recordedIds t kind storageSection = recordedIds s kind storageSection
  servers : ∀ device, OnItsServer s device → OnItsServer t device

/-- One call for a slot. -/
structure Called (slot : Slot) (s t : StorageUtils) (call : Call) : Prop
    extends Within (some (slot.kind, slot.storageSection)) s t where
  calls : t.calls = s.calls ++ [call]
  slot_eq : call.device.slot = slot
  notYet : recordedIds s slot.kind slot.storageSection = none →
    recordedIds t slot.kind slot.storageSection = none
  server : call.returned = true → OnItsServer t call.device
  sound : call.Sound

section

variable {s₀ s t : StorageUtils} {kind : Kind} {storageSection : String}
  {current : Option (Kind × String)} {sections : Kind → String → Prop}

/-- Steps without calls keep the records. -/
theorem Books.within (h : Books s₀ current s) (hstep : Within current s t)
    (hcalls : t.calls = s.calls) : Books s₀ current t where
  settings := h.settings.trans hstep.settings
  distinct := by rw [hcalls]; exact h.distinct
  booked kind storageSection ids hother hrecorded := by
    rw [hstep.recorded kind storageSection hother] at hrecorded
    obtain ⟨hbooked, htotal⟩ := h.booked kind storageSection ids hother hrecorded
    refine ⟨⟨?_, ?_⟩, htotal⟩
    · rw [hcalls]
      exact hbooked.returned
    · rw [hcalls]
      exact hbooked.called
  abandoned kind storageSection hother hrecorded := by
    rw [hstep.recorded kind storageSection hother] at hrecorded
    have habandoned := h.abandoned kind storageSection hother hrecorded
    unfold Abandoned at habandoned ⊢
    rw [hcalls]
    exact habandoned
  servers call hmem hreturned := by
    rw [hcalls] at hmem
    exact hstep.servers _ (h.servers call hmem hreturned)
  sound := by rw [hcalls]; exact h.sound

theorem Idle.within (h : Idle sections s) (hstep : Within current s t)
    (hcurrent : ∀ kind storageSection, sections kind storageSection →
      current ≠ some (kind, storageSection))
    (hcalls : t.calls = s.calls) : Idle sections t := by
  intro kind storageSection hsection
  rw [hstep.recorded kind storageSection (hcurrent kind storageSection hsection), hcalls]
  exact h kind storageSection hsection

theorem mem_calls_append {call : Call} {calls : List Call} {c : Call} :
    c ∈ calls ++ [call] ↔ c ∈ calls ∨ c = call := by
  rw [List.mem_append, List.mem_singleton]

/-- A call for the section that is being set up keeps the records of the others. -/
theorem Books.called {slot : Slot} {call : Call}
    (h : Books s₀ (some (slot.kind, slot.storageSection)) s) (hstep : Called slot s t call)
    (hnew : ∀ c ∈ s.calls, c.device.slot ≠ slot) :
    Books s₀ (some (slot.kind, slot.storageSection)) t where
  settings := h.settings.trans hstep.settings
  distinct := by
    rw [hstep.calls, List.map_append, List.map_singleton]
    refine List.Nodup.append h.distinct (List.nodup_singleton _) ?_
    rw [List.disjoint_singleton, hstep.slot_eq, List.mem_map]
    rintro ⟨c, hmem, hslot⟩
    exact hnew c hmem hslot
  booked kind storageSection ids hother hrecorded := by
    rw [hstep.recorded kind storageSection hother] at hrecorded
    obtain ⟨hbooked, htotal⟩ := h.booked kind storageSection ids hother hrecorded
    refine ⟨⟨fun c hmem hat => ?_, fun index id hid => ?_⟩, htotal⟩
    · rw [hstep.calls, mem_calls_append] at hmem
      rcases hmem with hold | rfl
      · exact hbooked.returned c hold hat
      · refine absurd ?_ hother
        rw [← hstep.slot_eq, hat.1, hat.2]
    · obtain ⟨c, hmem, hslot⟩ := hbooked.called index id hid
      exact ⟨c, by rw [hstep.calls]; exact List.mem_append_left _ hmem, hslot⟩
  abandoned kind storageSection hother hrecorded := by
    rw [hstep.recorded kind storageSection hother] at hrecorded
    rcases h.abandoned kind storageSection hother hrecorded with hnone | ⟨c, hmem, hc⟩
    · refine Or.inl fun c hmem hat => ?_
      rw [hstep.calls, mem_calls_append] at hmem
      rcases hmem with hold | rfl
      · exact hnone c hold hat
      · refine hother ?_
        rw [← hstep.slot_eq, hat.1, hat.2]
    · exact Or.inr ⟨c, by rw [hstep.calls]; exact List.mem_append_left _ hmem, hc⟩
  servers c hmem hreturned := by
    rw [hstep.calls, mem_calls_append] at hmem
    rcases hmem with hold | rfl
    · exact hstep.toWithin.servers _ (h.servers c hold hreturned)
    · exact hstep.server hreturned
  sound c hmem := by
    rw [hstep.calls, mem_calls_append] at hmem
    rcases hmem with hold | rfl
    · exact h.sound c hold
    · exact hstep.sound

/-- A section is taken up. -/
theorem Books.begin (h : Books s₀ none s) : Books s₀ (some (kind, storageSection)) s where
  settings := h.settings
  distinct := h.distinct
  booked kind storageSection ids _ := h.booked kind storageSection ids (by simp)
  abandoned kind storageSection _ := h.abandoned kind storageSection (by simp)
  servers := h.servers
  sound := h.sound

/-- A section is given up. -/
theorem Books.giveUp (h : Books s₀ (some (kind, storageSection)) s)
    (hrecorded : recordedIds s kind storageSection = none)
    (habandoned : Abandoned s kind storageSection) : Books s₀ none s where
  settings := h.settings
  distinct := h.distinct
  booked other otherSection ids _ hids := by
    by_cases heq : (kind, storageSection) = (other, otherSection)
    · obtain ⟨rfl, rfl⟩ := Prod.mk.inj heq
      rw [hrecorded] at hids
      cases hids
    · exact h.booked other otherSection ids (fun hsome => heq (Option.some.inj hsome)) hids
  abandoned other otherSection _ hids := by
    by_cases heq : (kind, storageSection) = (other, otherSection)
    · obtain ⟨rfl, rfl⟩ := Prod.mk.inj heq
      exact habandoned
    · exact h.abandoned other otherSection (fun hsome => heq (Option.some.inj hsome)) hids
  servers := h.servers
  sound := h.sound

/-- A section is recorded. -/
theorem Books.finish {ids : List String} (h : Books s₀ (some (kind, storageSection)) s)
    (hbooked : Booked s kind storageSection ids)
    (htotal : sectionTotal s₀ kind storageSection = some ids.length)
    (hstep : Within (some (kind, storageSection)) s t) (hcalls : t.calls = s.calls)
    (hrecorded : recordedIds t kind storageSection = some ids) : Books s₀ none t := by
  have ht := h.within hstep hcalls
  refine ⟨ht.settings, ht.distinct, fun other otherSection found _ hfound => ?_,
    fun other otherSection _ hnone => ?_, ht.servers, ht.sound⟩
  · by_cases heq : (kind, storageSection) = (other, otherSection)
    · obtain ⟨rfl, rfl⟩ := Prod.mk.inj heq
      rw [hrecorded] at hfound
      obtain rfl := Option.some.inj hfound
      refine ⟨⟨?_, ?_⟩, htotal⟩
      · rw [hcalls]
        exact hbooked.returned
      · rw [hcalls]
        exact hbooked.called
    · exact ht.booked other otherSection found (fun hsome => heq (Option.some.inj hsome)) hfound
  · by_cases heq : (kind, storageSection) = (other, otherSection)
    · obtain ⟨rfl, rfl⟩ := Prod.mk.inj heq
      rw [hrecorded] at hnone
      cases hnone
    · exact ht.abandoned other otherSection (fun hsome => heq (Option.some.inj hsome)) hnone

end

/-! ## One section -/

/-- While a section is set up, the calls for it are those for the devices so far. -/
structure InSection (s₀ : StorageUtils) (kind : Kind) (storageSection : String)
    (ids : List String) (s : StorageUtils) : Prop where
  books : Books s₀ (some (kind, storageSection)) s
  notYet : recordedIds s kind storageSection = none
  booked : Booked s kind storageSection ids

/-- How a creation can end: with a call for its slot, or before there is a manager. -/
structure Creates {δ : Type} (s₀ : StorageUtils) (kind : Kind) (storageSection : String)
    (create : Nat → Action δ) (idIn : StorageUtils → δ → String) : Prop where
  returns : ∀ index s device t, SameSettings s₀ s → (create index).run s = .ok device t →
    (∃ call, Called ⟨kind, storageSection, index⟩ s t call ∧ call.returned = true ∧
      call.device.id = idIn t device) ∧
    ∀ made : Made, made.slot.kind = kind → made.slot.storageSection = storageSection →
      OnItsServer s made → idIn t = idIn s
  raises : ∀ index s exception t, SameSettings s₀ s →
    (create index).run s = .error exception t →
    (t = s ∧ ∀ made : Made, made.slot.kind = kind →
      made.slot.storageSection = storageSection → ¬ OnItsServer s made) ∨
    ∃ call, Called ⟨kind, storageSection, index⟩ s t call ∧ call.returned = false

/-- How the devices of a section are recorded. -/
structure Records {δ : Type} (kind : Kind) (storageSection : String)
    (record : List δ → StorageUtils → StorageUtils) (idIn : StorageUtils → δ → String) :
    Prop where
  within : ∀ devices s, Within (some (kind, storageSection)) s (record devices s)
  calls : ∀ devices s, (record devices s).calls = s.calls
  recorded : ∀ devices s,
    recordedIds (record devices s) kind storageSection = some (devices.map (idIn s))

section

variable {δ : Type} {s₀ s t : StorageUtils} {kind : Kind} {storageSection : String}
  {create : Nat → Action δ} {idIn : StorageUtils → δ → String} {ids : List String}

theorem InSection.slot_ne (h : InSection s₀ kind storageSection ids s) :
    ∀ call ∈ s.calls, call.device.slot ≠ ⟨kind, storageSection, ids.length⟩ := by
  intro call hmem hslot
  have hid := (h.booked.returned call hmem ⟨by rw [hslot], by rw [hslot]⟩).2
  rw [hslot, List.getElem?_eq_none (Nat.le_refl ids.length)] at hid
  cases hid

/-- One more device of a section. -/
theorem InSection.called {call : Call} (h : InSection s₀ kind storageSection ids s)
    (hstep : Called ⟨kind, storageSection, ids.length⟩ s t call)
    (hreturned : call.returned = true) :
    InSection s₀ kind storageSection (ids ++ [call.device.id]) t where
  books := h.books.called hstep h.slot_ne
  notYet := hstep.notYet h.notYet
  booked := by
    refine ⟨fun c hmem hat => ?_, fun index id hid => ?_⟩
    · rw [hstep.calls, mem_calls_append] at hmem
      rcases hmem with hold | rfl
      · obtain ⟨hret, hid⟩ := h.booked.returned c hold hat
        have hlt := (List.getElem?_eq_some_iff.mp hid).1
        exact ⟨hret, by rw [List.getElem?_append_left hlt, hid]⟩
      · refine ⟨hreturned, ?_⟩
        rw [hstep.slot_eq, List.getElem?_concat_length]
    · rw [hstep.calls]
      by_cases hlt : index < ids.length
      · rw [List.getElem?_append_left hlt] at hid
        obtain ⟨c, hmem, hslot⟩ := h.booked.called index id hid
        exact ⟨c, List.mem_append_left _ hmem, hslot⟩
      · have hlength := (List.getElem?_eq_some_iff.mp hid).1
        rw [List.length_append, List.length_singleton] at hlength
        have heq : index = ids.length := by omega
        exact ⟨call, List.mem_append_right _ (List.mem_singleton.mpr rfl),
          by rw [hstep.slot_eq, heq]⟩

/-- A section whose creation raises is given up. -/
theorem InSection.raised {index : Nat} {exception : StorageError}
    (hcreate : Creates s₀ kind storageSection create idIn)
    (h : InSection s₀ kind storageSection ids s) (hindex : index = ids.length)
    (hrun : (create index).run s = .error exception t) : Books s₀ none t := by
  rcases hcreate.raises index s exception t h.books.settings hrun with
    ⟨rfl, hserver⟩ | ⟨call, hstep, hreturned⟩
  · refine h.books.giveUp h.notYet (Or.inl fun call hmem hat => ?_)
    have hret := (h.booked.returned call hmem hat).1
    exact hserver call.device hat.1 hat.2 (h.books.servers call hmem hret)
  · subst hindex
    refine (h.books.called hstep h.slot_ne).giveUp (hstep.notYet h.notYet)
      (Or.inr ⟨call, ?_, ⟨?_, ?_⟩, hreturned⟩)
    · rw [hstep.calls]
      exact List.mem_append_right _ (List.mem_singleton.mpr rfl)
    · rw [hstep.slot_eq]
    · rw [hstep.slot_eq]

/-- With one more device, the devices so far are named as before. -/
theorem InSection.created {devices : List δ} {device : δ} {index : Nat}
    (hcreate : Creates s₀ kind storageSection create idIn)
    (h : InSection s₀ kind storageSection (devices.map (idIn s)) s)
    (hindex : index = devices.length) (hrun : (create index).run s = .ok device t) :
    InSection s₀ kind storageSection ((devices ++ [device]).map (idIn t)) t ∧
      ∃ call, Called ⟨kind, storageSection, index⟩ s t call := by
  obtain ⟨⟨call, hstep, hreturned, hid⟩, hstable⟩ :=
    hcreate.returns index s device t h.books.settings hrun
  refine ⟨?_, call, hstep⟩
  have hnames : devices.map (idIn t) = devices.map (idIn s) := by
    cases devices with
    | nil => rfl
    | cons first rest =>
      obtain ⟨c, hmem, hslot⟩ := h.booked.called 0 (idIn s first) rfl
      have hret := (h.booked.returned c hmem ⟨by rw [hslot], by rw [hslot]⟩).1
      rw [hstable c.device (by rw [hslot]) (by rw [hslot]) (h.books.servers c hmem hret)]
  rw [List.map_append, hnames, List.map_singleton, ← hid]
  refine h.called ?_ hreturned
  rw [List.length_map, ← hindex]
  exact hstep

variable {sections : Kind → String → Prop}

theorem Idle.called {slot : Slot} {call : Call} (h : Idle sections s) (hstep : Called slot s t call)
    (hother : ¬ sections slot.kind slot.storageSection) : Idle sections t := by
  intro kind storageSection hsection
  have hne : some (slot.kind, slot.storageSection) ≠ some (kind, storageSection) := by
    intro heq
    obtain ⟨rfl, rfl⟩ := Prod.mk.inj (Option.some.inj heq)
    exact hother hsection
  obtain ⟨hrecorded, hcalls⟩ := h kind storageSection hsection
  refine ⟨by rw [hstep.recorded kind storageSection hne, hrecorded], fun c hmem hat => ?_⟩
  rw [hstep.calls, mem_calls_append] at hmem
  rcases hmem with hold | rfl
  · exact hcalls c hold hat
  · refine hne ?_
    rw [← hstep.slot_eq, hat.1, hat.2]

/-- The devices of a section are made one after the other. -/
theorem triple_createAll (hcreate : Creates s₀ kind storageSection create idIn)
    (hother : ¬ sections kind storageSection) (total : Nat) :
    Triple (fun s => InSection s₀ kind storageSection [] s ∧ Idle sections s)
      ((List.range total).mapM create)
      (fun devices s => InSection s₀ kind storageSection (devices.map (idIn s)) s ∧
        devices.length = total ∧ Idle sections s)
      (Books s₀ none) := by
  have hloop := @Triple.mapM _ _ δ Nat (Books s₀ none) create
    (fun left devices s => left = List.range' devices.length (total - devices.length) ∧
      devices.length ≤ total ∧
        InSection s₀ kind storageSection (devices.map (idIn s)) s ∧ Idle sections s) ?_
    (List.range total) []
  · refine hloop.imp (fun s hs => ?_) (fun devices s hs => ?_) fun _ hs => hs
    · exact ⟨by rw [List.range_eq_range', List.length_nil, Nat.sub_zero], Nat.zero_le _, hs⟩
    · obtain ⟨hleft, hle, hsection, hidle⟩ := hs
      rw [List.nil_append] at hleft hle hsection
      refine ⟨hsection, Nat.le_antisymm hle ?_, hidle⟩
      have hlength := congrArg List.length hleft
      rw [List.length_nil, List.length_range'] at hlength
      omega
  · rintro index left devices s ⟨hleft, hle, hsection, hidle⟩
    obtain ⟨remaining, hremaining⟩ : ∃ remaining,
        total - devices.length = remaining + 1 := by
      cases hcount : total - devices.length with
      | zero =>
        rw [hcount] at hleft
        cases hleft
      | succ remaining => exact ⟨remaining, rfl⟩
    rw [hremaining, List.range'_succ, List.cons.injEq] at hleft
    obtain ⟨hindex, hrest⟩ := hleft
    cases hrun : (create index).run s with
    | ok device t =>
      obtain ⟨hnext, call, hstep⟩ := hsection.created hcreate hindex hrun
      refine ⟨?_, ?_, hnext, hidle.called hstep hother⟩
      · rw [List.length_append, List.length_singleton, hrest]
        congr 1
        omega
      · rw [List.length_append, List.length_singleton]
        omega
    | error exception t =>
      refine hsection.raised hcreate ?_ hrun
      rw [List.length_map]
      exact hindex

end

/-! ## All sections of a kind -/

/-- Sections of one kind that are left to do, next to those of other kinds. -/
def LeftOf (kind : Kind) (left : List String) (sections : Kind → String → Prop) :
    Kind → String → Prop := fun other storageSection =>
  (other = kind ∧ storageSection ∈ left) ∨ (other ≠ kind ∧ sections other storageSection)

section

variable {δ π : Type} {s₀ : StorageUtils} {kind : Kind} {total : π → Nat}
  {create : String → π → Nat → Action δ} {record : String → List δ → StorageUtils → StorageUtils}
  {idIn : StorageUtils → String → δ → String} {sections : Kind → String → Prop}

/-- A section is set up: all its devices are recorded, or it is given up. -/
theorem triple_setupSection {storageSection : String} {params : π} {left : List String}
    (hcreate : Creates s₀ kind storageSection (create storageSection params)
      fun s => idIn s storageSection)
    (hrecord : Records kind storageSection (record storageSection) fun s => idIn s storageSection)
    (htotal : sectionTotal s₀ kind storageSection = some (total params))
    (hleft : storageSection ∉ left) :
    Triple (fun s => Books s₀ none s ∧
        Idle (LeftOf kind (storageSection :: left) sections) s)
      (do
        let devices ← (List.range (total params)).mapM (create storageSection params)
        modify (record storageSection devices))
      (fun _ s => Books s₀ none s ∧ Idle (LeftOf kind left sections) s) (Books s₀ none) := by
  have hout : ¬ LeftOf kind left sections kind storageSection := by
    rintro (⟨_, hmem⟩ | ⟨hne, _⟩)
    · exact hleft hmem
    · exact hne rfl
  have hcurrent : ∀ other otherSection, LeftOf kind left sections other otherSection →
      some (kind, storageSection) ≠ some (other, otherSection) := by
    intro other otherSection hsection heq
    obtain ⟨rfl, rfl⟩ := Prod.mk.inj (Option.some.inj heq)
    exact hout hsection
  refine Triple.bind ((triple_createAll hcreate hout (total params)).imp ?_ (fun _ _ hs => hs)
    fun _ hs => hs) fun devices => triple_modify ?_
  · rintro s ⟨hbooks, hidle⟩
    obtain ⟨hnone, hcalls⟩ := hidle kind storageSection (Or.inl ⟨rfl, List.mem_cons_self⟩)
    refine ⟨⟨hbooks.begin, hnone, fun call hmem hat => absurd hat (hcalls call hmem),
      fun index id hid => by cases hid⟩, fun other otherSection hsection => ?_⟩
    exact hidle other otherSection (hsection.imp_left fun h => ⟨h.1, List.mem_cons_of_mem _ h.2⟩)
  · rintro s ⟨hsection, hlength, hidle⟩
    have hwithin := hrecord.within devices s
    have hcalls := hrecord.calls devices s
    refine ⟨hsection.books.finish hsection.booked ?_ hwithin hcalls (hrecord.recorded devices s),
      hidle.within hwithin hcurrent hcalls⟩
    rw [htotal, List.length_map, hlength]

/-- All sections of a kind are set up, up to the one that is given up. -/
theorem triple_setupSections {entries : List (Sigma fun _ : String => π)}
    (hcreate : ∀ entry ∈ entries, Creates s₀ kind entry.1 (create entry.1 entry.2)
      fun s => idIn s entry.1)
    (hrecord : ∀ storageSection, Records kind storageSection (record storageSection)
      fun s => idIn s storageSection)
    (htotal : ∀ entry ∈ entries, sectionTotal s₀ kind entry.1 = some (total entry.2))
    (hnodup : (entries.map Sigma.fst).Nodup) :
    Triple (fun s => Books s₀ none s ∧ Idle (LeftOf kind (entries.map Sigma.fst) sections) s)
      (setupSections total create record entries)
      (fun _ s => Books s₀ none s ∧ Idle (LeftOf kind [] sections) s) (Books s₀ none) := by
  have hloop := @Triple.forM _ _ (Sigma fun _ : String => π) (Books s₀ none)
    (fun params => do
      let devices ← (List.range (total params.2)).mapM (create params.1 params.2)
      modify (record params.1 devices))
    (fun left s => (left.Sublist entries ∧ Books s₀ none s) ∧
      Idle (LeftOf kind (left.map Sigma.fst) sections) s) ?_ entries
  · exact hloop.imp (fun s hs => ⟨⟨List.Sublist.refl _, hs.1⟩, hs.2⟩)
      (fun _ s hs => ⟨hs.1.2, hs.2⟩) fun _ hs => hs
  · rintro entry left s ⟨⟨hsub, hbooks⟩, hidle⟩
    have hmem : entry ∈ entries := hsub.subset List.mem_cons_self
    have hleft : entry.1 ∉ left.map Sigma.fst := by
      have hsubNodup := hnodup.sublist (hsub.map Sigma.fst)
      rw [List.map_cons, List.nodup_cons] at hsubNodup
      exact hsubNodup.1
    have hsection := @triple_setupSection δ π s₀ kind total create record idIn sections entry.1
      entry.2 _ (hcreate entry hmem) (hrecord entry.1) (htotal entry hmem) hleft
    refine (hsection.imp (fun _ hs => hs) (fun _ t ht => ?_) fun _ ht => ht) s ⟨hbooks, hidle⟩
    exact ⟨⟨(List.sublist_cons_self _ _).trans hsub, ht.1⟩, ht.2⟩

end

end OvirtArt.Storage.Wrapper
