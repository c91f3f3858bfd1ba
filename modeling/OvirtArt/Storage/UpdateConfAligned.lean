import OvirtArt.Storage.UpdateConfLists

set_option autoImplicit false

/-!
# When the lists of the targets are aligned

A target gets what is written under its keys, by any type and for any target.  The lists
are aligned, whatever the order of the types, exactly if the devices of a target have the
same lists and no other write meets one of their keys.

The order in which the dictionary of types is gone through is not known, so the result is about
every order, and about a second run over the same configuration.
-/

namespace OvirtArt.Storage.Wrapper

open OvirtArt.Foundation

/-! ## Which keys are the same -/

/-- The key of the configuration for a list of a target. -/
def stKeyOf (target extension : String) : String × String :=
  ((place target).1, (place target).2 ++ extension)

variable {key : ListKey} {target other : String} {devices : List Device}
  {values : List (Option String)}

theorem exists_parts (h : WellFormed target) :
    ∃ before after : List Char, target.toList = before ++ '.' :: after ∧ '.' ∉ before ∧
      place target = (String.ofList before, String.ofList after) := by
  have hmem : '.' ∈ target.toList := by
    apply List.count_pos_iff.mp
    rw [show target.toList.count '.' = 1 from h]
    exact Nat.one_pos
  obtain ⟨before, after, htext, hbefore⟩ := List.eq_append_cons_of_mem hmem
  have hafter : '.' ∉ after := by
    have hcount : target.toList.count '.' = 1 := h
    rw [htext, List.count_append, List.count_cons_self, List.count_eq_zero_of_not_mem hbefore]
      at hcount
    apply List.count_eq_zero.mp
    omega
  refine ⟨before, after, htext, hbefore, ?_⟩
  unfold place
  rw [htext, splitAll_append hbefore, splitAll_of_not_mem hafter]

/-- Two lists have one key exactly if their full names are the same. -/
theorem stKeyOf_eq_iff {extension otherExtension : String} (h : WellFormed target)
    (hother : WellFormed other) :
    stKeyOf target extension = stKeyOf other otherExtension ↔
      target ++ extension = other ++ otherExtension := by
  obtain ⟨before, after, htext, hbefore, hplace⟩ := exists_parts h
  obtain ⟨before', after', htext', hbefore', hplace'⟩ := exists_parts hother
  unfold stKeyOf
  rw [hplace, hplace', ← String.toList_inj, String.toList_append, String.toList_append, htext,
    htext', Prod.mk.injEq, String.ofList_inj, ← String.toList_inj, String.toList_append,
    String.toList_append, String.toList_ofList, String.toList_ofList]
  constructor
  · rintro ⟨rfl, hrest⟩
    rw [List.append_assoc, List.append_assoc, List.cons_append, List.cons_append, hrest]
  · intro hfull
    have hsplit := congrArg (splitOnce '.') hfull
    rw [List.append_assoc, List.append_assoc, List.cons_append, List.cons_append,
      splitOnce_append hbefore, splitOnce_append hbefore'] at hsplit
    exact ⟨congrArg Prod.fst (Option.some.inj hsplit), congrArg Prod.snd (Option.some.inj hsplit)⟩

theorem extension_injective {other : ListKey} (h : key.extension = other.extension) :
    key = other := by
  cases key <;> cases other <;> first | rfl | exact absurd h (by decide)

theorem getLast_extension_injective {other : ListKey} (hkey : key ≠ .uuid) (hother : other ≠ .uuid)
    (h : key.extension.toList.getLast? = other.extension.toList.getLast?) : key = other := by
  cases key <;> cases other <;>
    first | rfl | exact absurd rfl hkey | exact absurd rfl hother | exact absurd h (by decide)

/-- The extension of a name can be read off its last character. -/
theorem getLast_append_extension (hkey : key ≠ .uuid) :
    (target ++ key.extension).toList.getLast? = key.extension.toList.getLast? := by
  have hne : key.extension.toList ≠ [] := by
    cases key <;> first | exact absurd rfl hkey | decide
  rw [String.toList_append, List.getLast?_append_of_ne_nil _ hne]

theorem target_of_append {extension : String} (h : target ++ extension = other ++ extension) :
    target = other := by
  rw [← String.toList_inj, String.toList_append, String.toList_append] at h
  exact String.toList_inj.mp (List.append_cancel_right h)

theorem append_extension_inj {otherKey : ListKey} (hkey : key ≠ .uuid) (hother : otherKey ≠ .uuid)
    (h : target ++ key.extension = other ++ otherKey.extension) :
    target = other ∧ key = otherKey := by
  have hlast := congrArg (fun text : String => text.toList.getLast?) h
  simp only [getLast_append_extension hkey, getLast_append_extension hother] at hlast
  obtain rfl := getLast_extension_injective hkey hother hlast
  exact ⟨target_of_append h, rfl⟩

/-! ## Alignment -/

/-- Each value of a list belongs to the device whose address has the same index, and each
device that has a value for the list has it there. -/
def IsAligned (devices : List Device) (key : ListKey) (values : List (Option String)) : Prop :=
  ∀ (index : Nat) (value : Option String), values[index]? = some value ↔
    devices[index]?.bind (Device.data key) = some value

theorem isAligned_filterMap (h : ∀ device ∈ devices, (device.data key).isSome = true) :
    IsAligned devices key (devices.filterMap (Device.data key)) := by
  induction devices with
  | nil => intro index value; simp
  | cons device devices ih =>
    obtain ⟨hfirst, hrest⟩ := List.forall_mem_cons.mp h
    obtain ⟨first, hdata⟩ := Option.isSome_iff_exists.mp hfirst
    intro index value
    rw [List.filterMap_cons_some hdata]
    cases index with
    | zero => simp [hdata]
    | succ index =>
      rw [List.getElem?_cons_succ, List.getElem?_cons_succ]
      exact ih hrest index value

theorem IsAligned.length_le (h : IsAligned devices key values) :
    values.length ≤ devices.length := by
  by_contra hlt
  have hvalue := List.getElem?_eq_getElem (Nat.lt_of_not_le hlt)
  have hdevice := (h _ _).mp hvalue
  rw [List.getElem?_eq_none (Nat.le_refl devices.length)] at hdevice
  cases hdevice

/-- Where the first device has nothing for a list, the list is empty. -/
theorem IsAligned.eq_nil {device : Device} (h : IsAligned (device :: devices) key values)
    (hdata : device.data key = none) : values = [] := by
  cases values with
  | nil => rfl
  | cons value values =>
    have hfirst := (h 0 value).mp rfl
    rw [List.getElem?_cons_zero, Option.bind_some, hdata] at hfirst
    cases hfirst

/-! ## What is written for a target itself -/

/-- The writes by the targets and lists that they are made for. -/
def ownKeyed (writes : List ConfWrite) : List ((String × String) × List (Option String)) :=
  writes.map fun write => ((write.targetPath, write.keyExtension), write.keyValue)

section

variable {self : StorageUtils} {order : List DevType} {type : DevType} {target : String}
  {key : ListKey}

theorem valuesAt_targetWrites :
    valuesAt (ownKeyed (self.targetWrites type target)) (target, key.extension) =
      self.listOf type target key := by
  unfold ownKeyed StorageUtils.targetWrites valuesAt
  rw [List.map_map, List.flatMap_map]
  by_cases hkey : key ∈ listKeys type
  · refine (flatMap_eq_of_forall_ne (nodup_listKeys type) hkey fun other _ hne => ?_).trans
      (if_pos rfl)
    refine if_neg fun heq => hne (extension_injective ?_)
    exact congrArg Prod.snd heq
  · rw [listOf_eq_nil hkey, List.flatMap_eq_nil_iff]
    intro other hother
    refine if_neg fun heq => hkey ?_
    rw [← extension_injective (congrArg Prod.snd heq)]
    exact hother

theorem valuesAt_targetWrites_of_ne {other : String} (hne : other ≠ target) :
    valuesAt (ownKeyed (self.targetWrites type other)) (target, key.extension) = [] := by
  apply valuesAt_eq_nil
  intro entry hmem heq
  obtain ⟨write, hwrite, rfl⟩ := List.mem_map.mp hmem
  obtain ⟨_, _, rfl⟩ := List.mem_map.mp hwrite
  exact hne (congrArg Prod.fst heq)

/-- The writes for a list of a target are the data of its devices. -/
theorem valuesAt_netWrites :
    valuesAt (ownKeyed (self.netWrites order)) (target, key.extension) =
      (self.devicesFor order target).filterMap (Device.data key) := by
  unfold StorageUtils.netWrites StorageUtils.devicesFor ownKeyed
  rw [List.map_flatMap, valuesAt_flatMap, List.filterMap_flatMap]
  refine List.flatMap_congr fun type _ => ?_
  rw [List.map_flatMap, valuesAt_flatMap]
  by_cases hmem : target ∈ self.targets type
  · refine (flatMap_eq_of_forall_ne (nodup_targets self type) hmem fun other _ hne => ?_).trans
      valuesAt_targetWrites
    exact valuesAt_targetWrites_of_ne hne
  · rw [mem_targets_iff, not_not] at hmem
    rw [hmem, List.filterMap_nil, List.flatMap_eq_nil_iff]
    intro other hother
    refine valuesAt_targetWrites_of_ne fun heq => ?_
    rw [heq, mem_targets_iff, hmem] at hother
    exact hother rfl

variable {write : ConfWrite}

theorem mem_netWrites :
    write ∈ self.netWrites order ↔ ∃ type ∈ order, ∃ other ∈ self.targets type,
      ∃ otherKey ∈ listKeys type,
        (⟨other, otherKey.extension, self.listOf type other otherKey⟩ : ConfWrite) = write := by
  unfold StorageUtils.netWrites StorageUtils.targetWrites
  simp only [List.mem_flatMap, List.mem_map]

/-- A device of a target. -/
theorem exists_device (hmem : target ∈ self.targets type) :
    ∃ device, device ∈ self.devicesAt target type := by
  rw [mem_targets_iff] at hmem
  exact List.exists_mem_of_ne_nil _ hmem

theorem mem_devicesFor {device : Device} :
    device ∈ self.devicesFor order target ↔
      device.type ∈ order ∧ device ∈ self.devicesAt target device.type := by
  unfold StorageUtils.devicesFor
  rw [List.mem_flatMap]
  constructor
  · rintro ⟨type, htype, hdevice⟩
    obtain rfl := type_of_mem_devicesAt hdevice
    exact ⟨htype, hdevice⟩
  · rintro ⟨htype, hdevice⟩
    exact ⟨_, htype, hdevice⟩

theorem mem_targets_of_mem_devicesFor {device : Device}
    (h : device ∈ self.devicesFor order target) : target ∈ self.targets device.type := by
  rw [mem_targets_iff]
  exact List.ne_nil_of_mem (mem_devicesFor.mp h).2

/-! ## Targets with lists of their own -/

/-- A list is written for a target, by a type or for local storage. -/
def Writes (self : StorageUtils) (target : String) (key : ListKey) : Prop :=
  (∃ type, target ∈ self.targets type ∧ key ∈ listKeys type) ∨
    (target ∈ self.localTargets ∧ key = .path)

/-- The targets are well formed; the devices of a target have the same lists, among them no
local ones next to other directories; and no list of blocks has the full name of another
list. -/
structure OwnLists (utils : StorageUtils) : Prop where
  wellFormed : ∀ target key, Writes utils target key → WellFormed target
  sameLists : ∀ target type other, target ∈ utils.targets type → target ∈ utils.targets other →
    listKeys type = listKeys other
  notLocal : ∀ target type, target ∈ utils.targets (.nas type) → target ∉ utils.localTargets
  noClash : ∀ target type, target ∈ utils.targets (.san type) → ∀ other key, key ≠ .uuid →
    Writes utils other key → target ≠ other ++ key.extension

/-- Every list is written by a call. -/
theorem exists_write (hall : ∀ type : DevType, type ∈ order) (h : Writes self target key) :
    ∃ write ∈ self.confWrites order,
      write.targetPath = target ∧ write.keyExtension = key.extension := by
  rcases h with ⟨type, hmem, hkey⟩ | ⟨hmem, rfl⟩
  · exact ⟨_, List.mem_append_left _ (mem_netWrites.mpr ⟨type, hall type, target, hmem, key,
      hkey, rfl⟩), rfl, rfl⟩
  · exact ⟨_, List.mem_append_right _ (List.mem_map_of_mem hmem), rfl, rfl⟩

/-- Every call writes a list. -/
theorem writes_of_mem (h : write ∈ self.confWrites order) :
    ∃ key : ListKey, write.keyExtension = key.extension ∧ Writes self write.targetPath key := by
  rcases List.mem_append.mp h with hnet | hlocal
  · obtain ⟨type, _, target, htarget, key, hkey, rfl⟩ := mem_netWrites.mp hnet
    exact ⟨key, rfl, Or.inl ⟨type, htarget, hkey⟩⟩
  · obtain ⟨target, htarget, rfl⟩ := List.mem_map.mp hlocal
    exact ⟨.path, rfl, Or.inr ⟨htarget, rfl⟩⟩

theorem allWellFormed_iff (hall : ∀ type : DevType, type ∈ order) :
    AllWellFormed (self.confWrites order) ↔
      ∀ target key, Writes self target key → WellFormed target := by
  constructor
  · intro h target key hwrites
    obtain ⟨write, hmem, rfl, _⟩ := exists_write hall hwrites
    exact h write hmem
  · intro h write hmem
    obtain ⟨key, _, hwrites⟩ := writes_of_mem hmem
    exact h _ key hwrites

/-- With lists of their own, a write is found under the key of a list exactly if it was made
for it. -/
theorem stKey_eq_iff (h : OwnLists self) (hmem : target ∈ self.targets type)
    (hkey : key ∈ listKeys type) (hwrite : write ∈ self.confWrites order) :
    write.stKey = stKeyOf target key.extension ↔
      (write.targetPath, write.keyExtension) = (target, key.extension) := by
  obtain ⟨otherKey, hextension, hwrites⟩ := writes_of_mem hwrite
  have hwell := h.wellFormed target key (Or.inl ⟨type, hmem, hkey⟩)
  have hotherWell := h.wellFormed _ otherKey hwrites
  have hstKey : write.stKey = stKeyOf write.targetPath otherKey.extension := by
    rw [← hextension]
    rfl
  rw [hstKey, hextension, stKeyOf_eq_iff hotherWell hwell, Prod.mk.injEq]
  refine ⟨fun hfull => ?_, fun ⟨htarget, hext⟩ => by rw [htarget, hext]⟩
  by_cases huuid : key = .uuid
  · subst huuid
    obtain ⟨san, rfl⟩ : ∃ san, type = .san san := by
      cases type with
      | nas nas => cases nas <;> exact absurd hkey (by decide)
      | san san => exact ⟨san, rfl⟩
    by_cases hother : otherKey = .uuid
    · subst hother
      exact ⟨target_of_append hfull, rfl⟩
    · refine absurd ?_ (h.noClash target san hmem _ otherKey hother hwrites)
      exact (String.append_empty).symm.trans hfull.symm
  · by_cases hother : otherKey = .uuid
    · subst hother
      rcases hwrites with ⟨other, hotherMem, hotherKey⟩ | ⟨_, hpath⟩
      · obtain ⟨san, rfl⟩ : ∃ san, other = .san san := by
          cases other with
          | nas nas => cases nas <;> exact absurd hotherKey (by decide)
          | san san => exact ⟨san, rfl⟩
        refine absurd ?_ (h.noClash _ san hotherMem target key huuid
          (Or.inl ⟨type, hmem, hkey⟩))
        exact (String.append_empty).symm.trans hfull
      · cases hpath
    · obtain ⟨htarget, rfl⟩ := append_extension_inj hother huuid hfull
      exact ⟨htarget, rfl⟩

/-- With lists of their own, the devices of a target have exactly their data under the keys
of the target. -/
theorem valuesAt_of_ownLists (h : OwnLists self) (hmem : target ∈ self.targets type)
    (hkey : key ∈ listKeys type) :
    valuesAt (keyed (self.confWrites order)) (stKeyOf target key.extension) =
      (self.devicesFor order target).filterMap (Device.data key) := by
  have hown : valuesAt (keyed (self.confWrites order)) (stKeyOf target key.extension) =
      valuesAt (ownKeyed (self.confWrites order)) (target, key.extension) :=
    valuesAt_map_congr fun write hwrite => stKey_eq_iff h hmem hkey hwrite
  have hlocal : valuesAt (ownKeyed (self.localTargets.map self.localWrite))
      (target, key.extension) = [] := by
    apply valuesAt_eq_nil
    intro entry hentry heq
    obtain ⟨write, hwrite, rfl⟩ := List.mem_map.mp hentry
    obtain ⟨other, hother, rfl⟩ := List.mem_map.mp hwrite
    obtain rfl : other = target := congrArg Prod.fst heq
    obtain rfl : ListKey.path = key := extension_injective (congrArg Prod.snd heq)
    cases type with
    | nas nas => exact h.notLocal other nas hmem hother
    | san san => cases san <;> exact absurd hkey (by decide)
  rw [hown]
  unfold StorageUtils.confWrites ownKeyed at hlocal ⊢
  rw [List.map_append, valuesAt_append, hlocal, List.append_nil]
  exact valuesAt_netWrites

/-! ## What the update has to leave -/

/-- The update returns, a second one changes nothing, and the lists of each target that any
of its devices has data for are aligned. -/
def UpdatedRight (order : List DevType) (self : StorageUtils) (config : Config) : Prop :=
  ∃ result, updateConfFile order self config = .ok result ∧
    updateConfFile order self result = .ok result ∧
      ∀ target key,
        (∃ device ∈ self.devicesFor order target, (device.data key).isSome = true) →
          ∃ values, result (stKeyOf target key.extension) = some (stored values) ∧
            IsAligned (self.devicesFor order target) key values

theorem mem_stKeys (hall : ∀ type : DevType, type ∈ order) (h : Writes self target key) :
    stKeyOf target key.extension ∈ stKeys (self.confWrites order) := by
  obtain ⟨write, hmem, rfl, hextension⟩ := exists_write hall h
  rw [← hextension]
  exact List.mem_map_of_mem hmem

theorem updated_updated (writes : List ConfWrite) (config : Config) :
    updated writes (updated writes config) = updated writes config :=
  overwrite_overwrite _ _ _ _

/-- What is stored under the key of a list. -/
theorem updated_stKeyOf (hall : ∀ type : DevType, type ∈ order) (h : Writes self target key)
    (config : Config) :
    updated (self.confWrites order) config (stKeyOf target key.extension) =
      some (stored (valuesAt (keyed (self.confWrites order))
        (stKeyOf target key.extension))) :=
  overwrite_of_mem (mem_stKeys hall h)

end

section

variable {setUp : SetUp} {order : List DevType} {config : Config} {type : DevType}
  {target : String} {key : ListKey}

/-- The lists of a target in a run that is right are the values that are written. -/
theorem aligned_of_updatedRight (hall : ∀ type : DevType, type ∈ order)
    (h : UpdatedRight order setUp.utils config) (hmem : target ∈ setUp.utils.targets type)
    (hkey : key ∈ listKeys type) :
    IsAligned (setUp.utils.devicesFor order target) key
      (valuesAt (keyed (setUp.utils.confWrites order)) (stKeyOf target key.extension)) := by
  obtain ⟨result, hrun, _, haligned⟩ := h
  obtain ⟨_, rfl⟩ := (updateConfFile_eq_ok_iff setUp).mp hrun
  obtain ⟨device, hdevice⟩ := exists_device hmem
  have htype := type_of_mem_devicesAt hdevice
  obtain ⟨values, hvalues, hlist⟩ := haligned target key
    ⟨device, mem_devicesFor.mpr ⟨hall _, htype ▸ hdevice⟩,
      data_isSome_iff.mpr (htype ▸ hkey)⟩
  rw [updated_stKeyOf hall (Or.inl ⟨type, hmem, hkey⟩)] at hvalues
  rw [stored_injective (Option.some.inj hvalues)]
  exact hlist

/-- A value that is written for a list is found under its key. -/
theorem valuesAt_stKeyOf_ne_nil (hall : ∀ type : DevType, type ∈ order)
    (h : Writes setUp.utils target key) :
    valuesAt (keyed (setUp.utils.confWrites order)) (stKeyOf target key.extension) ≠ [] := by
  obtain ⟨write, hmem, rfl, hextension⟩ := exists_write hall h
  rw [← hextension]
  exact valuesAt_ne_nil (@List.mem_map_of_mem _ _ _ _ (fun write : ConfWrite =>
    (write.stKey, write.keyValue)) hmem) (keyValue_ne_nil hmem)

/-- A type that goes first, and then the others. -/
theorem exists_order (type : DevType) (htypes : ∀ type : DevType, type ∈ devTypes) :
    ∃ rest, (type :: rest).Perm devTypes :=
  ⟨devTypes.erase type, (List.perm_cons_erase (htypes type)).symm⟩

theorem mem_devTypes (type : DevType) : type ∈ devTypes := by
  cases type with
  | nas type => cases type <;> decide
  | san type => cases type <;> decide

theorem mem_of_perm (h : order.Perm devTypes) (type : DevType) : type ∈ order :=
  h.mem_iff.mpr (mem_devTypes type)

theorem listKeys_ext {other : DevType} (h : ∀ key, key ∈ listKeys type ↔ key ∈ listKeys other) :
    listKeys type = listKeys other := by
  have hpath := h .path
  have hreal := h .realStorageType
  rcases type with nas | san <;> rcases other with nas' | san'
  · cases nas <;> cases nas' <;> first | rfl | exact absurd hreal (by decide)
  · cases nas <;> cases san' <;> exact absurd hpath (by decide)
  · cases san <;> cases nas' <;> exact absurd hpath (by decide)
  · cases san <;> cases san' <;> rfl

/-- Where the lists are aligned in every order, a list of one type on a target is a list of
the others there. -/
theorem mem_listKeys_of_updatedRight
    (h : ∀ order : List DevType, order.Perm devTypes → UpdatedRight order setUp.utils config)
    {other : DevType} (hmem : target ∈ setUp.utils.targets type)
    (hother : target ∈ setUp.utils.targets other) (hkey : key ∈ listKeys type) :
    key ∈ listKeys other := by
  by_contra hout
  obtain ⟨rest, hperm⟩ := exists_order other mem_devTypes
  have hall := mem_of_perm hperm
  have haligned := aligned_of_updatedRight hall (h _ hperm) hmem hkey
  refine valuesAt_stKeyOf_ne_nil hall (Or.inl ⟨type, hmem, hkey⟩) ?_
  -- the type without the list goes first, so that the first device has nothing for it
  obtain ⟨device, devices, hdevices⟩ :=
    List.exists_cons_of_ne_nil (mem_targets_iff.mp hother)
  unfold StorageUtils.devicesFor at haligned
  rw [List.flatMap_cons, hdevices, List.cons_append] at haligned
  refine haligned.eq_nil ?_
  rw [← Option.not_isSome_iff_eq_none, data_isSome_iff]
  have hdevice : device ∈ setUp.utils.devicesAt target other :=
    hdevices ▸ List.mem_cons_self
  rw [type_of_mem_devicesAt hdevice]
  exact hout

/-- Nothing but the data of its devices is under the key of a list. -/
theorem length_valuesAt_of_updatedRight
    (h : ∀ order : List DevType, order.Perm devTypes → UpdatedRight order setUp.utils config)
    (hmem : target ∈ setUp.utils.targets type) (hkey : key ∈ listKeys type) :
    (valuesAt (keyed (setUp.utils.confWrites devTypes)) (stKeyOf target key.extension)).length ≤
      (valuesAt (ownKeyed (setUp.utils.netWrites devTypes)) (target, key.extension)).length := by
  have haligned := aligned_of_updatedRight mem_devTypes (h _ (List.Perm.refl _)) hmem hkey
  refine Nat.le_trans haligned.length_le (Nat.le_of_eq ?_)
  rw [valuesAt_netWrites, List.length_filterMap_eq_countP, eq_comm, List.countP_eq_length]
  intro device hdevice
  rw [data_isSome_iff]
  exact mem_listKeys_of_updatedRight h hmem (mem_targets_of_mem_devicesFor hdevice) hkey

/-- The values under a key are those for the servers and those for local storage. -/
theorem valuesAt_confWrites (stKey : String × String) :
    valuesAt (keyed (setUp.utils.confWrites order)) stKey =
      valuesAt (keyed (setUp.utils.netWrites order)) stKey ++
        valuesAt (keyed (setUp.utils.localTargets.map setUp.utils.localWrite)) stKey := by
  unfold StorageUtils.confWrites keyed
  rw [List.map_append, valuesAt_append]

theorem stKey_of_own {write : ConfWrite} {extension : String}
    (h : (write.targetPath, write.keyExtension) = (target, extension)) :
    write.stKey = stKeyOf target extension := by
  obtain ⟨rfl, rfl⟩ := Prod.mk.inj h
  rfl

/-- No local list is under the key of a list. -/
theorem not_local_of_updatedRight
    (h : ∀ order : List DevType, order.Perm devTypes → UpdatedRight order setUp.utils config)
    (hmem : target ∈ setUp.utils.targets type) (hkey : key ∈ listKeys type) {other : String}
    (hother : other ∈ setUp.utils.localTargets)
    (hstKey : stKeyOf other "_path" = stKeyOf target key.extension) : False := by
  have hlength := length_valuesAt_of_updatedRight h hmem hkey
  have hlocal : valuesAt (keyed (setUp.utils.localTargets.map setUp.utils.localWrite))
      (stKeyOf target key.extension) ≠ [] := by
    rw [← hstKey]
    have hwrite : setUp.utils.localWrite other ∈
        setUp.utils.localTargets.map setUp.utils.localWrite := List.mem_map_of_mem hother
    exact valuesAt_ne_nil (@List.mem_map_of_mem _ _ _ _ (fun write : ConfWrite =>
      (write.stKey, write.keyValue)) hwrite)
        (@keyValue_ne_nil setUp.utils devTypes _ (List.mem_append_right _ hwrite))
  have hpos := List.length_pos_of_ne_nil hlocal
  have hnet : (valuesAt (ownKeyed (setUp.utils.netWrites devTypes))
      (target, key.extension)).length ≤
        (valuesAt (keyed (setUp.utils.netWrites devTypes))
          (stKeyOf target key.extension)).length :=
    length_valuesAt_le fun write _ hown => stKey_of_own hown
  rw [valuesAt_confWrites, List.length_append] at hlength
  omega

/-- No other list is under the key of a list. -/
theorem not_clash_of_updatedRight
    (h : ∀ order : List DevType, order.Perm devTypes → UpdatedRight order setUp.utils config)
    (hmem : target ∈ setUp.utils.targets type) (hkey : key ∈ listKeys type) {other : String}
    {otherType : DevType} {otherKey : ListKey} (hother : other ∈ setUp.utils.targets otherType)
    (hotherKey : otherKey ∈ listKeys otherType) (hne : otherKey ≠ key)
    (hstKey : stKeyOf other otherKey.extension = stKeyOf target key.extension) : False := by
  have hlength := length_valuesAt_of_updatedRight h hmem hkey
  have hwrite : (⟨other, otherKey.extension, setUp.utils.listOf otherType other otherKey⟩ :
      ConfWrite) ∈ setUp.utils.netWrites devTypes :=
    mem_netWrites.mpr ⟨otherType, mem_devTypes otherType, other, hother, otherKey, hotherKey, rfl⟩
  have hnet : (valuesAt (ownKeyed (setUp.utils.netWrites devTypes))
      (target, key.extension)).length <
        (valuesAt (keyed (setUp.utils.netWrites devTypes))
          (stKeyOf target key.extension)).length := by
    refine length_valuesAt_lt (fun write _ hown => stKey_of_own hown) hwrite ?_ hstKey
      (keyValue_ne_nil (List.mem_append_left _ hwrite))
    exact fun heq => hne (extension_injective (congrArg Prod.snd heq))
  rw [valuesAt_confWrites, List.length_append] at hlength
  omega

/-- In runs that are right in every order, the targets have lists of their own. -/
theorem ownLists_of_updatedRight
    (h : ∀ order : List DevType, order.Perm devTypes → UpdatedRight order setUp.utils config) :
    OwnLists setUp.utils := by
  have hwell : ∀ target key, Writes setUp.utils target key → WellFormed target := by
    obtain ⟨result, hrun, _⟩ := h _ (List.Perm.refl _)
    exact (allWellFormed_iff mem_devTypes).mp ((updateConfFile_eq_ok_iff setUp).mp hrun).1
  have huuid : ∀ san : SanType, ListKey.uuid ∈ listKeys (.san san) := fun san => by
    cases san <;> decide
  refine ⟨hwell, fun target type other hmem hother => ?_, fun target nas hmem hlocal => ?_,
    fun target san hmem other key hne hwrites hclash => ?_⟩
  · exact listKeys_ext fun key => ⟨mem_listKeys_of_updatedRight h hmem hother,
      mem_listKeys_of_updatedRight h hother hmem⟩
  · have hpath : ListKey.path ∈ listKeys (.nas nas) := by cases nas <;> decide
    exact not_local_of_updatedRight h hmem hpath hlocal rfl
  · have hstKey : stKeyOf other key.extension = stKeyOf target ListKey.uuid.extension := by
      rw [stKeyOf_eq_iff (hwell _ _ hwrites) (hwell _ _ (Or.inl ⟨_, hmem, huuid san⟩)), ← hclash]
      exact String.append_empty.symm
    rcases hwrites with ⟨otherType, hother, hkey⟩ | ⟨hlocal, rfl⟩
    · exact not_clash_of_updatedRight h hmem (huuid san) hother hkey hne hstKey
    · exact not_local_of_updatedRight h hmem (huuid san) hlocal hstKey

/-- Targets with lists of their own are updated right. -/
theorem updatedRight_of_ownLists (hall : ∀ type : DevType, type ∈ order)
    (h : OwnLists setUp.utils) : UpdatedRight order setUp.utils config := by
  have hwell := (allWellFormed_iff hall).mpr h.wellFormed
  refine ⟨_, (updateConfFile_eq_ok_iff setUp).mpr ⟨hwell, rfl⟩,
    (updateConfFile_eq_ok_iff setUp).mpr ⟨hwell, (updated_updated _ _).symm⟩, ?_⟩
  rintro target key ⟨device, hdevice, hdata⟩
  have hmem := mem_targets_of_mem_devicesFor hdevice
  have hkey := data_isSome_iff.mp hdata
  refine ⟨_, updated_stKeyOf hall (Or.inl ⟨device.type, hmem, hkey⟩) config, ?_⟩
  rw [valuesAt_of_ownLists h hmem hkey]
  apply isAligned_filterMap
  intro other hother
  rw [data_isSome_iff, h.sameLists target other.type device.type
    (mem_targets_of_mem_devicesFor hother) hmem]
  exact hkey

end

/-- The lists of all targets are aligned, whatever the order of the types, exactly if the
targets have lists of their own. -/
theorem updatedRight_iff_ownLists (setUp : SetUp) (config : Config) :
    (∀ order : List DevType, order.Perm devTypes → UpdatedRight order setUp.utils config) ↔
      OwnLists setUp.utils :=
  ⟨ownLists_of_updatedRight, fun h _ hperm => updatedRight_of_ownLists (mem_of_perm hperm) h⟩

/-- One nfs and one iso device for the target of the data domains. -/
def nfsWithIso : StorageUtils where
  storageType := "none"
  realStorageType := "mixed"
  loadBalancing := ""
  isoExportDomainNas := some "nfs"
  hostGroup := "group"
  vdsData := []
  storages
    | .nas .nfs => AList.singleton "PARAMETERS.data_domain" { ip := some "10.0.0.1", total := 1 }
    | .nas .isoDomain =>
      AList.singleton "PARAMETERS.data_domain" { ip := some "10.0.0.2", total := 1 }
    | _ => ∅
  localStorages := ∅
  paths
    | .nfs => AList.singleton "PARAMETERS.data_domain" ["/nfs1"]
    | .isoDomain => AList.singleton "PARAMETERS.data_domain" ["/iso1"]
    | _ => ∅

theorem nfsWithIso_directories (type : NasType) (target : String) (devices : List String)
    (h : (nfsWithIso.paths type).lookup target = some devices) :
    ∃ params, (nfsWithIso.storages (.nas type)).lookup target = some params ∧
      params.total = devices.length := by
  have hentry := AList.mem_lookup_iff.mp h
  cases type with
  | nfs =>
    cases List.mem_singleton.mp hentry
    exact ⟨_, rfl, rfl⟩
  | isoDomain =>
    cases List.mem_singleton.mp hentry
    exact ⟨_, rfl, rfl⟩
  | gluster => cases hentry
  | pnfs => cases hentry
  | exportDomain => cases hentry

/-- The real storage types of a target with an iso device are not aligned. -/
theorem iso_not_aligned :
    ¬ ∀ (setUp : SetUp) (config : Config) (order : List DevType), order.Perm devTypes →
      UpdatedRight order setUp.utils config := by
  intro hall
  have h := @ownLists_of_updatedRight
    ⟨nfsWithIso, nfsWithIso_directories, fun _ _ _ h => by cases h⟩ (fun _ => none)
    fun order => hall _ _ order
  have hsame := h.sameLists "PARAMETERS.data_domain" (.nas .nfs) (.nas .isoDomain)
    (by decide) (by decide)
  exact absurd hsame (by decide)

end OvirtArt.Storage.Wrapper
