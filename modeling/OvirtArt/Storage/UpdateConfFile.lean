import OvirtArt.Foundation.Collecting
import OvirtArt.Foundation.KeyedWrites
import OvirtArt.Foundation.Splitting
import OvirtArt.Storage.StorageWrapper

set_option autoImplicit false

/-!
# `StorageUtils.updateConfFile`: the devices in the configuration

The data of the devices are written into lists of the configuration, in three passes over
the types of devices: the lists are emptied, filled, and those with one element replaced
by it.  Which lists are aligned then depends on which devices share a target.

A configuration is a table from sections and keys to texts and lists.  The parser of the file, and
scalars at its root, are left out.
-/

namespace OvirtArt.Storage.Wrapper

open OvirtArt.Foundation

/-! ## The configuration -/

/-- A value of the configuration: one value, which may be missing, or a list. -/
inductive ConfValue where
  | scalar (value : Option String)
  | list (values : List (Option String))
  deriving DecidableEq

/-- A configuration, by sections and keys. -/
abbrev Config := String × String → Option ConfValue

/-- What writing the configuration raises. -/
inductive ConfError where
  | keyError
  | valueError
  | typeError
  | attributeError
  deriving DecidableEq

/-- The three passes, by the flags of `_updateConfFile`. -/
inductive Pass where
  | cleanUpConf
  | fill
  | backwardCompatibilityCheck
  deriving DecidableEq

/-- `targetConfSection, targetConfKey = targetPath.split('.')`. -/
def splitTargetPath (targetPath : String) : Except ConfError (String × String) :=
  match splitAll '.' targetPath.toList with
  | [targetConfSection, targetConfKey] =>
    .ok (String.ofList targetConfSection, String.ofList targetConfKey)
  | _ => .error .valueError

/-- What a pass makes of the value under a key. -/
def passValue (pass : Pass) (keyValue : List (Option String)) :
    Option ConfValue → Except ConfError ConfValue :=
  match pass with
  | .cleanUpConf => fun _ => .ok (.list [])
  | .fill => fun
      | none => .ok (.list keyValue)
      | some (.scalar none) => .ok (.list keyValue)
      | some (.scalar (some _)) => .error .attributeError
      | some (.list values) => .ok (.list (values ++ keyValue))
  | .backwardCompatibilityCheck => fun
      | none => .error .keyError
      | some (.scalar none) => .error .typeError
      | some (.scalar (some text)) => .ok (.scalar (some text))
      | some (.list [value]) => .ok (.scalar value)
      | some (.list values) => .ok (.list values)

/-- `setConfValueByKeyPath`; the first character of a text of one character is the text. -/
def setConfValueByKeyPath (config : Config) (targetPath : String)
    (keyValue : List (Option String)) (keyExtension : String) (pass : Pass) :
    Except ConfError Config := do
  let (targetConfSection, targetConfKey) ← splitTargetPath targetPath
  let stKey := (targetConfSection, targetConfKey ++ keyExtension)
  let value ← passValue pass keyValue (config stKey)
  return Function.update config stKey (some value)

/-! ## The passes -/

namespace StorageUtils

/-- The keys of `filterNonEmptyDicts`. -/
def nonEmptyKeys {δ : Type} (devices : Sections (List δ)) : List String :=
  (devices.entries.filter fun entry => !entry.2.isEmpty).map Sigma.fst

/-- The targets of the devices of a type. -/
def targets (self : StorageUtils) : DevType → List String
  | .nas type => nonEmptyKeys (self.paths type)
  | .san type => nonEmptyKeys (self.luns type)

/-- The targets of the devices of local storage. -/
def localTargets (self : StorageUtils) : List String := nonEmptyKeys self.localPaths

end StorageUtils

/-- The types for which `_real_storage_type` is written. -/
def hasRealStorageType (type : NasType) : Bool := type ∉ [NasType.isoDomain, .exportDomain]

/-- The body of the inner loop of `_updateConfFile`. -/
def updateTarget (pass : Pass) (self : StorageUtils) (type : DevType) (config : Config)
    (target : String) : Except ConfError Config :=
  match (self.storages type).lookup target with
  | none => .error .keyError
  | some targetData => do
      let address := List.replicate targetData.total targetData.ip
      let config ← setConfValueByKeyPath config target address "_address" pass
      match type with
      | .nas nasType => do
          let path := ((self.paths nasType).lookup target).getD []
          let config ← setConfValueByKeyPath config target (path.map some) "_path" pass
          if hasRealStorageType nasType then
            let storageTypes := List.replicate targetData.total (some nasType.name)
            setConfValueByKeyPath config target storageTypes "_real_storage_type" pass
          else return config
      | .san sanType => do
          let devices := ((self.luns sanType).lookup target).getD []
          let scsiTarget := devices.map fun device => some device.target
          let config ← setConfValueByKeyPath config target scsiTarget "_target" pass
          let scsiLun := devices.map fun device => some device.uuid
          setConfValueByKeyPath config target scsiLun "" pass

/-- The loop over the local domains. -/
def updateLocalTarget (pass : Pass) (self : StorageUtils) (config : Config) (target : String) :
    Except ConfError Config :=
  setConfValueByKeyPath config target (((self.localPaths.lookup target).getD []).map some) "_path"
    pass

/-- `_updateConfFile`, which goes through the types in the order of a dictionary. -/
def updatePass (order : List DevType) (pass : Pass) (self : StorageUtils) (config : Config) :
    Except ConfError Config := do
  let config ← order.foldlM (fun config type =>
    (self.targets type).foldlM (updateTarget pass self type) config) config
  self.localTargets.foldlM (updateLocalTarget pass self) config

/-- `updateConfFile`. -/
def updateConfFile (order : List DevType) (self : StorageUtils) (config : Config) :
    Except ConfError Config := do
  let config ← updatePass order .cleanUpConf self config
  let config ← updatePass order .fill self config
  updatePass order .backwardCompatibilityCheck self config

/-! ## The writes of a pass -/

/-- A call of `setConfValueByKeyPath`. -/
structure ConfWrite where
  targetPath : String
  keyExtension : String
  keyValue : List (Option String)

/-- A target path that names a section and a key. -/
def WellFormed (targetPath : String) : Prop := targetPath.toList.count '.' = 1

instance (targetPath : String) : Decidable (WellFormed targetPath) :=
  inferInstanceAs (Decidable (_ = _))

/-- What stands before and after the point of a target path. -/
def place (targetPath : String) : String × String :=
  match splitAll '.' targetPath.toList with
  | [targetConfSection, targetConfKey] =>
    (String.ofList targetConfSection, String.ofList targetConfKey)
  | _ => ("", "")

theorem splitTargetPath_of_wellFormed {targetPath : String} (h : WellFormed targetPath) :
    splitTargetPath targetPath = .ok (place targetPath) := by
  have hlength := length_splitAll '.' targetPath.toList
  rw [show targetPath.toList.count '.' = 1 from h] at hlength
  unfold splitTargetPath place
  match hpieces : splitAll '.' targetPath.toList, hlength with
  | [targetConfSection, targetConfKey], _ => rfl

theorem wellFormed_of_splitTargetPath {targetPath : String} {parts : String × String}
    (h : splitTargetPath targetPath = .ok parts) : WellFormed targetPath := by
  have hlength := length_splitAll '.' targetPath.toList
  unfold splitTargetPath at h
  split at h
  case h_1 hpieces =>
    rw [hpieces] at hlength
    exact (Nat.succ.inj hlength).symm
  case h_2 => cases h

/-- The key of the configuration that a call writes. -/
def ConfWrite.stKey (write : ConfWrite) : String × String :=
  ((place write.targetPath).1, (place write.targetPath).2 ++ write.keyExtension)

/-- A call writes under its key what its pass makes of the value there. -/
def ConfWrite.run (pass : Pass) (config : Config) (write : ConfWrite) : Except ConfError Config :=
  setConfValueByKeyPath config write.targetPath write.keyValue write.keyExtension pass

variable {writes : List ConfWrite} {config : Config} {write : ConfWrite}

theorem ConfWrite.run_eq_ok_iff {pass : Pass} {updated : Config} :
    write.run pass config = .ok updated ↔
      WellFormed write.targetPath ∧ ∃ value,
        passValue pass write.keyValue (config write.stKey) = .ok value ∧
          updated = Function.update config write.stKey (some value) := by
  unfold ConfWrite.run setConfValueByKeyPath
  simp only [bind]
  rw [bind_eq_ok_iff]
  constructor
  · rintro ⟨parts, hparts, hrest⟩
    have hwell := wellFormed_of_splitTargetPath hparts
    rw [splitTargetPath_of_wellFormed hwell] at hparts
    obtain rfl := Except.ok.inj hparts
    obtain ⟨value, hvalue, hupdated⟩ := bind_eq_ok_iff.mp hrest
    exact ⟨hwell, value, hvalue, (Except.ok.inj hupdated).symm⟩
  · rintro ⟨hwell, value, hvalue, rfl⟩
    exact ⟨_, splitTargetPath_of_wellFormed hwell,
      bind_eq_ok_iff.mpr ⟨value, hvalue, rfl⟩⟩

/-- A pass that makes its calls one after the other. -/
def runWrites (pass : Pass) (writes : List ConfWrite) (config : Config) :
    Except ConfError Config := writes.foldlM (ConfWrite.run pass) config

theorem runWrites_cons_iff {pass : Pass} {updated : Config} :
    runWrites pass (write :: writes) config = .ok updated ↔
      WellFormed write.targetPath ∧ ∃ value,
        passValue pass write.keyValue (config write.stKey) = .ok value ∧
          runWrites pass writes (Function.update config write.stKey (some value)) =
            .ok updated := by
  unfold runWrites
  rw [List.foldlM_cons]
  refine bind_eq_ok_iff.trans ?_
  simp only [ConfWrite.run_eq_ok_iff]
  constructor
  · rintro ⟨_, ⟨hwell, value, hvalue, rfl⟩, hrest⟩
    exact ⟨hwell, value, hvalue, hrest⟩
  · rintro ⟨hwell, value, hvalue, hrest⟩
    exact ⟨_, ⟨hwell, value, hvalue, rfl⟩, hrest⟩

/-- The keys of the configuration that are written, and what is written there. -/
def keyed (writes : List ConfWrite) : List ((String × String) × List (Option String)) :=
  writes.map fun write => (write.stKey, write.keyValue)

/-- The keys that are written. -/
def stKeys (writes : List ConfWrite) : List (String × String) := writes.map ConfWrite.stKey

theorem map_fst_keyed (writes : List ConfWrite) :
    (keyed writes).map Prod.fst = stKeys writes := by
  unfold keyed stKeys
  rw [List.map_map]
  rfl

/-- All calls have a well formed target. -/
def AllWellFormed (writes : List ConfWrite) : Prop :=
  ∀ write ∈ writes, WellFormed write.targetPath

theorem allWellFormed_cons :
    AllWellFormed (write :: writes) ↔ WellFormed write.targetPath ∧ AllWellFormed writes :=
  List.forall_mem_cons

/-- A configuration with other values under some of the keys. -/
def overwrite (keys : List (String × String)) (value : String × String → ConfValue)
    (config : Config) : Config := fun stKey =>
  if stKey ∈ keys then some (value stKey) else config stKey

theorem overwrite_of_mem {keys : List (String × String)} {value : String × String → ConfValue}
    {stKey : String × String} (h : stKey ∈ keys) :
    overwrite keys value config stKey = some (value stKey) := if_pos h

theorem overwrite_update {keys : List (String × String)} {value : String × String → ConfValue}
    {config : Config} {stKey : String × String} {first : ConfValue}
    (h : stKey ∉ keys → first = value stKey) :
    overwrite keys value (Function.update config stKey (some first)) =
      overwrite (stKey :: keys) value config := by
  funext other
  unfold overwrite
  by_cases hother : other ∈ keys
  · rw [if_pos hother, if_pos (List.mem_cons_of_mem _ hother)]
  · rw [if_neg hother]
    by_cases heq : other = stKey
    · subst heq
      rw [Function.update_self, if_pos List.mem_cons_self, h hother]
    · rw [Function.update_of_ne heq, if_neg]
      exact fun hmem => (List.mem_cons.mp hmem).elim heq hother

/-- The first pass empties the lists. -/
theorem runWrites_cleanUpConf_iff {updated : Config} :
    runWrites .cleanUpConf writes config = .ok updated ↔
      AllWellFormed writes ∧ updated = overwrite (stKeys writes) (fun _ => .list []) config := by
  induction writes generalizing config with
  | nil =>
    refine ⟨fun h => ⟨fun _ hmem => absurd hmem List.not_mem_nil, (Except.ok.inj h).symm⟩, ?_⟩
    rintro ⟨_, rfl⟩
    rfl
  | cons write writes ih =>
    rw [runWrites_cons_iff, allWellFormed_cons, and_assoc]
    refine and_congr_right fun _ => ?_
    have hover := @overwrite_update (stKeys writes) (fun _ => .list []) config write.stKey
      (.list []) fun _ => rfl
    constructor
    · rintro ⟨value, hvalue, hrest⟩
      obtain rfl := Except.ok.inj hvalue
      rw [ih, hover] at hrest
      exact hrest
    · intro h
      refine ⟨.list [], rfl, ?_⟩
      rw [ih, hover]
      exact h

/-- Where there are lists, the second pass fills them. -/
theorem runWrites_fill {writes : List ConfWrite} {config : Config}
    (hwell : AllWellFormed writes) {values : String × String → List (Option String)}
    (hlists : ∀ stKey ∈ stKeys writes, config stKey = some (.list (values stKey))) :
    runWrites .fill writes config =
      .ok (overwrite (stKeys writes)
        (fun stKey => .list (values stKey ++ valuesAt (keyed writes) stKey)) config) := by
  induction writes generalizing config values with
  | nil => rfl
  | cons write writes ih =>
    obtain ⟨hfirst, hrest⟩ := allWellFormed_cons.mp hwell
    have hconfig := hlists write.stKey List.mem_cons_self
    refine runWrites_cons_iff.mpr
      ⟨hfirst, .list (values write.stKey ++ write.keyValue), by rw [hconfig]; rfl, ?_⟩
    obtain ⟨filled, hself, hothers⟩ : ∃ filled : String × String → List (Option String),
        filled write.stKey = values write.stKey ++ write.keyValue ∧
          ∀ stKey ≠ write.stKey, filled stKey = values stKey :=
      ⟨Function.update values write.stKey (values write.stKey ++ write.keyValue),
        Function.update_self _ _ _, fun _ hne => Function.update_of_ne hne _ _⟩
    have hfilled : ∀ stKey ∈ stKeys writes,
        Function.update config write.stKey
          (some (.list (values write.stKey ++ write.keyValue))) stKey =
            some (.list (filled stKey)) := by
      intro stKey hmem
      by_cases heq : stKey = write.stKey
      · rw [heq, Function.update_self, hself]
      · rw [Function.update_of_ne heq, hothers stKey heq]
        exact hlists stKey (List.mem_cons_of_mem _ hmem)
    rw [ih hrest hfilled]
    have hvalues : ∀ stKey, values stKey ++ valuesAt (keyed (write :: writes)) stKey =
        filled stKey ++ valuesAt (keyed writes) stKey := by
      intro stKey
      unfold keyed
      rw [List.map_cons, valuesAt_cons]
      by_cases heq : write.stKey = stKey
      · subst heq
        rw [if_pos rfl, hself, List.append_assoc]
      · rw [if_neg heq, hothers stKey (Ne.symm heq), List.nil_append]
    simp only [stKeys, List.map_cons, hvalues]
    refine congrArg Except.ok (overwrite_update fun hout => ?_)
    have hnone : valuesAt (keyed writes) write.stKey = [] := by
      refine valuesAt_eq_nil fun entry hmem heq => hout ?_
      obtain ⟨other, hother, rfl⟩ := List.mem_map.mp hmem
      exact heq ▸ List.mem_map_of_mem hother
    rw [hnone, List.append_nil, hself]

/-- How a list is stored: one element as itself. -/
def stored : List (Option String) → ConfValue
  | [value] => .scalar value
  | values => .list values

theorem stored_injective {first second : List (Option String)}
    (h : stored first = stored second) : first = second := by
  unfold stored at h
  split at h <;> split at h <;> simp_all

/-- What the last pass makes of a list. -/
theorem passValue_stored (keyValue values : List (Option String)) :
    passValue .backwardCompatibilityCheck keyValue (some (.list values)) =
      .ok (stored values) := by
  match values with
  | [] => rfl
  | [_] => rfl
  | _ :: _ :: _ => rfl

theorem stored_of_two_le {values : List (Option String)} (h : 2 ≤ values.length) :
    stored values = .list values := by
  match values with
  | [] => rfl
  | [_] => exact absurd h (Nat.not_succ_le_self 1)
  | _ :: _ :: _ => rfl

/-- The last pass stores the lists, where those that are gone through more than once have
more than one element. -/
theorem runWrites_backwardCompatibilityCheck {writes : List ConfWrite} {config : Config}
    (hwell : AllWellFormed writes) {values : String × String → List (Option String)}
    (hlists : ∀ stKey ∈ stKeys writes, config stKey = some (.list (values stKey)))
    (hlength : ∀ stKey, (stKeys writes).count stKey ≤ (values stKey).length) :
    runWrites .backwardCompatibilityCheck writes config =
      .ok (overwrite (stKeys writes) (fun stKey => stored (values stKey)) config) := by
  induction writes generalizing config with
  | nil => rfl
  | cons write writes ih =>
    obtain ⟨hfirst, hrest⟩ := allWellFormed_cons.mp hwell
    refine runWrites_cons_iff.mpr ⟨hfirst, stored (values write.stKey), ?_, ?_⟩
    · rw [hlists write.stKey List.mem_cons_self, passValue_stored]
    have hlists' : ∀ stKey ∈ stKeys writes,
        Function.update config write.stKey (some (stored (values write.stKey))) stKey =
          some (.list (values stKey)) := by
      intro stKey hmem
      by_cases heq : stKey = write.stKey
      · subst heq
        have htwo : 2 ≤ (values write.stKey).length := by
          refine Nat.le_trans ?_ (hlength write.stKey)
          unfold stKeys at hmem ⊢
          rw [List.map_cons, List.count_cons_self]
          exact Nat.succ_le_succ (List.count_pos_iff.mpr hmem)
        rw [Function.update_self, stored_of_two_le htwo]
      · rw [Function.update_of_ne heq]
        exact hlists stKey (List.mem_cons_of_mem _ hmem)
    have hlength' : ∀ stKey, (stKeys writes).count stKey ≤ (values stKey).length := by
      intro stKey
      refine Nat.le_trans ?_ (hlength stKey)
      unfold stKeys
      rw [List.map_cons]
      exact List.count_le_count_cons
    rw [ih hrest hlists' hlength']
    exact congrArg Except.ok (overwrite_update fun _ => rfl)

/-- What the three passes leave of a configuration. -/
def updated (writes : List ConfWrite) (config : Config) : Config :=
  overwrite (stKeys writes) (fun stKey => stored (valuesAt (keyed writes) stKey)) config

theorem overwrite_overwrite (keys : List (String × String))
    (value other : String × String → ConfValue) (config : Config) :
    overwrite keys value (overwrite keys other config) = overwrite keys value config := by
  funext stKey
  unfold overwrite
  split <;> rfl

theorem count_stKeys_le (hfull : ∀ write ∈ writes, write.keyValue ≠ []) (stKey : String × String) :
    (stKeys writes).count stKey ≤ (valuesAt (keyed writes) stKey).length := by
  rw [← map_fst_keyed]
  apply count_le_length_valuesAt
  intro entry hmem
  obtain ⟨write, hwrite, rfl⟩ := List.mem_map.mp hmem
  exact hfull write hwrite

/-- The three passes return exactly if all targets are well formed. -/
theorem runWrites_passes_iff {result : Config} (hfull : ∀ write ∈ writes, write.keyValue ≠ []) :
    (∃ cleaned filled, runWrites .cleanUpConf writes config = .ok cleaned ∧
      runWrites .fill writes cleaned = .ok filled ∧
        runWrites .backwardCompatibilityCheck writes filled = .ok result) ↔
      AllWellFormed writes ∧ result = updated writes config := by
  have hpasses : AllWellFormed writes →
      runWrites .fill writes (overwrite (stKeys writes) (fun _ => .list []) config) =
        .ok (overwrite (stKeys writes) (fun stKey => .list (valuesAt (keyed writes) stKey))
          config) ∧
      runWrites .backwardCompatibilityCheck writes
        (overwrite (stKeys writes) (fun stKey => .list (valuesAt (keyed writes) stKey)) config) =
          .ok (updated writes config) := by
    intro hwell
    refine ⟨?_, ?_⟩
    · refine (@runWrites_fill writes _ hwell (fun _ => []) fun stKey hmem =>
        overwrite_of_mem hmem).trans ?_
      rw [overwrite_overwrite]
      rfl
    · refine (@runWrites_backwardCompatibilityCheck writes _ hwell
        (fun stKey => valuesAt (keyed writes) stKey)
        (fun stKey hmem => overwrite_of_mem hmem) (count_stKeys_le hfull)).trans ?_
      rw [overwrite_overwrite]
      rfl
  constructor
  · rintro ⟨cleaned, filled, hclean, hfill, hcheck⟩
    obtain ⟨hwell, rfl⟩ := runWrites_cleanUpConf_iff.mp hclean
    obtain ⟨hfill', hcheck'⟩ := hpasses hwell
    obtain rfl := Except.ok.inj (hfill.symm.trans hfill')
    exact ⟨hwell, Except.ok.inj (hcheck.symm.trans hcheck')⟩
  · rintro ⟨hwell, rfl⟩
    obtain ⟨hfill, hcheck⟩ := hpasses hwell
    exact ⟨_, _, runWrites_cleanUpConf_iff.mpr ⟨hwell, rfl⟩, hfill, hcheck⟩

end OvirtArt.Storage.Wrapper
