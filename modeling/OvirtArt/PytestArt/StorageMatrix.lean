import Mathlib.Data.Finmap
import OvirtArt.Foundation.Lists

set_option autoImplicit false

/-!
# `pytest_customization/_pytest_art/matrix.py`

Tests are parametrized with the storages of their mark that the configuration defines.  One
plugin object serves all test functions, one after the other.

What pytest does with a parametrization is left out, and so are other marks.  A run is a sequence
of test functions with the iteration order of each set of storages.
-/

namespace OvirtArt.PytestArt.StorageMatrix

open OvirtArt.Foundation

/-- A `ParameterSet`; the first of its values is the storage. -/
structure ParameterSet where
  storage : String
  values : List String := []
  marks : List String := []
  deriving DecidableEq, Repr

/-- An element of the argument of `@storages`. -/
inductive MarkEntry where
  | plain (storage : String)
  | param (set : ParameterSet)
  deriving DecidableEq, Repr

/-- A mark with its first argument. -/
structure Mark where
  name : String
  arg : List MarkEntry

/-- What the plugin reads of a test function. -/
structure Metafunc where
  fixturenames : List String
  /-- `metafunc.function.pytestmark`. -/
  functionMarks : List Mark := []
  /-- `metafunc.cls.storages`. -/
  classStorages : List String := []
  /-- `metafunc.cls.pytestmark`. -/
  classMarks : List Mark := []

/-- `storage_parameter_set`. -/
abbrev ParameterSets := Finmap fun _ : String => ParameterSet

/-- The plugin. -/
structure ARTMatrix where
  storageParameterSet : ParameterSets
  storagesDefinedInConf : Finset String

/-- The order in which the elements of a set come up. -/
structure SetOrder where
  toList : Finset String → List String
  nodup : ∀ s, (toList s).Nodup
  mem_toList : ∀ s x, x ∈ toList s ↔ x ∈ s

/-- An element of the values for `metafunc.parametrize`: a name, a list of names, or a
`ParameterSet`. -/
inductive Entry where
  | name (storage : String)
  | names (storages : List String)
  | set (set : ParameterSet)
  deriving DecidableEq, Repr

/-- What comes of a test function. -/
inductive Outcome where
  | unchanged
  | parametrize (values : List Entry)
  | skip (message : String)
  deriving DecidableEq

/-! ## The source -/

/-- `NOT_APPLICABLE`. -/
def notApplicable : String := "N/A"

/-- The storage that a mark names. -/
def MarkEntry.storage : MarkEntry → String
  | plain storage => storage
  | param set => set.storage

/-- `self.storage_parameter_set[_storage] = storage`, where it is a `ParameterSet`. -/
def record (sets : ParameterSets) : MarkEntry → ParameterSets
  | .plain _ => sets
  | .param set => sets.insert set.storage set

namespace ARTMatrix

/-- `ARTMatrix.__init__`, with `ART_CONFIG['RUN']['storages']`. -/
def init (storages : Finset String) : ARTMatrix where
  storageParameterSet := ∅
  storagesDefinedInConf := storages

/-- `get_storages_from_marks`. -/
def getStoragesFromMarks (self : ARTMatrix) (marks : List Mark) : Finset String × ARTMatrix :=
  match marks.reverse.find? fun mark => mark.name = "storages" with
  | some mark =>
    ((mark.arg.map MarkEntry.storage).toFinset,
      { self with storageParameterSet := mark.arg.foldl record self.storageParameterSet })
  | none => (∅, self)

/-- The message of the skipped test. -/
def skipMessage (order : SetOrder) (storages defined : Finset String) : String :=
  "This test's supposed to run on STORAGES: (" ++ ", ".intercalate (order.toList storages) ++
    "), but this execution is just running on STORAGES: (" ++
    ", ".intercalate (order.toList defined) ++ ")"

/-- `self.storage_parameter_set.get(storage, storage)`. -/
def entryOf (self : ARTMatrix) (storage : String) : Entry :=
  match self.storageParameterSet.lookup storage with
  | some set => .set set
  | none => .name storage

/-- The storages of the test function; `parametrize_storage_tests` up to the test for them. -/
def declaredStorages (self : ARTMatrix) (metafunc : Metafunc) : Finset String × ARTMatrix :=
  let self := { self with storageParameterSet := ∅ }
  let (storages, self) := self.getStoragesFromMarks metafunc.functionMarks
  let storages := if storages = ∅ then metafunc.classStorages.toFinset else storages
  if storages = ∅ then self.getStoragesFromMarks metafunc.classMarks else (storages, self)

/-- `parametrize_storage_tests` with the storages of the test function. -/
def parametrizeWith (order : SetOrder) (self : ARTMatrix) (storages : Finset String) : Outcome :=
  if storages = ∅ then .unchanged
  else if notApplicable ∈ storages then .unchanged
  else
    let common := order.toList (storages ∩ self.storagesDefinedInConf)
    if common = [] then .skip (skipMessage order storages self.storagesDefinedInConf)
    else if self.storageParameterSet = ∅ then
      .parametrize (common.map fun storage => .names [storage])
    else .parametrize (common.map self.entryOf)

/-- `parametrize_storage_tests`. -/
def parametrizeStorageTests (order : SetOrder) (self : ARTMatrix) (metafunc : Metafunc) :
    ARTMatrix × Outcome :=
  let (storages, self) := self.declaredStorages metafunc
  (self, self.parametrizeWith order storages)

/-- `pytest_generate_tests`. -/
def pytestGenerateTests (order : SetOrder) (self : ARTMatrix) (metafunc : Metafunc) :
    ARTMatrix × Outcome :=
  if "storage" ∈ metafunc.fixturenames then self.parametrizeStorageTests order metafunc
  else (self, .unchanged)

/-- What comes of the test functions, one after the other. -/
def outcomes (order : SetOrder) (self : ARTMatrix) : List Metafunc → List Outcome
  | [] => []
  | metafunc :: rest =>
    (self.pytestGenerateTests order metafunc).2 ::
      outcomes order (self.pytestGenerateTests order metafunc).1 rest

end ARTMatrix

/-! ## Specification -/

/-- What the last mark of that name lists. -/
def markEntries (marks : List Mark) : List MarkEntry :=
  match marks.reverse.find? fun mark => mark.name = "storages" with
  | some mark => mark.arg
  | none => []

namespace Metafunc

/-- The storages of the test function: those of its own mark, else those of the attribute of
its class, else those of the mark of its class. -/
def entries (metafunc : Metafunc) : List MarkEntry :=
  if markEntries metafunc.functionMarks ≠ [] then markEntries metafunc.functionMarks
  else if metafunc.classStorages ≠ [] then metafunc.classStorages.map MarkEntry.plain
  else markEntries metafunc.classMarks

/-- Their names. -/
def storages (metafunc : Metafunc) : Finset String :=
  (metafunc.entries.map MarkEntry.storage).toFinset

/-- The storage has a `ParameterSet` in the mark. -/
def HasSet (metafunc : Metafunc) (storage : String) : Prop :=
  ∃ set, MarkEntry.param set ∈ metafunc.entries ∧ set.storage = storage

/-- The value for a storage: its `ParameterSet`, or a list of its name only. -/
def EntryFor (metafunc : Metafunc) (storage : String) (entry : Entry) : Prop :=
  entry = .names [storage] ∨
    ∃ set, MarkEntry.param set ∈ metafunc.entries ∧ set.storage = storage ∧ entry = .set set

/-- If the test function is parametrized, then with one value for each of its storages that
are defined. -/
def Right (metafunc : Metafunc) (defined : Finset String) (outcome : Outcome) : Prop :=
  ∀ values, outcome = .parametrize values →
    ∃ common : List String, common.Nodup ∧ (∀ storage, storage ∈ common ↔
      storage ∈ metafunc.storages ∩ defined) ∧
      List.Forall₂ metafunc.EntryFor common values

/-- The test function is not parametrized with storages, or its mark has no `ParameterSet`,
or one for each of the storages that are defined. -/
def Uniform (metafunc : Metafunc) (defined : Finset String) : Prop :=
  "storage" ∉ metafunc.fixturenames ∨ notApplicable ∈ metafunc.storages ∨
    (∀ set, MarkEntry.param set ∉ metafunc.entries) ∨
    ∀ storage ∈ metafunc.storages ∩ defined, metafunc.HasSet storage

end Metafunc

/-! ## The side dictionary -/

theorem lookup_record {sets : ParameterSets} {storage : String} {set : ParameterSet} :
    ∀ {entries : List MarkEntry}, (entries.foldl record sets).lookup storage = some set →
      (MarkEntry.param set ∈ entries ∧ set.storage = storage) ∨ sets.lookup storage = some set := by
  intro entries
  induction entries using List.reverseRecOn with
  | nil => exact Or.inr
  | append_singleton entries entry ih =>
    intro h
    rw [List.foldl_append] at h
    cases entry with
    | plain name =>
      rcases ih h with ⟨hmem, hstorage⟩ | hold
      · exact Or.inl ⟨List.mem_append_left _ hmem, hstorage⟩
      · exact Or.inr hold
    | param other =>
      rw [List.foldl_cons, List.foldl_nil, record] at h
      by_cases hkey : storage = other.storage
      · rw [hkey, Finmap.lookup_insert] at h
        obtain rfl := Option.some.inj h
        exact Or.inl ⟨List.mem_append_right _ List.mem_cons_self, hkey.symm⟩
      · rw [Finmap.lookup_insert_of_ne _ hkey] at h
        rcases ih h with ⟨hmem, hstorage⟩ | hold
        · exact Or.inl ⟨List.mem_append_left _ hmem, hstorage⟩
        · exact Or.inr hold

theorem exists_lookup_record {sets : ParameterSets} {storage : String} :
    ∀ {entries : List MarkEntry},
      (∃ set, MarkEntry.param set ∈ entries ∧ set.storage = storage) →
        ∃ set, (entries.foldl record sets).lookup storage = some set := by
  intro entries
  induction entries using List.reverseRecOn with
  | nil =>
    rintro ⟨_, hmem, _⟩
    cases hmem
  | append_singleton entries entry ih =>
    rintro ⟨set, hmem, hstorage⟩
    rw [List.foldl_append, List.foldl_cons, List.foldl_nil]
    rcases List.mem_append.mp hmem with hbefore | hlast
    · obtain ⟨found, hfound⟩ := ih ⟨set, hbefore, hstorage⟩
      cases entry with
      | plain name => exact ⟨found, hfound⟩
      | param other =>
        by_cases hkey : storage = other.storage
        · exact ⟨other, by rw [record, hkey, Finmap.lookup_insert]⟩
        · exact ⟨found, by rw [record, Finmap.lookup_insert_of_ne _ hkey, hfound]⟩
    · obtain rfl := List.mem_singleton.mp hlast
      exact ⟨set, by rw [record, hstorage, Finmap.lookup_insert]⟩

/-- The dictionary is empty exactly if the mark has no `ParameterSet`. -/
theorem record_eq_empty_iff {entries : List MarkEntry} :
    entries.foldl record ∅ = (∅ : ParameterSets) ↔ ∀ set, MarkEntry.param set ∉ entries := by
  constructor
  · intro hempty set hmem
    obtain ⟨found, hfound⟩ := @exists_lookup_record ∅ _ _ ⟨set, hmem, rfl⟩
    rw [hempty, Finmap.lookup_empty] at hfound
    cases hfound
  · intro hnone
    refine Finmap.ext_lookup fun storage => ?_
    rw [Finmap.lookup_empty]
    cases hlookup : (entries.foldl record ∅).lookup storage with
    | none => rfl
    | some set =>
      rcases lookup_record hlookup with ⟨hmem, _⟩ | hold
      · exact absurd hmem (hnone set)
      · rw [Finmap.lookup_empty] at hold
        cases hold

namespace ARTMatrix

/-- What the mark lists, and the dictionary with its `ParameterSet`s. -/
theorem getStoragesFromMarks_eq (self : ARTMatrix) (marks : List Mark) :
    self.getStoragesFromMarks marks =
      (((markEntries marks).map MarkEntry.storage).toFinset,
        { self with
          storageParameterSet := (markEntries marks).foldl record self.storageParameterSet }) := by
  unfold getStoragesFromMarks markEntries
  cases marks.reverse.find? fun mark => mark.name = "storages" with
  | some mark => rfl
  | none => rfl

/-- The plugin for a test function with these storages. -/
def recorded (self : ARTMatrix) (entries : List MarkEntry) : ARTMatrix :=
  { self with storageParameterSet := entries.foldl record ∅ }

theorem foldl_record_plain (sets : ParameterSets) (storages : List String) :
    (storages.map MarkEntry.plain).foldl record sets = sets := by
  induction storages with
  | nil => rfl
  | cons storage rest ih => exact ih

theorem toFinset_eq_empty_iff {entries : List MarkEntry} :
    (entries.map MarkEntry.storage).toFinset = ∅ ↔ entries = [] := by
  rw [List.toFinset_eq_empty_iff, List.map_eq_nil_iff]

/-- The order of precedence, and what is recorded. -/
theorem declaredStorages_eq (self : ARTMatrix) (metafunc : Metafunc) :
    self.declaredStorages metafunc = (metafunc.storages, self.recorded metafunc.entries) := by
  unfold declaredStorages Metafunc.storages Metafunc.entries recorded
  simp only [getStoragesFromMarks_eq, toFinset_eq_empty_iff]
  by_cases hfunction : markEntries metafunc.functionMarks = []
  · simp only [hfunction, if_true, ne_eq, not_true_eq_false, if_false, List.foldl_nil,
      List.toFinset_eq_empty_iff]
    by_cases hclass : metafunc.classStorages = []
    · simp only [hclass, if_true, not_true_eq_false, if_false]
    · simp only [hclass, if_false, not_false_eq_true, if_true, foldl_record_plain, List.map_map]
      have hnames : MarkEntry.storage ∘ MarkEntry.plain = id := rfl
      rw [hnames, List.map_id]
  · simp only [hfunction, if_false, ne_eq, not_false_eq_true, if_true, toFinset_eq_empty_iff]

/-- The outcome does not depend on what was recorded before. -/
theorem outcome_eq (order : SetOrder) (self : ARTMatrix) (metafunc : Metafunc) :
    (self.pytestGenerateTests order metafunc).2 =
      if "storage" ∈ metafunc.fixturenames then
        (self.recorded metafunc.entries).parametrizeWith order metafunc.storages
      else .unchanged := by
  unfold pytestGenerateTests parametrizeStorageTests
  rw [declaredStorages_eq]
  split
  · rfl
  · rfl

theorem storagesDefinedInConf_eq (order : SetOrder) (self : ARTMatrix) (metafunc : Metafunc) :
    (self.pytestGenerateTests order metafunc).1.storagesDefinedInConf =
      self.storagesDefinedInConf := by
  unfold pytestGenerateTests parametrizeStorageTests
  rw [declaredStorages_eq]
  split
  · rfl
  · rfl

/-- No test function sees what another one has recorded. -/
theorem outcomes_eq_map (order : SetOrder) (self : ARTMatrix) (metafuncs : List Metafunc) :
    self.outcomes order metafuncs = metafuncs.map fun metafunc =>
      ((init self.storagesDefinedInConf).pytestGenerateTests order metafunc).2 := by
  induction metafuncs generalizing self with
  | nil => rfl
  | cons metafunc rest ih =>
    rw [outcomes, List.map_cons, ih, storagesDefinedInConf_eq, outcome_eq, outcome_eq]
    rfl

/-! ## The values -/

section

variable {order : SetOrder} {self : ARTMatrix} {metafunc : Metafunc}

theorem right_of_entries {f : String → Entry}
    (h : ∀ storage ∈ metafunc.storages ∩ self.storagesDefinedInConf,
      metafunc.EntryFor storage (f storage)) :
    metafunc.Right self.storagesDefinedInConf
      (.parametrize ((order.toList (metafunc.storages ∩ self.storagesDefinedInConf)).map f)) := by
  intro values hvalues
  obtain rfl := Outcome.parametrize.inj hvalues
  refine ⟨_, order.nodup _, order.mem_toList _, ?_⟩
  apply List.forall₂_map_right_iff.mpr
  apply List.forall₂_same.mpr
  intro storage hstorage
  exact h storage ((order.mem_toList _ storage).mp hstorage)

/-- The `ParameterSet` of a storage is its value. -/
theorem entryFor_entryOf {storage : String} (h : metafunc.HasSet storage) :
    metafunc.EntryFor storage ((self.recorded metafunc.entries).entryOf storage) := by
  unfold entryOf recorded
  obtain ⟨set, hlookup⟩ := @exists_lookup_record ∅ _ _ h
  rcases lookup_record hlookup with ⟨hmem, hstorage⟩ | hold
  · refine Or.inr ⟨set, hmem, hstorage, ?_⟩
    simp only [hlookup]
  · rw [Finmap.lookup_empty] at hold
    cases hold

/-- A storage without a `ParameterSet` is not put into a list. -/
theorem hasSet_of_entryFor {storage other : String}
    (h : metafunc.EntryFor other ((self.recorded metafunc.entries).entryOf storage)) :
    metafunc.HasSet storage := by
  unfold entryOf recorded at h
  cases hlookup : (metafunc.entries.foldl record ∅).lookup storage with
  | none =>
    simp only [hlookup] at h
    rcases h with hname | ⟨_, _, _, hset⟩
    · cases hname
    · cases hset
  | some set =>
    rcases lookup_record hlookup with ⟨hmem, hstorage⟩ | hold
    · exact ⟨set, hmem, hstorage⟩
    · rw [Finmap.lookup_empty] at hold
      cases hold

theorem right_of_ne_parametrize {defined : Finset String} {outcome : Outcome}
    (h : ∀ values, outcome ≠ .parametrize values) : metafunc.Right defined outcome :=
  fun values hvalues => absurd hvalues (h values)

theorem recorded_eq_empty_iff :
    (self.recorded metafunc.entries).storageParameterSet = ∅ ↔
      ∀ set, MarkEntry.param set ∉ metafunc.entries :=
  record_eq_empty_iff

/-- The values are right exactly if there are no `ParameterSet`s or no other values. -/
theorem right_values_iff :
    (metafunc.Right self.storagesDefinedInConf <|
      let common := order.toList (metafunc.storages ∩ self.storagesDefinedInConf)
      if (self.recorded metafunc.entries).storageParameterSet = ∅ then
        .parametrize (common.map fun storage => .names [storage])
      else .parametrize (common.map (self.recorded metafunc.entries).entryOf)) ↔
      (∀ set, MarkEntry.param set ∉ metafunc.entries) ∨
        ∀ storage ∈ metafunc.storages ∩ self.storagesDefinedInConf, metafunc.HasSet storage := by
  simp only
  by_cases hsets : ∀ set, MarkEntry.param set ∉ metafunc.entries
  · rw [if_pos (recorded_eq_empty_iff.mpr hsets)]
    exact iff_of_true (right_of_entries fun _ _ => Or.inl rfl) (Or.inl hsets)
  rw [if_neg (mt recorded_eq_empty_iff.mp hsets), or_iff_right hsets]
  constructor
  · intro hright storage hmem
    obtain ⟨common, _, _, hvalues⟩ := hright _ rfl
    have hentry := List.mem_map_of_mem (f := (self.recorded metafunc.entries).entryOf)
      ((order.mem_toList _ storage).mpr hmem)
    obtain ⟨other, _, hother⟩ := exists_left_of_forall₂ hvalues hentry
    exact hasSet_of_entryFor hother
  · intro hall
    exact right_of_entries fun storage hmem => entryFor_entryOf (hall storage hmem)

/-- The outcome is right exactly if the mark is uniform. -/
theorem right_iff_uniform :
    metafunc.Right self.storagesDefinedInConf (self.pytestGenerateTests order metafunc).2 ↔
      metafunc.Uniform self.storagesDefinedInConf := by
  rw [outcome_eq]
  unfold Metafunc.Uniform
  by_cases hfixture : "storage" ∈ metafunc.fixturenames
  swap
  · rw [if_neg hfixture]
    exact iff_of_true (right_of_ne_parametrize (by simp)) (Or.inl hfixture)
  rw [if_pos hfixture, or_iff_right (not_not_intro hfixture), parametrizeWith]
  by_cases hstorages : metafunc.storages = ∅
  · rw [if_pos hstorages]
    refine iff_of_true (right_of_ne_parametrize (by simp)) (Or.inr (Or.inr ?_))
    rw [hstorages, Finset.empty_inter]
    exact fun storage hmem => absurd hmem (Finset.notMem_empty storage)
  rw [if_neg hstorages]
  by_cases happlicable : notApplicable ∈ metafunc.storages
  · rw [if_pos happlicable]
    exact iff_of_true (right_of_ne_parametrize (by simp)) (Or.inl happlicable)
  rw [if_neg happlicable, or_iff_right happlicable]
  have hdefined : (self.recorded metafunc.entries).storagesDefinedInConf =
      self.storagesDefinedInConf := rfl
  simp only [hdefined]
  by_cases hcommon : order.toList (metafunc.storages ∩ self.storagesDefinedInConf) = []
  · rw [if_pos hcommon]
    refine iff_of_true (right_of_ne_parametrize (by simp)) (Or.inr fun storage hmem => ?_)
    rw [← order.mem_toList, hcommon] at hmem
    exact absurd hmem List.not_mem_nil
  · rw [if_neg hcommon]
    exact right_values_iff

end

end ARTMatrix

/-- Whatever test functions the plugin sees, one after the other: each is parametrized as it
would be alone; and all of them with one value for each of their storages that are defined
exactly if no mark has a `ParameterSet` beside a defined storage without one. -/
theorem parametrized_right_iff (order : SetOrder) (defined : Finset String)
    (metafuncs : List Metafunc) :
    ((ARTMatrix.init defined).outcomes order metafuncs = metafuncs.map fun metafunc =>
        ((ARTMatrix.init defined).pytestGenerateTests order metafunc).2) ∧
      (List.Forall₂ (fun metafunc outcome => metafunc.Right defined outcome) metafuncs
          ((ARTMatrix.init defined).outcomes order metafuncs) ↔
        ∀ metafunc ∈ metafuncs, metafunc.Uniform defined) := by
  have hmap := ARTMatrix.outcomes_eq_map order (ARTMatrix.init defined) metafuncs
  refine ⟨hmap, ?_⟩
  rw [hmap, List.forall₂_map_right_iff, List.forall₂_same]
  exact forall₂_congr fun metafunc _ =>
    @ARTMatrix.right_iff_uniform order (ARTMatrix.init defined) metafunc

/-- A plain storage beside one with a `ParameterSet`: the name is handed on as it is. -/
theorem mixed_mark_not_right :
    ¬ ∀ (order : SetOrder) (defined : Finset String) (metafunc : Metafunc),
      metafunc.Right defined ((ARTMatrix.init defined).pytestGenerateTests order metafunc).2 := by
  intro hall
  let order : SetOrder := ⟨Finset.toList, Finset.nodup_toList, fun _ _ => Finset.mem_toList⟩
  let metafunc : Metafunc :=
    { fixturenames := ["storage"]
      functionMarks := [⟨"storages", [.plain "nfs", .param ⟨"glusterfs", [], ["polarion"]⟩]⟩] }
  have hright := hall order {"nfs"} metafunc
  rcases ARTMatrix.right_iff_uniform.mp hright with hfixture | hna | hnone | hset
  · exact hfixture (by decide)
  · exact absurd hna (by decide)
  · exact hnone ⟨"glusterfs", [], ["polarion"]⟩ (by decide)
  · obtain ⟨set, hmem, hstorage⟩ := hset "nfs" (by decide)
    have hother : set = ⟨"glusterfs", [], ["polarion"]⟩ := by
      simpa [Metafunc.entries, metafunc, markEntries] using hmem
    rw [hother] at hstorage
    exact absurd hstorage (by decide)

end OvirtArt.PytestArt.StorageMatrix
