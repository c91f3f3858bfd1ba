import Mathlib.Data.List.AList

set_option autoImplicit false

/-!
# Changing the values of a dictionary

A dictionary is an association list without duplicate keys, in the order in which it is
gone through.  Values are changed in place, so that the keys stay as they are.

Adding and removing keys is left out: the maps of Mathlib have it.
-/

namespace OvirtArt.Foundation

variable {κ β : Type}

/-- Every value is changed in its place. -/
def mapValues (f : κ → β → β) (dict : AList fun _ : κ => β) : AList fun _ : κ => β where
  entries := dict.entries.map fun entry => ⟨entry.1, f entry.1 entry.2⟩
  nodupKeys := by
    have hkeys : (dict.entries.map fun entry =>
        (⟨entry.1, f entry.1 entry.2⟩ : Sigma fun _ : κ => β)).map Sigma.fst =
          dict.entries.map Sigma.fst := by
      rw [List.map_map]
      rfl
    rw [List.NodupKeys, List.keys, hkeys]
    exact dict.nodupKeys

theorem entries_mapValues (f : κ → β → β) (dict : AList fun _ : κ => β) :
    (mapValues f dict).entries = dict.entries.map fun entry => ⟨entry.1, f entry.1 entry.2⟩ := rfl

variable [DecidableEq κ]

@[simp] theorem lookup_mapValues (f : κ → β → β) (dict : AList fun _ : κ => β) (key : κ) :
    (mapValues f dict).lookup key = (dict.lookup key).map (f key) := by
  ext value
  rw [← Option.mem_def, AList.mem_lookup_iff, entries_mapValues, List.mem_map,
    Option.map_eq_some_iff]
  constructor
  · rintro ⟨⟨key', old⟩, hmem, heq⟩
    cases heq
    exact ⟨old, AList.mem_lookup_iff.mpr hmem, rfl⟩
  · rintro ⟨old, hlookup, rfl⟩
    exact ⟨⟨key, old⟩, AList.mem_lookup_iff.mp hlookup, rfl⟩

end OvirtArt.Foundation
