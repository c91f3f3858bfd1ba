import Mathlib.Data.Finmap

set_option autoImplicit false

/-!
# Filling a finite map

A map is filled by entering one value after the other, where a later value takes the place of an
earlier one under the same key.

The map has at most one value for a key, the last that has been entered; order and duplicates of
the list matter for nothing else.
-/

namespace OvirtArt.Foundation

variable {κ β : Type*} [DecidableEq κ]

/-- The map after all entries. -/
def fill (entries : List (κ × β)) : Finmap fun _ : κ => β :=
  entries.foldl (fun table entry => table.insert entry.1 entry.2) ∅

variable {entries : List (κ × β)} {key : κ} {value : β}

@[simp] theorem fill_concat (entries : List (κ × β)) (entry : κ × β) :
    fill (entries ++ [entry]) = (fill entries).insert entry.1 entry.2 := by
  simp [fill]

theorem mem_fill_iff : key ∈ fill entries ↔ key ∈ entries.map Prod.fst := by
  induction entries using List.reverseRecOn with
  | nil => exact iff_of_false Finmap.notMem_empty List.not_mem_nil
  | append_singleton entries entry ih =>
    rw [fill_concat, Finmap.mem_insert, ih, List.map_append, List.mem_append,
      List.map_singleton, List.mem_singleton, or_comm]

/-- What is found under a key has been entered under it. -/
theorem mem_of_lookup_fill (h : (fill entries).lookup key = some value) :
    (key, value) ∈ entries := by
  induction entries using List.reverseRecOn with
  | nil => exact nomatch h
  | append_singleton entries entry ih =>
    rw [fill_concat] at h
    by_cases hkey : key = entry.1
    · subst hkey
      rw [Finmap.lookup_insert] at h
      obtain rfl := Option.some.inj h
      exact List.mem_append_right _ (List.mem_singleton_self _)
    · rw [Finmap.lookup_insert_of_ne _ hkey] at h
      exact List.mem_append_left _ (ih h)

/-- Where only one value is entered under a key, it is found. -/
theorem lookup_fill (h : (key, value) ∈ entries)
    (hone : ∀ other, (key, other) ∈ entries → other = value) :
    (fill entries).lookup key = some value := by
  have hmem : key ∈ fill entries := mem_fill_iff.mpr (List.mem_map_of_mem (f := Prod.fst) h)
  obtain ⟨found, hfound⟩ := Finmap.mem_iff.mp hmem
  rw [hfound, hone found (mem_of_lookup_fill hfound)]

end OvirtArt.Foundation
