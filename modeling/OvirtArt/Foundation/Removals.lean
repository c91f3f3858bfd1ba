import Mathlib.Data.List.Count
import Mathlib.Data.List.Perm.Basic

set_option autoImplicit false

/-!
# Elements removed from a list one by one

A loop goes through a list of elements and removes those that another list has, each time one
occurrence.  This file says when it finds all that it removes, and what it leaves, counted with
repetitions.

The lists are taken as multisets, since the order of what is left is that of the list.
-/

namespace OvirtArt.Foundation

variable {α : Type*} [DecidableEq α]

/-- The list without the first occurrence of an element, if it has one. -/
def removeFirst? (list : List α) (a : α) : Option (List α) :=
  if list.contains a then some (list.erase a) else none

/-- The list without an occurrence of each element that is given and known. -/
def removeKnown (known : List α) : List α → List α → Option (List α)
  | list, [] => some list
  | list, a :: given =>
    if known.contains a then (removeFirst? list a).bind (removeKnown known · given)
    else removeKnown known list given

variable {known list given rest : List α} {a b : α}

theorem removeFirst?_of_mem (h : a ∈ list) : removeFirst? list a = some (list.erase a) := by
  rw [removeFirst?, if_pos (List.contains_iff_mem.mpr h)]

theorem removeFirst?_of_not_mem (h : a ∉ list) : removeFirst? list a = none := by
  rw [removeFirst?, if_neg fun hmem => h (List.contains_iff_mem.mp hmem)]

theorem removeFirst?_eq_some_iff :
    removeFirst? list a = some rest ↔ a ∈ list ∧ list.erase a = rest := by
  by_cases h : a ∈ list
  · rw [removeFirst?_of_mem h, Option.some.injEq, and_iff_right h]
  · rw [removeFirst?_of_not_mem h]
    exact iff_of_false nofun fun hmem => h hmem.1

theorem count_erase_add (h : a ∈ list) (b : α) :
    (list.erase a).count b + [a].count b = list.count b := by
  rw [← List.count_append, ((List.perm_cons_erase h).trans (List.perm_append_singleton _ _).symm)
    |>.count_eq]

theorem removeKnown_cons_of_mem (h : a ∈ known) (list given : List α) :
    removeKnown known list (a :: given)
      = (removeFirst? list a).bind (removeKnown known · given) := by
  rw [removeKnown, if_pos (List.contains_iff_mem.mpr h)]

theorem removeKnown_cons_of_not_mem (h : a ∉ known) (list given : List α) :
    removeKnown known list (a :: given) = removeKnown known list given := by
  rw [removeKnown, if_neg fun hmem => h (List.contains_iff_mem.mp hmem)]

/-- What is left and what has been removed make up the list. -/
theorem count_removeKnown (h : removeKnown known list given = some rest) (hb : b ∈ known) :
    rest.count b + given.count b = list.count b := by
  induction given generalizing list with
  | nil =>
    obtain rfl : list = rest := Option.some.inj h
    rfl
  | cons a given ih =>
    rw [← List.singleton_append, List.count_append]
    by_cases ha : a ∈ known
    · rw [removeKnown_cons_of_mem ha] at h
      obtain ⟨next, hnext, h⟩ := Option.bind_eq_some_iff.mp h
      obtain ⟨hmem, rfl⟩ := removeFirst?_eq_some_iff.mp hnext
      have hrest := ih h
      have herase := count_erase_add hmem b
      omega
    · rw [removeKnown_cons_of_not_mem ha] at h
      have hne : a ≠ b := fun heq => ha (heq ▸ hb)
      rw [List.count_singleton, if_neg (by simpa using hne), Nat.zero_add]
      exact ih h

/-- Elements that are not known stay. -/
theorem count_removeKnown_of_not_mem (h : removeKnown known list given = some rest)
    (hb : b ∉ known) : rest.count b = list.count b := by
  induction given generalizing list with
  | nil =>
    obtain rfl : list = rest := Option.some.inj h
    rfl
  | cons a given ih =>
    by_cases ha : a ∈ known
    · rw [removeKnown_cons_of_mem ha] at h
      obtain ⟨next, hnext, h⟩ := Option.bind_eq_some_iff.mp h
      obtain ⟨hmem, rfl⟩ := removeFirst?_eq_some_iff.mp hnext
      have hne : a ≠ b := fun heq => hb (heq ▸ ha)
      rw [ih h, List.count_erase_of_ne hne.symm]
    · rw [removeKnown_cons_of_not_mem ha] at h
      exact ih h

/-- All that is to be removed is found exactly if no known element is given more often than the
list has it. -/
theorem removeKnown_isSome_iff :
    (∃ rest, removeKnown known list given = some rest) ↔
      ∀ b ∈ known, given.count b ≤ list.count b := by
  constructor
  · rintro ⟨rest, h⟩ b hb
    have := count_removeKnown h hb
    omega
  · intro h
    induction given generalizing list with
    | nil => exact ⟨list, rfl⟩
    | cons a given ih =>
      by_cases ha : a ∈ known
      · have hmem : a ∈ list := by
          have hcount := h a ha
          rw [List.count_cons_self] at hcount
          exact List.count_pos_iff.mp (Nat.lt_of_lt_of_le (Nat.succ_pos _) hcount)
        rw [removeKnown_cons_of_mem ha, removeFirst?_of_mem hmem]
        refine ih fun b hb => ?_
        have hcount := h b hb
        have herase := count_erase_add hmem b
        rw [← List.singleton_append, List.count_append] at hcount
        omega
      · rw [removeKnown_cons_of_not_mem ha]
        refine ih fun b hb => ?_
        exact Nat.le_trans (List.count_le_count_cons) (h b hb)

end OvirtArt.Foundation
