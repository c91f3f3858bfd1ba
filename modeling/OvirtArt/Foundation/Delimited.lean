import Mathlib.Data.List.Count
import Mathlib.Data.List.TakeWhile

set_option autoImplicit false

/-!
# Parts with a separator before each of them

A text is often put together by appending parts, each with a separator before it.  This file says
what is read back when such a text is cut at its first separator, or at all of them.

The separator is one element, and the parts are those that do not contain it; the results hold for
lists over any type with decidable equality.
-/

namespace OvirtArt.Foundation

variable {α : Type*} [DecidableEq α]

/-- The parts, each with the separator before it. -/
def delimited (sep : α) (parts : List (List α)) : List α := parts.flatMap (sep :: ·)

/-- What stands before the first separator. -/
def upTo (sep : α) (text : List α) : List α := text.takeWhile (· ≠ sep)

/-- What stands after the first separator, if there is one. -/
def afterFirst? (sep : α) (text : List α) : Option (List α) :=
  (text.dropWhile (· ≠ sep)).tail?

variable {sep other : α} {before after text : List α} {parts : List (List α)}

omit [DecidableEq α] in
@[simp] theorem delimited_nil (sep : α) : delimited sep [] = [] := rfl

omit [DecidableEq α] in
@[simp] theorem delimited_cons (sep : α) (part : List α) (parts : List (List α)) :
    delimited sep (part :: parts) = sep :: part ++ delimited sep parts := rfl

omit [DecidableEq α] in
@[simp] theorem delimited_append (sep : α) (first second : List (List α)) :
    delimited sep (first ++ second) = delimited sep first ++ delimited sep second :=
  List.flatMap_append

omit [DecidableEq α] in
@[simp] theorem delimited_eq_nil_iff : delimited sep parts = [] ↔ parts = [] := by
  cases parts <;> simp

omit [DecidableEq α] in
theorem mem_delimited : other ∈ delimited sep parts ↔
    (parts ≠ [] ∧ other = sep) ∨ ∃ part ∈ parts, other ∈ part := by
  unfold delimited
  rw [List.mem_flatMap]
  constructor
  · intro ⟨part, hpart, hmem⟩
    rcases List.mem_cons.mp hmem with heq | hmem
    · exact .inl ⟨List.ne_nil_of_mem hpart, heq⟩
    · exact .inr ⟨part, hpart, hmem⟩
  · intro h
    rcases h with ⟨hne, heq⟩ | ⟨part, hpart, hmem⟩
    · obtain ⟨part, rest, rfl⟩ := List.exists_cons_of_ne_nil hne
      exact ⟨part, List.mem_cons_self, heq ▸ List.mem_cons_self⟩
    · exact ⟨part, hpart, List.mem_cons_of_mem _ hmem⟩

omit [DecidableEq α] in
theorem not_mem_delimited (hsep : other ≠ sep) (h : ∀ part ∈ parts, other ∉ part) :
    other ∉ delimited sep parts := by
  intro hmem
  rcases mem_delimited.mp hmem with ⟨-, heq⟩ | ⟨part, hpart, hmem⟩
  · exact hsep heq
  · exact h part hpart hmem

omit [DecidableEq α] in
/-- Joined parts are the first of them and the others with the separator before them. -/
theorem intercalate_cons_eq (sep : α) (part : List α) (parts : List (List α)) :
    [sep].intercalate (part :: parts) = part ++ delimited sep parts := by
  induction parts generalizing part with
  | nil => simp
  | cons next rest ih => rw [List.intercalate_cons_cons, ih]; simp

/-! ## The first separator -/

theorem forall_ne_of_not_mem (h : sep ∉ text) : ∀ c ∈ text, decide (c ≠ sep) = true :=
  fun _ hc => decide_eq_true (ne_of_mem_of_not_mem hc h)

theorem upTo_of_not_mem (h : sep ∉ text) : upTo sep text = text :=
  List.takeWhile_eq_self_iff.mpr (forall_ne_of_not_mem h)

theorem upTo_append (h : sep ∉ before) : upTo sep (before ++ sep :: after) = before := by
  unfold upTo
  rw [List.takeWhile_append_of_pos (forall_ne_of_not_mem h)]
  simp

theorem not_mem_upTo (sep : α) (text : List α) : sep ∉ upTo sep text := by
  intro hmem
  have h := List.mem_takeWhile_imp hmem
  simp at h

theorem afterFirst?_of_not_mem (h : sep ∉ text) : afterFirst? sep text = none := by
  unfold afterFirst?
  rw [List.dropWhile_eq_nil_iff.mpr (forall_ne_of_not_mem h)]
  rfl

theorem afterFirst?_append (h : sep ∉ before) :
    afterFirst? sep (before ++ sep :: after) = some after := by
  unfold afterFirst?
  rw [List.dropWhile_append_of_pos (forall_ne_of_not_mem h)]
  simp

/-! ## All separators -/

theorem not_mem_of_mem_splitOn {part : List α} (h : part ∈ text.splitOn sep) : sep ∉ part := by
  induction text generalizing part with
  | nil =>
    rw [List.splitOn_nil, List.mem_singleton] at h
    rw [h]
    exact List.not_mem_nil
  | cons c rest ih =>
    obtain ⟨first, others, hsplit⟩ := List.exists_cons_of_ne_nil (List.splitOn_ne_nil sep rest)
    rw [List.splitOn_cons_eq_if_modifyHead, hsplit] at h
    rw [hsplit] at ih
    by_cases hc : c = sep
    · rw [if_pos (beq_iff_eq.mpr hc)] at h
      rcases List.mem_cons.mp h with rfl | hmem
      · exact List.not_mem_nil
      · exact ih hmem
    · rw [if_neg fun heq => hc (beq_iff_eq.mp heq)] at h
      rcases List.mem_cons.mp h with rfl | hmem
      · intro hsep
        rcases List.mem_cons.mp hsep with heq | hsep
        · exact hc heq.symm
        · exact ih List.mem_cons_self hsep
      · exact ih (List.mem_cons_of_mem _ hmem)

/-- Parts are read back exactly if the separator is in none of them. -/
theorem splitOn_delimited_iff (part : List α) (parts : List (List α)) :
    (part ++ delimited sep parts).splitOn sep = part :: parts ↔
      ∀ p ∈ part :: parts, sep ∉ p := by
  rw [← intercalate_cons_eq]
  constructor
  · intro h p hp
    rw [← h] at hp
    exact not_mem_of_mem_splitOn hp
  · intro h
    exact List.splitOn_intercalate sep h (List.cons_ne_nil _ _)

theorem count_delimited (h : ∀ part ∈ parts, sep ∉ part) :
    (delimited sep parts).count sep = parts.length := by
  induction parts with
  | nil => rfl
  | cons part rest ih =>
    rw [List.forall_mem_cons] at h
    rw [delimited_cons, List.cons_append, List.count_cons_self, List.count_append,
      List.count_eq_zero.mpr h.1, ih h.2, List.length_cons, Nat.zero_add]

end OvirtArt.Foundation
