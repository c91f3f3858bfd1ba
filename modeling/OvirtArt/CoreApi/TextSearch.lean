import OvirtArt.CoreApi.PyText
import OvirtArt.Foundation.Delimited

set_option autoImplicit false

/-!
# Where a part of a string is found

What `find`, slices and `join` give where the pieces of a string are known.

A position is a natural number, and a text that is not found has none; the callers that take `-1`
for it say so themselves.
-/

namespace OvirtArt.CoreApi

open OvirtArt.Foundation

namespace Text

variable {part before after text : Text} {c : Char} {n : Nat}

theorem length_le_of_index? (h : index? part text = some n) : n + part.length ≤ text.length := by
  induction text generalizing n with
  | nil =>
    cases part with
    | nil =>
      obtain rfl := Option.some.inj h
      exact Nat.le_refl 0
    | cons first rest => exact nomatch h
  | cons first rest ih =>
    unfold index? at h
    by_cases hprefix : part.isPrefixOf (first :: rest)
    · rw [if_pos hprefix] at h
      obtain rfl := Option.some.inj h
      rw [Nat.zero_add]
      exact (List.isPrefixOf_iff_prefix.mp hprefix).length_le
    · rw [if_neg hprefix] at h
      obtain ⟨m, hm, rfl⟩ := Option.map_eq_some_iff.mp h
      have hle := ih hm
      rw [List.length_cons]
      omega

/-- What comes after the first occurrence does not count. -/
theorem index?_append (h : index? part before = some n) (after : Text) :
    index? part (before ++ after) = some n := by
  induction before generalizing n with
  | nil =>
    cases part with
    | nil => cases after <;> exact h
    | cons first rest => exact nomatch h
  | cons first rest ih =>
    have hlength := length_le_of_index? h
    unfold index? at h
    rw [List.cons_append]
    unfold index?
    by_cases hprefix : part.isPrefixOf (first :: rest)
    · rw [if_pos hprefix] at h
      have hlonger : part.isPrefixOf (first :: (rest ++ after)) := by
        rw [List.isPrefixOf_iff_prefix] at hprefix ⊢
        exact hprefix.trans (List.prefix_append (first :: rest) after)
      rw [if_pos hlonger, h]
    · rw [if_neg hprefix] at h
      have hlonger : ¬ part.isPrefixOf (first :: (rest ++ after)) := by
        intro hp
        apply hprefix
        rw [List.isPrefixOf_iff_prefix] at hp ⊢
        exact List.prefix_of_prefix_length_le hp (List.prefix_append (first :: rest) after)
          (by omega)
      obtain ⟨m, hm, rfl⟩ := Option.map_eq_some_iff.mp h
      rw [if_neg hlonger, ih hm]
      rfl

theorem index?_singleton_append (h : c ∉ before) :
    index? [c] (before ++ c :: after) = some before.length := by
  induction before with
  | nil => simp [index?]
  | cons first rest ih =>
    rw [List.mem_cons, not_or] at h
    rw [List.cons_append, index?, ih h.2, if_neg]
    · rfl
    · simpa using h.1

theorem find_singleton_append (h : c ∉ before) :
    (before ++ c :: after).find [c] = before.length := by
  unfold find
  rw [index?_singleton_append h]

theorem index?_singleton_of_not_mem (h : c ∉ text) : index? [c] text = none := by
  induction text with
  | nil => rfl
  | cons first rest ih =>
    rw [List.mem_cons, not_or] at h
    rw [index?, ih h.2, if_neg]
    · rfl
    · simpa using h.1

theorem find_singleton_of_not_mem (h : c ∉ text) : text.find [c] = -1 := by
  unfold find
  rw [index?_singleton_of_not_mem h]

theorem find_singleton_of_mem (h : c ∈ text) : text.find [c] = (upTo c text).length := by
  obtain ⟨before, after, rfl, hbefore⟩ := List.eq_append_cons_of_mem h
  rw [find_singleton_append hbefore, upTo_append hbefore]

theorem place_natCast (text : Text) (n : Nat) : place text n = min n text.length := by
  unfold place
  rfl

theorem sliceFrom_append (before after : Text) :
    (before ++ after).sliceFrom before.length = after := by
  unfold sliceFrom
  rw [place_natCast, Nat.min_eq_left (by simp), List.drop_left]

theorem slice_append (before middle after : Text) :
    (before ++ middle ++ after).slice before.length (before ++ middle).length = middle := by
  unfold slice
  rw [place_natCast, place_natCast, Nat.min_eq_left (by simp), Nat.min_eq_left (by simp),
    List.take_left, List.drop_left]

theorem slice_zero (text : Text) (n : Nat) : text.slice 0 n = text.take n := by
  unfold slice
  change (text.take (min n text.length)).drop (min 0 text.length) = _
  rw [Nat.zero_min, List.drop_zero, ← List.take_eq_take_min]

/-! ## Texts that are joined -/

variable {sep : Char} {texts : List Text}

theorem join_eq_delimited (sep : Char) (first : Text) (rest : List Text) :
    join [sep] (first :: rest) = first ++ delimited sep rest := by
  induction rest generalizing first with
  | nil => simp [join]
  | cons next rest ih =>
    change first ++ [sep] ++ join [sep] (next :: rest) = _
    rw [ih]
    simp

theorem not_mem_join_iff (hc : c ≠ sep) (rest : List Text) (first : Text) :
    c ∉ join [sep] (first :: rest) ↔ ∀ text ∈ first :: rest, c ∉ text := by
  rw [join_eq_delimited, List.mem_append, mem_delimited]
  simp [hc]

theorem not_mem_join (hc : c ≠ sep) (h : ∀ text ∈ texts, c ∉ text) : c ∉ join [sep] texts := by
  cases texts with
  | nil => exact List.not_mem_nil
  | cons first rest => exact (not_mem_join_iff hc rest first).mpr h

end Text

end OvirtArt.CoreApi
