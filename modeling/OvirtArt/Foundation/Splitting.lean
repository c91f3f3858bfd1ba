import Mathlib.Data.List.Count
import Mathlib.Data.List.Infix

set_option autoImplicit false

/-!
# Splitting at a separator

A text is split at the first separator, or at each of them.

These are laws of the operations on lists in general, and say when the parts are those that were
joined.
-/

namespace OvirtArt.Foundation

variable {α : Type} [DecidableEq α]

/-- What stands before and after the first separator. -/
def splitOnce (sep : α) : List α → Option (List α × List α)
  | [] => none
  | c :: rest =>
    if c = sep then some ([], rest)
    else (splitOnce sep rest).map fun parts => (c :: parts.1, parts.2)

/-- The pieces between the separators. -/
def splitAll (sep : α) : List α → List (List α)
  | [] => [[]]
  | c :: rest =>
    if c = sep then [] :: splitAll sep rest
    else
      match splitAll sep rest with
      | [] => [[c]]
      | piece :: pieces => (c :: piece) :: pieces

section

variable {sep : α} {before after text : List α}

theorem splitOnce_append (h : sep ∉ before) :
    splitOnce sep (before ++ sep :: after) = some (before, after) := by
  induction before with
  | nil => simp [splitOnce]
  | cons c before ih =>
    rw [List.mem_cons, not_or] at h
    rw [List.cons_append, splitOnce, if_neg (Ne.symm h.1), ih h.2]
    rfl

theorem splitOnce_eq_none (h : sep ∉ text) : splitOnce sep text = none := by
  induction text with
  | nil => rfl
  | cons c text ih =>
    rw [List.mem_cons, not_or] at h
    rw [splitOnce, if_neg (Ne.symm h.1), ih h.2]
    rfl

theorem splitAll_ne_nil (sep : α) (text : List α) : splitAll sep text ≠ [] := by
  cases text with
  | nil => simp [splitAll]
  | cons c text =>
    unfold splitAll
    split
    case isTrue => simp
    case isFalse => split <;> simp

theorem splitAll_append (h : sep ∉ before) :
    splitAll sep (before ++ sep :: after) = before :: splitAll sep after := by
  induction before with
  | nil => simp [splitAll]
  | cons c before ih =>
    rw [List.mem_cons, not_or] at h
    rw [List.cons_append, splitAll, if_neg (Ne.symm h.1), ih h.2]

/-- A separator splits what is before it and what is after it. -/
theorem splitAll_append_sep (sep : α) (before after : List α) :
    splitAll sep (before ++ sep :: after) = splitAll sep before ++ splitAll sep after := by
  induction before with
  | nil => simp [splitAll]
  | cons c before ih =>
    rw [List.cons_append, splitAll, splitAll, ih]
    split
    case isTrue => rfl
    case isFalse =>
        cases hpieces : splitAll sep before with
        | nil => exact absurd hpieces (splitAll_ne_nil sep before)
        | cons piece pieces => rfl

theorem splitAll_of_not_mem (h : sep ∉ text) : splitAll sep text = [text] := by
  induction text with
  | nil => rfl
  | cons c text ih =>
    rw [List.mem_cons, not_or] at h
    rw [splitAll, if_neg (Ne.symm h.1), ih h.2]

theorem length_splitAll (sep : α) (text : List α) :
    (splitAll sep text).length = text.count sep + 1 := by
  induction text with
  | nil => rfl
  | cons c text ih =>
    unfold splitAll
    split
    case isTrue h => rw [h, List.length_cons, ih, List.count_cons_self]
    case isFalse h =>
      rw [List.count_cons_of_ne h]
      cases hpieces : splitAll sep text with
      | nil => exact absurd hpieces (splitAll_ne_nil sep text)
      | cons piece pieces =>
        rw [hpieces] at ih
        exact ih

end

/-! ## Splitting wherever a predicate holds -/

section

variable {β : Type} {p : β → Bool} {text read piece : List β}

/-- A piece, the first of which begins with what was read before, is a part of it all. -/
theorem infix_of_mem_splitOnPPrepend (hread : ∀ c ∈ read.reverse, p c = false)
    (h : piece ∈ text.splitOnPPrepend p read) :
    piece <:+: read.reverse ++ text ∧ ∀ c ∈ piece, p c = false := by
  induction text generalizing read with
  | nil =>
    rw [List.splitOnPPrepend_nil, List.mem_singleton] at h
    rw [h, List.append_nil]
    exact ⟨List.infix_refl _, hread⟩
  | cons c rest ih =>
    rw [List.splitOnPPrepend_cons_eq_if] at h
    split at h
    case isTrue =>
        rcases List.mem_cons.mp h with rfl | hrest
        · exact ⟨(List.prefix_append _ _).isInfix, hread⟩
        · obtain ⟨hpart, hpiece⟩ := ih (fun _ hc => absurd hc List.not_mem_nil) hrest
          have hsuffix : rest <:+ read.reverse ++ c :: rest :=
            (List.suffix_cons c rest).trans (List.suffix_append _ _)
          exact ⟨hpart.trans hsuffix.isInfix, hpiece⟩
    case isFalse hsep =>
        rw [List.append_cons, ← List.reverse_cons]
        refine ih ?_ h
        rw [List.reverse_cons, List.forall_mem_append, List.forall_mem_singleton]
        exact ⟨hread, Bool.eq_false_iff.mpr hsep⟩

/-- A piece is a part of the text, and has no separator. -/
theorem infix_of_mem_splitOnP (h : piece ∈ text.splitOnP p) :
    piece <:+: text ∧ ∀ c ∈ piece, p c = false := by
  have hnil : ∀ c ∈ ([] : List β).reverse, p c = false := fun _ hc => absurd hc List.not_mem_nil
  exact infix_of_mem_splitOnPPrepend hnil h

/-- A piece, the first of which begins with what was read before, ends where the text ends or before
a separator. -/
theorem ends_of_mem_splitOnPPrepend (h : piece ∈ text.splitOnPPrepend p read) :
    ∃ before after, read.reverse ++ text = before ++ piece ++ after ∧
      (after = [] ∨ ∃ c rest, after = c :: rest ∧ p c = true) := by
  induction text generalizing read with
  | nil =>
    rw [List.splitOnPPrepend_nil, List.mem_singleton] at h
    exact ⟨[], [], by rw [h, List.nil_append], .inl rfl⟩
  | cons c rest ih =>
    rw [List.splitOnPPrepend_cons_eq_if] at h
    split at h
    case isTrue hsep =>
        rcases List.mem_cons.mp h with rfl | hrest
        · exact ⟨[], c :: rest, rfl, .inr ⟨c, rest, rfl, hsep⟩⟩
        · obtain ⟨before, after, htext, hafter⟩ := ih hrest
          change rest = _ at htext
          refine ⟨read.reverse ++ c :: before, after, ?_, hafter⟩
          rw [htext]
          simp only [List.append_assoc, List.cons_append]
    case isFalse =>
        obtain ⟨before, after, htext, hafter⟩ := ih h
        rw [List.reverse_cons, List.append_assoc, List.singleton_append] at htext
        exact ⟨before, after, htext, hafter⟩

theorem ends_of_mem_splitOnP (h : piece ∈ text.splitOnP p) :
    ∃ before after, text = before ++ piece ++ after ∧
      (after = [] ∨ ∃ c rest, after = c :: rest ∧ p c = true) :=
  ends_of_mem_splitOnPPrepend h

end

/-! ## Two characters that stand together -/

section

variable {β : Type} {first second : β} {text before after : List β}

theorem not_pair_infix_of_first (h : first ∉ text) : ¬ [first, second] <:+: text :=
  fun hpair => h (hpair.subset List.mem_cons_self)

theorem not_pair_infix_of_second (h : second ∉ text) : ¬ [first, second] <:+: text :=
  fun hpair => h (hpair.subset (List.mem_cons_of_mem first List.mem_cons_self))

/-- They stand together in one part, or one ends with the first and the other begins with the
second. -/
theorem pair_infix_append (h : [first, second] <:+: before ++ after) :
    [first, second] <:+: before ∨ [first, second] <:+: after ∨
      before.getLast? = some first ∧ after.head? = some second := by
  obtain ⟨left, right, htext⟩ := h
  rw [List.append_assoc] at htext
  rcases List.append_eq_append_iff.mp htext with
    ⟨middle, hbefore, hmiddle⟩ | ⟨middle, hleft, hafter⟩
  · cases middle with
    | nil =>
      rw [List.nil_append] at hmiddle
      exact .inr (.inl ⟨[], right, hmiddle⟩)
    | cons c middle =>
      obtain ⟨rfl, hrest⟩ := List.cons.inj hmiddle
      cases middle with
      | nil =>
        refine .inr (.inr ⟨?_, ?_⟩)
        · rw [hbefore]
          exact List.getLast?_concat
        · exact (congrArg List.head? hrest).symm
      | cons d middle =>
        obtain ⟨rfl, -⟩ := List.cons.inj hrest
        refine .inl ⟨left, middle, ?_⟩
        rw [hbefore, List.append_assoc]
        rfl
  · exact .inr (.inl ⟨middle, right, by rw [hafter, List.append_assoc]⟩)

end

end OvirtArt.Foundation
