import Mathlib.Data.List.Sort

set_option autoImplicit false

/-!
# Stable sorting by a key

`list.sort(key=...)`: a stable sort.  Sorting by a key that has two values only
is a partition, and lists with the same distinct keys are sorted alike.

The sort is that of Mathlib by insertion, of which stability, permutation and order are all that
is used.
-/

namespace OvirtArt.Foundation

variable {α κ : Type*} [LinearOrder κ] (key : α → κ)

/-- `list.sort(key=key)`. -/
def sortOn (l : List α) : List α := l.insertionSort fun a b => key a ≤ key b

theorem sortOn_perm (l : List α) : (sortOn key l).Perm l :=
  List.perm_insertionSort _ l

variable {l : List α}

@[simp] theorem mem_sortOn {x : α} : x ∈ sortOn key l ↔ x ∈ l :=
  (sortOn_perm key l).mem_iff

@[simp] theorem length_sortOn (l : List α) : (sortOn key l).length = l.length :=
  (sortOn_perm key l).length_eq

/-- The keys of a sorted list ascend. -/
theorem pairwise_map_sortOn (l : List α) : ((sortOn key l).map key).Pairwise (· ≤ ·) := by
  rw [List.pairwise_map]
  exact List.pairwise_insertionSort _ l

/-- A sorted list is not changed. -/
theorem sortOn_eq_of_sorted (h : (l.map key).Pairwise (· ≤ ·)) : sortOn key l = l := by
  rw [List.pairwise_map] at h
  exact h.insertionSort_eq

/-- Sorting twice is sorting once. -/
theorem sortOn_sortOn (l : List α) : sortOn key (sortOn key l) = sortOn key l :=
  sortOn_eq_of_sorted key (pairwise_map_sortOn key l)

/-- An element is inserted behind what it does not precede. -/
theorem orderedInsert_append {r : α → α → Prop} [DecidableRel r] {x : α}
    {front back : List α} (hfront : ∀ y ∈ front, ¬ r x y) (hback : ∀ y ∈ back, r x y) :
    List.orderedInsert r x (front ++ back) = front ++ x :: back := by
  induction front with
  | nil =>
    cases back with
    | nil => rfl
    | cons y later => exact List.orderedInsert_cons_of_le r later (hback y List.mem_cons_self)
  | cons y later ih =>
    rw [List.forall_mem_cons] at hfront
    rw [List.cons_append, List.orderedInsert_of_not_le r _ hfront.1, ih hfront.2]
    rfl

/-- Sorting by a key with two values moves the elements with the lower one to
the front and keeps the order otherwise. -/
theorem sortOn_two {p : α → Prop} [DecidablePred p] {low high : κ} (hlt : low < high)
    (l : List α) :
    sortOn (fun x => if p x then low else high) l =
      l.filter (fun x => p x) ++ l.filter (fun x => ¬ p x) := by
  have hnot : ¬ high ≤ low := not_le_of_gt hlt
  induction l with
  | nil => rfl
  | cons x rest ih =>
    unfold sortOn at ih ⊢
    rw [List.insertionSort_cons, ih]
    by_cases hx : p x
    · rw [List.filter_cons_of_pos (by simpa using hx),
        List.filter_cons_of_neg (by simpa using hx)]
      have hback : ∀ y ∈ rest.filter (fun x => p x) ++ rest.filter (fun x => ¬ p x),
          (if p x then low else high) ≤ (if p y then low else high) := by
        intro y _
        rw [if_pos hx]
        split
        · exact le_refl low
        · exact le_of_lt hlt
      exact @orderedInsert_append α _ _ x [] _ (by simp) hback
    · rw [List.filter_cons_of_neg (by simpa using hx),
        List.filter_cons_of_pos (by simpa using hx)]
      refine orderedInsert_append ?_ ?_
      · intro y hy
        have hp : p y := by simpa using (List.mem_filter.mp hy).2
        simp only [if_neg hx, if_pos hp]
        exact hnot
      · intro y hy
        have hp : ¬ p y := by simpa using (List.mem_filter.mp hy).2
        simp only [if_neg hx, if_neg hp]
        exact le_refl high

/-- Lists with the same keys are sorted alike. -/
theorem map_sortOn_eq {l₁ l₂ : List α} (h : (l₁.map key).Perm (l₂.map key)) :
    (sortOn key l₁).map key = (sortOn key l₂).map key := by
  have hperm : ((sortOn key l₁).map key).Perm ((sortOn key l₂).map key) :=
    ((sortOn_perm key l₁).map key).trans (h.trans ((sortOn_perm key l₂).map key).symm)
  exact hperm.eq_of_pairwise' (pairwise_map_sortOn key l₁) (pairwise_map_sortOn key l₂)

/-- Of a list with distinct keys, the part whose keys are those of a smaller
list is sorted as the smaller list is. -/
theorem map_filter_sortOn {small large : List α} (hsmall : (small.map key).Nodup)
    (hlarge : (large.map key).Nodup) (hsub : ∀ x ∈ small, key x ∈ large.map key)
    {p : α → Prop} [DecidablePred p] (hp : ∀ x, p x ↔ key x ∈ small.map key) :
    ((sortOn key large).filter fun x => p x).map key = (sortOn key small).map key := by
  have hsub' : ((sortOn key large).filter fun x => p x).Sublist (sortOn key large) :=
    List.filter_sublist
  have hnodup : ((sortOn key large).map key).Nodup :=
    ((sortOn_perm key large).map key).nodup_iff.mpr hlarge
  have hperm : (((sortOn key large).filter fun x => p x).map key).Perm
      ((sortOn key small).map key) := by
    refine List.Perm.trans ?_ ((sortOn_perm key small).map key).symm
    refine (List.perm_ext_iff_of_nodup (hnodup.sublist (hsub'.map key)) hsmall).mpr ?_
    intro k
    constructor
    · intro hk
      obtain ⟨x, hx, rfl⟩ := List.mem_map.mp hk
      have hpx : p x := by simpa using (List.mem_filter.mp hx).2
      exact (hp x).mp hpx
    · intro hk
      obtain ⟨x, hx, rfl⟩ := List.mem_map.mp hk
      obtain ⟨y, hy, hkey⟩ := List.mem_map.mp (hsub x hx)
      have hpy : p y := (hp y).mpr (hkey ▸ hk)
      refine List.mem_map.mpr ⟨y, List.mem_filter.mpr ⟨?_, by simpa using hpy⟩, hkey⟩
      exact (mem_sortOn key).mpr hy
  refine hperm.eq_of_pairwise' ?_ (pairwise_map_sortOn key small)
  exact (pairwise_map_sortOn key large).sublist (hsub'.map key)

/-! ## Lists related item by item -/

section

variable {R : α → α → Prop}

theorem forall₂_orderedInsert {key key' : α → κ} (hkey : ∀ x y, R x y → key x = key' y)
    {x y : α} (hxy : R x y) {l l' : List α} (h : List.Forall₂ R l l') :
    List.Forall₂ R (l.orderedInsert (fun a b => key a ≤ key b) x)
      (l'.orderedInsert (fun a b => key' a ≤ key' b) y) := by
  induction h with
  | nil => exact .cons hxy .nil
  | @cons a b rest rest' hfirst hrest ih =>
    rw [List.orderedInsert_cons, List.orderedInsert_cons, hkey x y hxy, hkey a b hfirst]
    split
    · exact .cons hxy (.cons hfirst hrest)
    · exact .cons hfirst ih

/-- Lists whose items are related and have the same keys are sorted alike. -/
theorem forall₂_sortOn {key key' : α → κ} (hkey : ∀ x y, R x y → key x = key' y)
    {l l' : List α} (h : List.Forall₂ R l l') :
    List.Forall₂ R (sortOn key l) (sortOn key' l') := by
  induction h with
  | nil => exact .nil
  | cons hfirst _ ih => exact forall₂_orderedInsert hkey hfirst ih

end

/-- The order of a list with distinct keys does not matter. -/
theorem sortOn_eq_of_perm {l' : List α} (hnodup : (l.map key).Nodup) (h : l.Perm l') :
    sortOn key l = sortOn key l' := by
  have hperm : (sortOn key l).Perm (sortOn key l') :=
    (sortOn_perm key l).trans (h.trans (sortOn_perm key l').symm)
  have hle := List.pairwise_map.mp (pairwise_map_sortOn key l)
  have hle' := List.pairwise_map.mp (pairwise_map_sortOn key l')
  refine hperm.eq_of_pairwise ?_ hle hle'
  intro x y hx hy hxy hyx
  rw [mem_sortOn] at hx hy
  exact List.inj_on_of_nodup_map hnodup hx (h.mem_iff.mpr hy) (le_antisymm hxy hyx)

end OvirtArt.Foundation
