import Mathlib.Algebra.GroupWithZero.Nat
import Mathlib.Algebra.Order.BigOperators.Group.List
import Mathlib.Algebra.Order.Group.Nat
import Mathlib.Data.List.Nodup

set_option autoImplicit false

/-!
# Replacing one element of a list

What a map and a concatenation over a list become when one element is replaced,
in the form in which a proof about a table of records uses it: the element that
was there stands on the other side.

They hold for any type, and are the frame lemmas of models that keep their workers or objects in a
list.
-/

namespace OvirtArt.Foundation

variable {α β : Type*} {l : List α} {i : Nat}

/-- Writing back what is already there changes nothing. -/
theorem set_of_getElem? {a : α} (h : l[i]? = some a) : l.set i a = l := by
  obtain ⟨hi, rfl⟩ := List.getElem?_eq_some_iff.mp h
  exact List.set_getElem_self hi

/-- A field that the new element shares with the old one is unchanged in the
table of that field. -/
theorem map_set_of_eq {old new : α} (f : α → β) (h : l[i]? = some old) (hf : f new = f old) :
    (l.set i new).map f = l.map f := by
  rw [List.map_set, hf]
  apply set_of_getElem?
  simp [h]

theorem count_flatMap_set [BEq β] {old : α} (new : α) (f : α → List β) (h : l[i]? = some old)
    (b : β) :
    ((l.set i new).flatMap f).count b + (f old).count b =
      (l.flatMap f).count b + (f new).count b := by
  induction l generalizing i with
  | nil => simp at h
  | cons head rest ih =>
    cases i with
    | zero =>
      obtain rfl : head = old := by simpa using h
      simp only [List.set_cons_zero, List.flatMap_cons, List.count_append]
      omega
    | succ i =>
      have hrest := ih (by simpa using h)
      simp only [List.set_cons_succ, List.flatMap_cons, List.count_append]
      omega

theorem length_flatMap_set {old : α} (new : α) (f : α → List β) (h : l[i]? = some old) :
    ((l.set i new).flatMap f).length + (f old).length =
      (l.flatMap f).length + (f new).length := by
  induction l generalizing i with
  | nil => simp at h
  | cons head rest ih =>
    cases i with
    | zero =>
      obtain rfl : head = old := by simpa using h
      simp only [List.set_cons_zero, List.flatMap_cons, List.length_append]
      omega
    | succ i =>
      have hrest := ih (by simpa using h)
      simp only [List.set_cons_succ, List.flatMap_cons, List.length_append]
      omega

/-- What a function does not see of a change made in place, a concatenation of
its values does not see either. -/
theorem flatMap_modify {g : α → α} (f : α → List β) (hf : ∀ a, f (g a) = f a) :
    (l.modify i g).flatMap f = l.flatMap f := by
  induction l generalizing i with
  | nil => simp
  | cons head rest ih =>
    cases i with
    | zero => simp [hf]
    | succ i => simp [ih]

/-! ## Sizes of what is selected -/

theorem sum_filterMap (f : α → Option β) (size : β → Nat) (l : List α) :
    ((l.filterMap f).map size).sum = (l.map fun a => ((f a).map size).getD 0).sum := by
  induction l with
  | nil => rfl
  | cons a l ih =>
    cases h : f a with
    | none => simp [h, ih]
    | some b => simp [h, ih]

theorem eq_of_sum_eq {f g : α → Nat} (hle : ∀ a ∈ l, f a ≤ g a)
    (hsum : (l.map f).sum = (l.map g).sum) : ∀ a ∈ l, f a = g a := by
  induction l with
  | nil => exact fun a h => absurd h List.not_mem_nil
  | cons first l ih =>
    obtain ⟨hfirst, hrest⟩ := List.forall_mem_cons.mp hle
    have htail : (l.map f).sum ≤ (l.map g).sum := List.sum_le_sum hrest
    simp only [List.map_cons, List.sum_cons] at hsum
    refine List.forall_mem_cons.mpr ⟨by omega, ih hrest (by omega)⟩

/-- Of two selections of which the one is nowhere larger than the other, and which give the
same but for the order, both are everywhere of one size. -/
theorem size_eq_of_filterMap_perm {f g : α → Option β} (size : β → Nat)
    (hle : ∀ a ∈ l, ((f a).map size).getD 0 ≤ ((g a).map size).getD 0)
    (hperm : (l.filterMap f).Perm (l.filterMap g)) :
    ∀ a ∈ l, ((f a).map size).getD 0 = ((g a).map size).getD 0 := by
  refine eq_of_sum_eq hle ?_
  rw [← sum_filterMap, ← sum_filterMap]
  exact (hperm.map size).sum_eq

/-- Elements that contribute nothing need not be gone through. -/
theorem flatMap_filter_of_eq_nil {f : α → List β} {p : α → Bool}
    (h : ∀ a ∈ l, p a = false → f a = []) : (l.filter p).flatMap f = l.flatMap f := by
  induction l with
  | nil => rfl
  | cons a rest ih =>
    have hrest := ih fun b hb => h b (List.mem_cons_of_mem a hb)
    cases hp : p a with
    | true => rw [List.filter_cons_of_pos hp, List.flatMap_cons, List.flatMap_cons, hrest]
    | false =>
      rw [List.filter_cons_of_neg (by simp [hp]), List.flatMap_cons, hrest,
        h a List.mem_cons_self hp, List.nil_append]

/-- Values that say where they come from come only once. -/
theorem nodup_flatMap_of_source {f : α → List β} (source : β → α) (hl : l.Nodup)
    (hf : ∀ a ∈ l, (f a).Nodup) (hsource : ∀ a, ∀ b ∈ f a, source b = a) : (l.flatMap f).Nodup := by
  refine List.nodup_flatMap.mpr ⟨hf, hl.imp fun hne => ?_⟩
  intro b hfirst hsecond
  exact hne ((hsource _ b hfirst).symm.trans (hsource _ b hsecond))

/-! ## Lists related item by item -/

/-- Every item of the first list has a partner. -/
theorem exists_right_of_forall₂ {R : α → β → Prop} {l' : List β} (h : List.Forall₂ R l l') {x : α}
    (hx : x ∈ l) : ∃ y ∈ l', R x y := by
  induction h with
  | nil => cases hx
  | cons hfirst _ ih =>
    rcases List.mem_cons.mp hx with rfl | hrest
    · exact ⟨_, List.mem_cons_self, hfirst⟩
    · obtain ⟨y, hy, hxy⟩ := ih hrest
      exact ⟨y, List.mem_cons_of_mem _ hy, hxy⟩

theorem exists_left_of_forall₂ {R : α → β → Prop} {l' : List β} (h : List.Forall₂ R l l') {y : β}
    (hy : y ∈ l') : ∃ x ∈ l, R x y :=
  exists_right_of_forall₂ (R := flip R) h.flip hy

end OvirtArt.Foundation
