import Mathlib.Data.List.Count
import Mathlib.Data.List.Nodup
import Mathlib.Data.List.Range

set_option autoImplicit false

/-!
# Lists that are written under keys

Lists are written one after the other, each under a key, and those under one key are put
together.

Nothing is removed, so what stands under a key only grows.
-/

namespace OvirtArt.Foundation

variable {α β κ : Type} [DecidableEq κ]

/-- What is written under a key. -/
def valuesAt (writes : List (κ × List β)) (key : κ) : List β :=
  writes.flatMap fun write => if write.1 = key then write.2 else []

section

variable {writes : List (κ × List β)} {key : κ}

theorem valuesAt_cons (write : κ × List β) (writes : List (κ × List β)) (key : κ) :
    valuesAt (write :: writes) key =
      (if write.1 = key then write.2 else []) ++ valuesAt writes key := by
  unfold valuesAt
  rw [List.flatMap_cons]

theorem valuesAt_append (first second : List (κ × List β)) (key : κ) :
    valuesAt (first ++ second) key = valuesAt first key ++ valuesAt second key := by
  unfold valuesAt
  rw [List.flatMap_append]

theorem valuesAt_flatMap (xs : List α) (f : α → List (κ × List β)) (key : κ) :
    valuesAt (xs.flatMap f) key = xs.flatMap fun x => valuesAt (f x) key := by
  unfold valuesAt
  rw [List.flatMap_assoc]

theorem valuesAt_eq_nil (h : ∀ write ∈ writes, write.1 ≠ key) : valuesAt writes key = [] := by
  unfold valuesAt
  rw [List.flatMap_eq_nil_iff]
  exact fun write hmem => if_neg (h write hmem)

/-- Where nothing empty is written, there are at least as many values as writes. -/
theorem count_le_length_valuesAt [BEq κ] [LawfulBEq κ] (h : ∀ write ∈ writes, write.2 ≠ []) :
    (writes.map Prod.fst).count key ≤ (valuesAt writes key).length := by
  induction writes with
  | nil => exact Nat.le_refl 0
  | cons write writes ih =>
    obtain ⟨hfirst, hrest⟩ := List.forall_mem_cons.mp h
    rw [valuesAt_cons, List.map_cons, List.count_cons, List.length_append]
    have hle := ih hrest
    have hpos := List.length_pos_of_ne_nil hfirst
    by_cases hkey : write.1 = key
    · rw [if_pos hkey, if_pos (beq_iff_eq.mpr hkey)]
      omega
    · rw [if_neg hkey, if_neg (by simpa using hkey)]
      simpa using hle

end

/-! ## The same writes under other keys -/

section

variable {κ' : Type} [DecidableEq κ'] {xs : List α} {f : α → κ} {g : α → κ'} {v : α → List β}
  {a : κ} {b : κ'}

theorem valuesAt_map_congr (h : ∀ x ∈ xs, f x = a ↔ g x = b) :
    valuesAt (xs.map fun x => (f x, v x)) a = valuesAt (xs.map fun x => (g x, v x)) b := by
  unfold valuesAt
  rw [List.flatMap_map, List.flatMap_map]
  exact List.flatMap_congr fun x hx => by simp only [h x hx]

theorem length_valuesAt_le (h : ∀ x ∈ xs, f x = a → g x = b) :
    (valuesAt (xs.map fun x => (f x, v x)) a).length ≤
      (valuesAt (xs.map fun x => (g x, v x)) b).length := by
  induction xs with
  | nil => exact Nat.le_refl 0
  | cons x xs ih =>
    obtain ⟨hfirst, hrest⟩ := List.forall_mem_cons.mp h
    rw [List.map_cons, List.map_cons, valuesAt_cons, valuesAt_cons, List.length_append,
      List.length_append]
    refine Nat.add_le_add ?_ (ih hrest)
    by_cases hkey : f x = a
    · rw [if_pos hkey, if_pos (hfirst hkey)]
    · rw [if_neg hkey]
      exact Nat.zero_le _

/-- A write that is found under the second key only makes the difference. -/
theorem length_valuesAt_lt (h : ∀ x ∈ xs, f x = a → g x = b) {x : α} (hx : x ∈ xs)
    (hf : f x ≠ a) (hg : g x = b) (hv : v x ≠ []) :
    (valuesAt (xs.map fun x => (f x, v x)) a).length <
      (valuesAt (xs.map fun x => (g x, v x)) b).length := by
  obtain ⟨before, rest, rfl⟩ := List.append_of_mem hx
  have hbefore := @length_valuesAt_le _ _ _ _ _ _ before f g v a b
    fun y hy => h y (List.mem_append_left _ hy)
  have hrest := @length_valuesAt_le _ _ _ _ _ _ rest f g v a b
    fun y hy => h y (List.mem_append_right _ (List.mem_cons_of_mem _ hy))
  have hpos := List.length_pos_of_ne_nil hv
  simp only [List.map_append, List.map_cons, valuesAt_append, valuesAt_cons, List.length_append,
    if_neg hf, if_pos hg, List.length_nil]
  omega

end

theorem valuesAt_ne_nil {writes : List (κ × List β)} {write : κ × List β} (h : write ∈ writes)
    (hne : write.2 ≠ []) : valuesAt writes write.1 ≠ [] := by
  unfold valuesAt
  rw [Ne, List.flatMap_eq_nil_iff]
  intro hall
  exact hne ((if_pos rfl).symm.trans (hall write h))

/-- What is found among the values of one element only. -/
theorem flatMap_eq_of_forall_ne {xs : List α} {f : α → List β} {x : α} (hnodup : xs.Nodup)
    (hmem : x ∈ xs) (h : ∀ y ∈ xs, y ≠ x → f y = []) : xs.flatMap f = f x := by
  induction xs with
  | nil => exact absurd hmem List.not_mem_nil
  | cons y ys ih =>
    rw [List.nodup_cons] at hnodup
    obtain ⟨hfirst, hrest⟩ := List.forall_mem_cons.mp h
    rw [List.flatMap_cons]
    rcases List.mem_cons.mp hmem with rfl | hlater
    · have hothers : ys.flatMap f = [] := by
        rw [List.flatMap_eq_nil_iff]
        exact fun z hz => hrest z hz fun heq => hnodup.1 (heq ▸ hz)
      rw [hothers, List.append_nil]
    · rw [hfirst fun heq => hnodup.1 (heq ▸ hlater), List.nil_append,
        ih hnodup.2 hlater hrest]

end OvirtArt.Foundation
