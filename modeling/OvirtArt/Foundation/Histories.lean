import Mathlib.Data.List.Basic

set_option autoImplicit false

/-!
# Elements and their histories

What holds of each element of a list together with the elements before it, and the
last few elements of a list.

A history is the list of what came before an element, oldest first.  The two notions meet where a
loop only looks at the last few elements.
-/

namespace OvirtArt.Foundation

variable {α : Type}

/-- The property holds of each element and of what is before it. -/
def AtEach (property : List α → α → Prop) (xs : List α) : Prop :=
  ∀ before x rest, xs = before ++ x :: rest → property before x

section

variable {property : List α → α → Prop} {x : α} {xs : List α}

theorem atEach_nil : AtEach property [] := by
  intro before x rest h
  cases before <;> cases h

theorem atEach_cons :
    AtEach property (x :: xs) ↔
      property [] x ∧ AtEach (fun before => property (x :: before)) xs := by
  constructor
  · intro h
    refine ⟨h [] x xs rfl, fun before y rest hsplit => ?_⟩
    exact h (x :: before) y rest (by rw [hsplit, List.cons_append])
  · rintro ⟨hfirst, hrest⟩ before y rest hsplit
    cases before with
    | nil =>
      obtain ⟨rfl, _⟩ := List.cons.inj hsplit
      exact hfirst
    | cons z before =>
      obtain ⟨rfl, hxs⟩ := List.cons.inj hsplit
      exact hrest before y rest hxs

theorem atEach_concat :
    AtEach property (xs ++ [x]) ↔ AtEach property xs ∧ property xs x := by
  constructor
  · intro h
    refine ⟨fun before y rest hsplit => ?_, h xs x [] rfl⟩
    exact h before y (rest ++ [x]) (by rw [hsplit, List.append_assoc, List.cons_append])
  · rintro ⟨hxs, hlast⟩ before y rest hsplit
    rcases List.eq_nil_or_concat rest with rfl | ⟨more, z, rfl⟩
    · obtain ⟨rfl, hy⟩ := List.append_inj' hsplit rfl
      obtain rfl := List.singleton_inj.mp hy
      exact hlast
    · have hconcat : before ++ y :: (more ++ [z]) = (before ++ y :: more) ++ [z] := by simp
      rw [List.concat_eq_append, hconcat] at hsplit
      exact hxs before y more (List.append_inj' hsplit rfl).1

end

/-! ## The last few -/

/-- The last `n` elements, or all of them. -/
def lastFew (n : Nat) (xs : List α) : List α := xs.drop (xs.length - n)

theorem length_lastFew (n : Nat) (xs : List α) : (lastFew n xs).length = min n xs.length := by
  unfold lastFew
  rw [List.length_drop]
  omega

/-- One more element pushes out the first of the last few, where there are enough. -/
theorem lastFew_concat {n : Nat} (hn : 0 < n) (xs : List α) (x : α) :
    lastFew n (xs ++ [x]) =
      (if (lastFew n xs).length = n then (lastFew n xs).drop 1 else lastFew n xs) ++ [x] := by
  rw [length_lastFew]
  unfold lastFew
  rw [List.length_append, List.length_singleton]
  split
  case isTrue h =>
    have hdrop : xs.length + 1 - n = xs.length - n + 1 := by omega
    rw [hdrop, List.drop_drop, List.drop_append_of_le_length (by omega)]
  case isFalse h =>
    have hdrop : xs.length + 1 - n = 0 := by omega
    have hnone : xs.length - n = 0 := by omega
    rw [hdrop, hnone, List.drop_zero, List.drop_zero]

end OvirtArt.Foundation
