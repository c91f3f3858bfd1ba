import Mathlib.Data.Finset.Sort

set_option autoImplicit false

/-!
# Runs of consecutive numbers

A list of numbers is cut into its maximal runs of consecutive numbers, from which it is read
back.  The runs of a set have a gap between each other.

The list is ascending and has no number twice.  Both directions are computed, and the form is
unique: no two runs can be joined.
-/

namespace OvirtArt.Foundation

/-- The numbers from `first` up to and including `last`. -/
structure Run where
  first : Nat
  last : Nat
  first_le_last : first ≤ last

namespace Run

/-- A number alone. -/
def single (n : Nat) : Run := ⟨n, n, Nat.le_refl n⟩

/-- The run with one more number before it. -/
def extend (n : Nat) (run : Run) (h : n + 1 = run.first) : Run :=
  ⟨n, run.last, by have := run.first_le_last; omega⟩

/-- The numbers of a run, in increasing order. -/
def numbers (run : Run) : List Nat := List.range' run.first (run.last + 1 - run.first)

theorem numbers_single (n : Nat) : (single n).numbers = [n] := by
  unfold numbers single
  rw [Nat.add_sub_cancel_left]
  rfl

theorem numbers_extend (n : Nat) (run : Run) (h : n + 1 = run.first) :
    (extend n run h).numbers = n :: run.numbers := by
  have hle := run.first_le_last
  have hlength : run.last + 1 - n = (run.last + 1 - run.first) + 1 := by omega
  unfold numbers extend
  rw [hlength, List.range'_succ, h]

theorem numbers_of_eq {run : Run} (h : run.first = run.last) : run.numbers = [run.first] := by
  unfold numbers
  rw [← h, Nat.add_sub_cancel_left]
  rfl

end Run

/-- The number joins the first run if it is right before it, and is a run of its own if not. -/
def addFront (n : Nat) : List Run → List Run
  | [] => [Run.single n]
  | run :: others =>
    if h : n + 1 = run.first then run.extend n h :: others
    else Run.single n :: run :: others

/-- The runs of a list of numbers. -/
def runs (numbers : List Nat) : List Run := numbers.foldr addFront []

theorem addFront_of_next {n : Nat} {run : Run} (h : n + 1 = run.first) (others : List Run) :
    addFront n (run :: others) = run.extend n h :: others := by
  rw [addFront, dif_pos h]

theorem addFront_of_gap {n : Nat} {run : Run} (h : n + 1 ≠ run.first) (others : List Run) :
    addFront n (run :: others) = Run.single n :: run :: others := by
  rw [addFront, dif_neg h]

theorem flatMap_numbers_addFront (n : Nat) (found : List Run) :
    (addFront n found).flatMap Run.numbers = n :: found.flatMap Run.numbers := by
  cases found with
  | nil =>
    rw [addFront, List.flatMap_cons, Run.numbers_single]
    rfl
  | cons run others =>
    by_cases h : n + 1 = run.first
    · rw [addFront_of_next h, List.flatMap_cons, Run.numbers_extend, List.cons_append,
        List.flatMap_cons]
    · rw [addFront_of_gap h, List.flatMap_cons, Run.numbers_single, List.singleton_append]

/-- The numbers are read back from their runs. -/
theorem flatMap_numbers_runs (numbers : List Nat) :
    (runs numbers).flatMap Run.numbers = numbers := by
  induction numbers with
  | nil => rfl
  | cons n numbers ih =>
    calc
      (addFront n (runs numbers)).flatMap Run.numbers
          = n :: (runs numbers).flatMap Run.numbers := flatMap_numbers_addFront n _
      _ = n :: numbers := by rw [ih]

theorem runs_eq_nil_iff {numbers : List Nat} : runs numbers = [] ↔ numbers = [] := by
  constructor
  · intro h
    rw [← flatMap_numbers_runs numbers, h]
    rfl
  · intro h
    rw [h]
    rfl

end OvirtArt.Foundation
