import Mathlib.Data.List.Basic

set_option autoImplicit false

/-!
# Folding a verdict

A loop that carries a verdict and may raise.  Where a step only ever turns the
verdict to false, and its own judgement does not depend on the verdict so far,
the loop says true exactly if every step by itself does.

The judgement is a predicate of the element alone.  Nothing is said of a step whose exception
depends on the verdict so far.
-/

namespace OvirtArt.Foundation

variable {α ε : Type*}

/-- The judgement of a step is its own; the verdict so far is added to it. -/
def Conjunctive (step : Bool → α → Except ε Bool) : Prop :=
  ∀ verdict x, step verdict x = (step true x).map (verdict && ·)

theorem map_and_and (result : Except ε Bool) (first second : Bool) :
    (result.map (second && ·)).map (first && ·) = result.map ((first && second) && ·) := by
  cases result with
  | error e => rfl
  | ok b => simp [Except.map, Bool.and_assoc]

variable {step : Bool → α → Except ε Bool}

/-- The verdict at the beginning is added to that of the loop. -/
theorem Conjunctive.foldlM (h : Conjunctive step) (items : List α) (verdict : Bool) :
    items.foldlM step verdict = (items.foldlM step true).map (verdict && ·) := by
  induction items generalizing verdict with
  | nil => simp [Except.map, pure, Except.pure]
  | cons x rest ih =>
    rw [List.foldlM_cons, List.foldlM_cons, h verdict x]
    cases hx : step true x with
    | error e => rfl
    | ok judged =>
      have hrest := ih (verdict && judged)
      have hrest' := ih judged
      simp only [Except.map, bind, Except.bind] at hrest hrest' ⊢
      rw [hrest, hrest']
      exact (map_and_and (rest.foldlM step true) verdict judged).symm

/-- A judgement of a verdict that rejects exceptions, and holds of a conjunction exactly if it
holds of both its parts. -/
structure Judges (judge : Except ε Bool → Prop) : Prop where
  ok_true : judge (.ok true)
  error : ∀ e, ¬ judge (.error e)
  conj : ∀ verdict result, judge (result.map (verdict && ·)) ↔ judge (.ok verdict) ∧ judge result

/-- The verdict is true. -/
theorem judges_ok_true : Judges fun result : Except ε Bool => result = .ok true where
  ok_true := rfl
  error := fun _ h => by cases h
  conj := fun verdict result => by
    cases result with
    | error e => simp [Except.map]
    | ok b => simp [Except.map]

/-- There is a verdict. -/
theorem judges_ok : Judges fun result : Except ε Bool => ∃ verdict, result = .ok verdict where
  ok_true := ⟨true, rfl⟩
  error := fun _ ⟨_, h⟩ => by cases h
  conj := fun verdict result => by
    cases result with
    | error e => simp [Except.map]
    | ok b => simp [Except.map]

/-- The loop is judged as all its steps are. -/
theorem Conjunctive.foldlM_iff {judge : Except ε Bool → Prop} (hjudge : Judges judge)
    (h : Conjunctive step) (items : List α) :
    judge (items.foldlM step true) ↔ ∀ x ∈ items, judge (step true x) := by
  induction items with
  | nil => exact iff_of_true hjudge.ok_true fun _ hx => absurd hx List.not_mem_nil
  | cons x rest ih =>
    rw [List.foldlM_cons, List.forall_mem_cons, ← ih]
    cases hx : step true x with
    | error e => exact iff_of_false (hjudge.error e) fun hboth => hjudge.error e hboth.1
    | ok judged =>
      change judge (rest.foldlM step judged) ↔ _
      rw [h.foldlM rest judged, hjudge.conj]

end OvirtArt.Foundation
