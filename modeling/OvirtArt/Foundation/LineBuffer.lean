import Mathlib.Data.List.Basic

set_option autoImplicit false

/-!
# Lines out of a stream that comes in pieces

A text is cut behind each terminator; what follows the last one is the rest.  A reader that
keeps the rest and puts the next piece behind it finds the same lines for every way of cutting
the stream into pieces.

The terminator is one element.  The machine is one step for each piece, and the result is by
induction on the pieces; nothing is asked of where they are cut.
-/

namespace OvirtArt.Foundation

variable {α : Type} [DecidableEq α] {terminator : α}

/-- The lines of a text with their terminators, and what follows the last one. -/
def cutLines (terminator : α) : List α → List (List α) × List α
  | [] => ([], [])
  | c :: text =>
    if c = terminator then ([c] :: (cutLines terminator text).1, (cutLines terminator text).2)
    else
      match cutLines terminator text with
      | ([], rest) => ([], c :: rest)
      | (line :: lines, rest) => ((c :: line) :: lines, rest)

/-- The lines with their terminators. -/
def linesOf (terminator : α) (text : List α) : List (List α) := (cutLines terminator text).1

/-- What follows the last terminator. -/
def restOf (terminator : α) (text : List α) : List α := (cutLines terminator text).2

section

variable {c : α} {text : List α}

theorem cutLines_eq :
    cutLines terminator text = (linesOf terminator text, restOf terminator text) :=
  rfl

theorem cutLines_terminator :
    cutLines terminator (terminator :: text) =
      ([terminator] :: linesOf terminator text, restOf terminator text) :=
  if_pos rfl

theorem cutLines_cons_of_ne (hc : c ≠ terminator) :
    cutLines terminator (c :: text) =
      match linesOf terminator text, restOf terminator text with
      | [], rest => ([], c :: rest)
      | line :: lines, rest => ((c :: line) :: lines, rest) := by
  refine (if_neg hc).trans ?_
  rw [cutLines_eq]
  cases linesOf terminator text with
  | nil => rfl
  | cons line lines => rfl

theorem linesOf_terminator :
    linesOf terminator (terminator :: text) = [terminator] :: linesOf terminator text :=
  congrArg Prod.fst cutLines_terminator

theorem restOf_terminator :
    restOf terminator (terminator :: text) = restOf terminator text := by
  change (cutLines terminator (terminator :: text)).2 = _
  rw [cutLines_terminator]

theorem cutLines_cons_of_none (hc : c ≠ terminator) (hnone : linesOf terminator text = []) :
    cutLines terminator (c :: text) = ([], c :: restOf terminator text) := by
  rw [cutLines_cons_of_ne hc, hnone]

variable {lines : List (List α)} {line : List α}

theorem cutLines_cons_of_some (hc : c ≠ terminator)
    (hsome : linesOf terminator text = line :: lines) :
    cutLines terminator (c :: text) = ((c :: line) :: lines, restOf terminator text) := by
  rw [cutLines_cons_of_ne hc, hsome]

theorem linesOf_cons_of_none (hc : c ≠ terminator) (hnone : linesOf terminator text = []) :
    linesOf terminator (c :: text) = [] :=
  congrArg Prod.fst (cutLines_cons_of_none hc hnone)

theorem restOf_cons_of_none (hc : c ≠ terminator) (hnone : linesOf terminator text = []) :
    restOf terminator (c :: text) = c :: restOf terminator text :=
  congrArg Prod.snd (cutLines_cons_of_none hc hnone)

theorem linesOf_cons_of_some (hc : c ≠ terminator) (hsome : linesOf terminator text = line :: lines)
    :
    linesOf terminator (c :: text) = (c :: line) :: lines :=
  congrArg Prod.fst (cutLines_cons_of_some hc hsome)

theorem restOf_cons_of_some (hc : c ≠ terminator) (hsome : linesOf terminator text = line :: lines)
    :
    restOf terminator (c :: text) = restOf terminator text := by
  change (cutLines terminator (c :: text)).2 = _
  rw [cutLines_cons_of_some hc hsome]

end

/-- Nothing is lost, and nothing changes its place. -/
theorem flatten_linesOf_append_restOf (text : List α) :
    (linesOf terminator text).flatten ++ restOf terminator text = text := by
  induction text with
  | nil => rfl
  | cons c text ih =>
    by_cases hc : c = terminator
    · subst hc
      rw [linesOf_terminator, restOf_terminator, List.flatten_cons, List.append_assoc, ih]
      rfl
    · cases hlines : linesOf terminator text with
      | nil =>
        rw [hlines] at ih
        rw [linesOf_cons_of_none hc hlines, restOf_cons_of_none hc hlines]
        exact congrArg (c :: ·) ih
      | cons line lines =>
        rw [hlines] at ih
        rw [linesOf_cons_of_some hc hlines, restOf_cons_of_some hc hlines]
        exact congrArg (c :: ·) ih

/-- Each line ends with the terminator. -/
theorem getLast?_of_mem_linesOf {text line : List α} (h : line ∈ linesOf terminator text) :
    line.getLast? = some terminator := by
  induction text generalizing line with
  | nil => cases h
  | cons c text ih =>
    by_cases hc : c = terminator
    · subst hc
      rw [linesOf_terminator, List.mem_cons] at h
      rcases h with rfl | h
      · rfl
      · exact ih h
    · cases hlines : linesOf terminator text with
      | nil =>
        rw [linesOf_cons_of_none hc hlines] at h
        cases h
      | cons first lines =>
        rw [linesOf_cons_of_some hc hlines, List.mem_cons] at h
        rcases h with rfl | h
        · have hfirst : first.getLast? = some terminator :=
            ih (hlines ▸ List.mem_cons_self)
          rw [List.getLast?_cons, hfirst]
          rfl
        · exact ih (hlines ▸ List.mem_cons_of_mem first h)

/-- There is no terminator in the rest. -/
theorem not_mem_restOf (text : List α) : terminator ∉ restOf terminator text := by
  induction text with
  | nil => exact List.not_mem_nil
  | cons c text ih =>
    by_cases hc : c = terminator
    · subst hc
      rw [restOf_terminator]
      exact ih
    · cases hlines : linesOf terminator text with
      | nil =>
        rw [restOf_cons_of_none hc hlines, List.mem_cons, not_or]
        exact ⟨Ne.symm hc, ih⟩
      | cons line lines =>
        rw [restOf_cons_of_some hc hlines]
        exact ih

theorem linesOf_of_not_mem {text : List α} (h : terminator ∉ text) :
    linesOf terminator text = [] := by
  induction text with
  | nil => rfl
  | cons c text ih =>
    rw [List.mem_cons, not_or] at h
    exact linesOf_cons_of_none (Ne.symm h.1) (ih h.2)

/-! ## Pieces -/

/-- The lines of the first piece, and those of its rest with the second piece behind it. -/
theorem linesOf_append (first second : List α) :
    linesOf terminator (first ++ second) =
      linesOf terminator first ++ linesOf terminator (restOf terminator first ++ second) := by
  induction first with
  | nil => rfl
  | cons c text ih =>
    rw [List.cons_append]
    by_cases hc : c = terminator
    · subst hc
      rw [linesOf_terminator, linesOf_terminator, restOf_terminator, ih]
      rfl
    · cases hlines : linesOf terminator text with
      | nil =>
        rw [hlines] at ih
        rw [linesOf_cons_of_none hc hlines, restOf_cons_of_none hc hlines,
          List.nil_append, List.cons_append]
        cases hrest : linesOf terminator (restOf terminator text ++ second) with
        | nil =>
          rw [linesOf_cons_of_none hc (ih.trans hrest), linesOf_cons_of_none hc hrest]
        | cons line lines =>
          rw [linesOf_cons_of_some hc (ih.trans hrest), linesOf_cons_of_some hc hrest]
      | cons line lines =>
        rw [hlines] at ih
        rw [linesOf_cons_of_some hc ih, linesOf_cons_of_some hc hlines,
          restOf_cons_of_some hc hlines]
        rfl

theorem restOf_append (first second : List α) :
    restOf terminator (first ++ second) =
      restOf terminator (restOf terminator first ++ second) := by
  induction first with
  | nil => rfl
  | cons c text ih =>
    rw [List.cons_append]
    have hlinesAppend := @linesOf_append α _ terminator text second
    by_cases hc : c = terminator
    · subst hc
      rw [restOf_terminator, restOf_terminator, ih]
    · cases hlines : linesOf terminator text with
      | nil =>
        rw [hlines] at hlinesAppend
        rw [restOf_cons_of_none hc hlines, List.cons_append]
        cases hrest : linesOf terminator (restOf terminator text ++ second) with
        | nil =>
          rw [restOf_cons_of_none hc (hlinesAppend.trans hrest),
            restOf_cons_of_none hc hrest, ih]
        | cons line lines =>
          rw [restOf_cons_of_some hc (hlinesAppend.trans hrest),
            restOf_cons_of_some hc hrest, ih]
      | cons line lines =>
        rw [hlines] at hlinesAppend
        rw [restOf_cons_of_some hc hlinesAppend, restOf_cons_of_some hc hlines, ih]

end OvirtArt.Foundation
