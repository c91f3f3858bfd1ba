import Mathlib.Order.Basic

set_option autoImplicit false

/-!
# Loops without a bound

A `while` loop with fuel for so many rounds.  A round may raise.  With the states that its rounds
come to given, the loop ends where the condition fails or a round raises, and with no amount of fuel
if there is no such state.

Fuel is the means to write the loop down, never part of a result: the outcome is the same for all
fuel that suffices.
-/

namespace OvirtArt.Foundation

variable {ε σ : Type}

/-- `while goes: body`; without a result if the fuel is used up. -/
def whileLoop (goes : σ → Bool) (body : σ → Except ε σ) : Nat → σ → Option (Except ε σ)
  | 0, s => if goes s then none else some (.ok s)
  | fuel + 1, s =>
    if goes s then
      match body s with
      | .ok next => whileLoop goes body fuel next
      | .error e => some (.error e)
    else some (.ok s)

section

variable {goes : σ → Bool} {body : σ → Except ε σ} {s next : σ} {fuel : Nat}

theorem whileLoop_of_not_goes (h : goes s = false) (fuel : Nat) :
    whileLoop goes body fuel s = some (.ok s) := by
  cases fuel <;> rw [whileLoop, h] <;> rfl

theorem whileLoop_succ_of_ok (h : goes s = true) (hround : body s = .ok next) :
    whileLoop goes body (fuel + 1) s = whileLoop goes body fuel next := by
  rw [whileLoop, if_pos h, hround]

theorem whileLoop_succ_of_error {e : ε} (h : goes s = true) (hround : body s = .error e) :
    whileLoop goes body (fuel + 1) s = some (.error e) := by
  rw [whileLoop, if_pos h, hround]

/-- More fuel does not change a result. -/
theorem whileLoop_add {result : Except ε σ} (h : whileLoop goes body fuel s = some result)
    (more : Nat) : whileLoop goes body (fuel + more) s = some result := by
  induction fuel generalizing s with
  | zero =>
    by_cases hgoes : goes s = true
    · rw [whileLoop, if_pos hgoes] at h
      exact nomatch h
    · rw [whileLoop, if_neg hgoes] at h
      rw [whileLoop_of_not_goes (Bool.eq_false_iff.mpr hgoes), h]
  | succ fuel ih =>
    rw [Nat.add_right_comm]
    by_cases hgoes : goes s = true
    · cases hround : body s with
      | ok next =>
        rw [whileLoop_succ_of_ok hgoes hround] at h ⊢
        exact ih h
      | error e =>
        rw [whileLoop_succ_of_error hgoes hround] at h ⊢
        exact h
    · rw [whileLoop, if_neg hgoes] at h
      rw [whileLoop_of_not_goes (Bool.eq_false_iff.mpr hgoes), h]

/-- Two amounts of fuel that are enough give one result. -/
theorem whileLoop_unique {first second : Except ε σ} {more : Nat}
    (hfirst : whileLoop goes body fuel s = some first)
    (hsecond : whileLoop goes body more s = some second) : first = second := by
  have h := whileLoop_add hfirst more
  rw [Nat.add_comm, whileLoop_add hsecond fuel] at h
  exact (Option.some.inj h).symm

/-- A loop that ends has come to a state at which the condition fails. -/
theorem goes_of_whileLoop (h : whileLoop goes body fuel s = some (.ok next)) :
    goes next = false := by
  induction fuel generalizing s with
  | zero =>
    by_cases hgoes : goes s = true
    · rw [whileLoop, if_pos hgoes] at h
      exact nomatch h
    · rw [whileLoop, if_neg hgoes] at h
      obtain rfl := Except.ok.inj (Option.some.inj h)
      exact Bool.eq_false_iff.mpr hgoes
  | succ fuel ih =>
    by_cases hgoes : goes s = true
    · cases hround : body s with
      | ok after =>
        rw [whileLoop_succ_of_ok hgoes hround] at h
        exact ih h
      | error e =>
        rw [whileLoop_succ_of_error hgoes hround] at h
        exact nomatch h
    · rw [whileLoop, if_neg hgoes] at h
      obtain rfl := Except.ok.inj (Option.some.inj h)
      exact Bool.eq_false_iff.mpr hgoes

/-- A loop whose rounds do not raise does not raise. -/
theorem whileLoop_ne_error (hbody : ∀ s, ∃ next, body s = .ok next) {e : ε} :
    whileLoop goes body fuel s ≠ some (.error e) := by
  induction fuel generalizing s with
  | zero =>
    rw [whileLoop]
    split <;> exact nofun
  | succ fuel ih =>
    by_cases hgoes : goes s = true
    · obtain ⟨after, hround⟩ := hbody s
      rw [whileLoop_succ_of_ok hgoes hround]
      exact ih
    · rw [whileLoop, if_neg hgoes]
      exact nofun

/-! ## Loops whose states are known -/

variable {states : Nat → σ} {n : Nat}

/-- The loop goes through the first `n` of these states. -/
def GoesThrough (goes : σ → Bool) (body : σ → Except ε σ) (states : Nat → σ) (n : Nat) : Prop :=
  ∀ i < n, goes (states i) = true ∧ body (states i) = .ok (states (i + 1))

theorem goesThrough_zero : GoesThrough goes body states 0 :=
  fun _ hi => absurd hi (Nat.not_lt_zero _)

theorem goesThrough_succ_iff : GoesThrough goes body states (n + 1) ↔
    GoesThrough goes body states n ∧
      goes (states n) = true ∧ body (states n) = .ok (states (n + 1)) := by
  unfold GoesThrough
  rw [Nat.forall_lt_succ_right]

/-- A loop that does not go through so many states stops at one of them. -/
theorem exists_stop (h : ¬ GoesThrough goes body states n) :
    ∃ m < n, GoesThrough goes body states m ∧
      ¬ (goes (states m) = true ∧ body (states m) = .ok (states (m + 1))) := by
  induction n with
  | zero => exact absurd goesThrough_zero h
  | succ n ih =>
    by_cases hthrough : GoesThrough goes body states n
    · exact ⟨n, n.lt_succ_self, hthrough, fun hnext =>
        h (goesThrough_succ_iff.mpr ⟨hthrough, hnext⟩)⟩
    · obtain ⟨m, hm, hstop⟩ := ih hthrough
      exact ⟨m, Nat.lt_succ_of_lt hm, hstop⟩

theorem GoesThrough.whileLoop_add (h : GoesThrough goes body states n) (fuel : Nat) :
    whileLoop goes body (n + fuel) (states 0) = whileLoop goes body fuel (states n) := by
  induction n generalizing fuel with
  | zero => rw [Nat.zero_add]
  | succ n ih =>
    have hlast := h n n.lt_succ_self
    rw [Nat.succ_add_eq_add_succ, ih (fun i hi => h i (Nat.lt_succ_of_lt hi)),
      whileLoop_succ_of_ok hlast.1 hlast.2]

theorem GoesThrough.ends (h : GoesThrough goes body states n) (hend : goes (states n) = false) :
    whileLoop goes body n (states 0) = some (.ok (states n)) :=
  (h.whileLoop_add 0).trans (whileLoop_of_not_goes hend 0)

theorem GoesThrough.raises {e : ε} (h : GoesThrough goes body states n)
    (hgoes : goes (states n) = true) (hround : body (states n) = .error e) :
    whileLoop goes body (n + 1) (states 0) = some (.error e) :=
  (h.whileLoop_add 1).trans (whileLoop_succ_of_error hgoes hround)

/-- A loop that goes on forever has no result. -/
theorem whileLoop_eq_none (h : ∀ n, GoesThrough goes body states n) (fuel : Nat) :
    whileLoop goes body fuel (states 0) = none := by
  have hgoes : goes (states fuel) = true := (h (fuel + 1) fuel fuel.lt_succ_self).1
  rw [← Nat.add_zero fuel, (h fuel).whileLoop_add, whileLoop, if_pos hgoes]

end

end OvirtArt.Foundation
