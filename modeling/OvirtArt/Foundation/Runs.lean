import Mathlib.Data.List.Basic
import Mathlib.Data.Option.Basic

set_option autoImplicit false

/-!
# Runs of partially enabled steps

A system is given by one partial function `step : σ → α → Option σ`: from a
state and a label to the next state, `none` where the labelled step is not
enabled.  A schedule is a list of labels.  This file fixes, once, what a run of
a schedule is, which states it visits and which steps it takes, and the two
rules by which a fact about one step becomes a fact about every run.

Nothing is assumed of fairness or of the end of a run.  A result about every run is an invariant
and its step lemma; one about some run gives the schedule.
-/

namespace OvirtArt.Foundation

variable {σ α : Type*} (step : σ → α → Option σ)

/-- Execute a schedule; `none` as soon as one of its steps is not enabled. -/
def run : σ → List α → Option σ
  | s, [] => some s
  | s, a :: rest => (step s a).bind fun next => run next rest

/-- `Q` holds of every state that the schedule visits, the first one included. -/
def EveryState (Q : σ → Prop) : σ → List α → Prop
  | s, [] => Q s
  | s, a :: rest => Q s ∧ ∀ next, step s a = some next → EveryState Q next rest

/-- `P` holds of every step that the schedule takes: of the state before it and
its label. -/
def EveryStep (P : σ → α → Prop) : σ → List α → Prop
  | _, [] => True
  | s, a :: rest => ∀ next, step s a = some next → P s a ∧ EveryStep P next rest

/-- `t` can be reached from `s` by some schedule. -/
def Reaches (s t : σ) : Prop := ∃ schedule, run step s schedule = some t

variable {step}

@[simp] theorem run_nil (s : σ) : run step s [] = some s := rfl

@[simp] theorem run_cons (s : σ) (a : α) (rest : List α) :
    run step s (a :: rest) = (step s a).bind fun next => run step next rest := rfl

theorem run_append (s : σ) (first second : List α) :
    run step s (first ++ second) =
      (run step s first).bind fun middle => run step middle second := by
  induction first generalizing s with
  | nil => rfl
  | cons a rest ih =>
    cases hstep : step s a with
    | none => simp [hstep]
    | some next => simpa [hstep] using ih next

variable {P : σ → α → Prop} {I Q : σ → Prop} {s t : σ}

/-- The first step of a nonempty run. -/
theorem run_cons_some {a : α} {rest : List α} (hrun : run step s (a :: rest) = some t) :
    ∃ next, step s a = some next ∧ run step next rest = some t := by
  simpa [Option.bind_eq_some_iff] using hrun

instance decidableEveryStep {P : σ → α → Prop} [∀ s a, Decidable (P s a)] :
    ∀ (s : σ) (schedule : List α), Decidable (EveryStep step P s schedule)
  | _, [] => isTrue trivial
  | s, a :: rest =>
    match hstep : step s a with
    | none => isTrue (by simp [EveryStep, hstep])
    | some next =>
      have := decidableEveryStep (P := P) next rest
      decidable_of_iff (P s a ∧ EveryStep step P next rest) (by simp [EveryStep, hstep])

/-! ## Reachability -/

theorem Reaches.refl (s : σ) : Reaches step s s := ⟨[], rfl⟩

theorem Reaches.single {a : α} (hstep : step s a = some t) :
    Reaches step s t := ⟨[a], by simp [hstep]⟩

theorem Reaches.trans {u : σ} (first : Reaches step s t) (second : Reaches step t u) :
    Reaches step s u := by
  obtain ⟨before, hbefore⟩ := first
  obtain ⟨after, hafter⟩ := second
  exact ⟨before ++ after, by rw [run_append, hbefore]; exact hafter⟩

theorem Reaches.head {u : σ} {a : α} (hstep : step s a = some t) (rest : Reaches step t u) :
    Reaches step s u :=
  (Reaches.single hstep).trans rest

/-! ## Rules -/

/-- The invariant rule: what every step keeps, every run keeps. -/
theorem run_invariant (keep : ∀ {s t a}, I s → step s a = some t → I t) :
    ∀ {schedule : List α} {s t : σ}, I s → run step s schedule = some t → I t
  | [], s, t, hs, hrun => by
      obtain rfl : s = t := Option.some.inj hrun
      exact hs
  | a :: rest, s, t, hs, hrun => by
      obtain ⟨next, hstep, htail⟩ := run_cons_some hrun
      exact run_invariant keep (keep hs hstep) htail

theorem Reaches.invariant (keep : ∀ {s t a}, I s → step s a = some t → I t) (hs : I s)
    (reach : Reaches step s t) : I t := by
  obtain ⟨schedule, hrun⟩ := reach
  exact run_invariant keep hs hrun

/-- Where every step leaves less to do, a run has at most as many steps as there is to do. -/
theorem length_add_rank_le {rank : σ → Nat}
    (less : ∀ {s t a}, step s a = some t → rank t < rank s) :
    ∀ {schedule : List α} {s t : σ}, run step s schedule = some t →
      schedule.length + rank t ≤ rank s
  | [], s, t, hrun => by
      obtain rfl : s = t := Option.some.inj hrun
      exact Nat.le_of_eq (Nat.zero_add _)
  | a :: rest, s, t, hrun => by
      obtain ⟨next, hstep, htail⟩ := run_cons_some hrun
      have hrest := length_add_rank_le less htail
      have hless := less hstep
      rw [List.length_cons]
      omega

/-- A run that is guarded step by step keeps the invariant in every state it
visits. -/
theorem everyState_of_everyStep (keep : ∀ {s t a}, I s → P s a → step s a = some t → I t) :
    ∀ {schedule : List α} {s : σ}, I s → EveryStep step P s schedule →
      EveryState step I s schedule
  | [], _, hs, _ => hs
  | _ :: _, _, hs, hguard =>
    ⟨hs, fun next hstep => everyState_of_everyStep keep
      (keep hs (hguard next hstep).1 hstep) (hguard next hstep).2⟩

theorem EveryState.head :
    ∀ {schedule : List α}, EveryState step Q s schedule → Q s
  | [], h => h
  | _ :: _, h => h.1

theorem EveryState.mono {R : σ → Prop} (himp : ∀ s, Q s → R s) :
    ∀ {schedule : List α} {s : σ}, EveryState step Q s schedule →
      EveryState step R s schedule
  | [], _, h => himp _ h
  | _ :: _, _, h => ⟨himp _ h.1, fun next hstep => (h.2 next hstep).mono himp⟩

/-- The last state of a run is one of the states it visits. -/
theorem EveryState.last :
    ∀ {schedule : List α} {s t : σ}, EveryState step Q s schedule →
      run step s schedule = some t → Q t
  | [], s, t, h, hrun => by
      obtain rfl : s = t := Option.some.inj hrun
      exact h
  | _ :: _, _, _, h, hrun => by
      obtain ⟨next, hstep, htail⟩ := run_cons_some hrun
      exact (h.2 next hstep).last htail

/-- What holds of every step from a state with the invariant holds of every step of a run. -/
theorem everyStep_of_invariant (keep : ∀ {s t a}, I s → step s a = some t → I t)
    (holds : ∀ {s a}, I s → P s a) :
    ∀ {schedule : List α} {s : σ}, I s → EveryStep step P s schedule
  | [], _, _ => trivial
  | _ :: _, _, hs => fun _ hstep =>
    ⟨holds hs, everyStep_of_invariant keep holds (keep hs hstep)⟩

/-- The exactness rule.  Where, under an invariant that every step keeps, a step
from a state with `Q` ends in a state with `Q` exactly if it meets the guard, a
schedule visits states with `Q` only exactly if all its steps meet the guard. -/
theorem everyState_iff_everyStep (keep : ∀ {s t a}, I s → step s a = some t → I t)
    (exact_step : ∀ {s t a}, I s → Q s → step s a = some t → (Q t ↔ P s a)) :
    ∀ {schedule : List α} {s : σ}, I s → Q s →
      (EveryState step Q s schedule ↔ EveryStep step P s schedule)
  | [], _, _, hQ => by simp [EveryState, EveryStep, hQ]
  | a :: rest, s, hI, hQ => by
      have hrest : ∀ next, step s a = some next → Q next →
          (EveryState step Q next rest ↔ EveryStep step P next rest) :=
        fun next hstep hnext =>
          everyState_iff_everyStep keep exact_step (keep hI hstep) hnext
      constructor
      · rintro ⟨_, hstates⟩ next hstep
        have hnext : Q next := (hstates next hstep).head
        exact ⟨(exact_step hI hQ hstep).mp hnext,
          (hrest next hstep hnext).mp (hstates next hstep)⟩
      · intro hsteps
        refine ⟨hQ, fun next hstep => ?_⟩
        obtain ⟨hP, htail⟩ := hsteps next hstep
        exact (hrest next hstep ((exact_step hI hQ hstep).mpr hP)).mpr htail

/-- Two conditions on steps that agree under an invariant agree on runs, if the steps that meet
them keep the invariant. -/
theorem everyStep_congr_of_keep {Q : σ → α → Prop}
    (keep : ∀ {s t a}, I s → P s a → step s a = some t → I t)
    (same : ∀ {s a}, I s → (P s a ↔ Q s a)) :
    ∀ {schedule : List α} {s : σ}, I s →
      (EveryStep step P s schedule ↔ EveryStep step Q s schedule)
  | [], _, _ => Iff.rfl
  | a :: rest, s, hI => by
      unfold EveryStep
      refine forall_congr' fun next => imp_congr_right fun hstep => ?_
      rw [← same hI]
      exact and_congr_right fun hP => everyStep_congr_of_keep keep same (keep hI hP hstep)

/-- Two conditions on steps that agree under an invariant agree on runs. -/
theorem everyStep_congr {Q : σ → α → Prop} (keep : ∀ {s t a}, I s → step s a = some t → I t)
    (same : ∀ {s a}, I s → (P s a ↔ Q s a)) {schedule : List α} (hI : I s) :
    EveryStep step P s schedule ↔ EveryStep step Q s schedule :=
  everyStep_congr_of_keep (fun hI _ => keep hI) same hI

/-- The exactness rule at the end of a run.  Where a step ends in a state with
`Q` exactly if it starts in one and meets the guard, a run ends in a state with
`Q` exactly if it starts in one and all its steps meet the guard. -/
theorem last_iff_everyStep (keep : ∀ {s t a}, I s → step s a = some t → I t)
    (exact_step : ∀ {s t a}, I s → step s a = some t → (Q t ↔ Q s ∧ P s a)) :
    ∀ {schedule : List α} {s t : σ}, I s → run step s schedule = some t →
      (Q t ↔ Q s ∧ EveryStep step P s schedule)
  | [], s, t, _, hrun => by
      obtain rfl : s = t := Option.some.inj hrun
      simp [EveryStep]
  | a :: rest, s, t, hI, hrun => by
      obtain ⟨next, hstep, htail⟩ := run_cons_some hrun
      have hrest := last_iff_everyStep keep exact_step (keep hI hstep) htail
      rw [hrest, exact_step hI hstep, and_assoc]
      simp [EveryStep, hstep]

end OvirtArt.Foundation
