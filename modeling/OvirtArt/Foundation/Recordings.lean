import Mathlib.Init

set_option autoImplicit false

/-!
# Computations that record what they do

A computation makes entries, which nobody reads, and returns a value or raises.  What it has
recorded stays recorded when it raises.

The rules say what has been recorded, and what is returned, apart from each other.
-/

namespace OvirtArt.Foundation

/-- The entries of a computation, in their order, and what it comes to. -/
structure Recorded (ε κ α : Type) where
  entries : List κ
  result : Except ε α

namespace Recorded

variable {ε κ α β γ : Type}

instance : Monad (Recorded ε κ) where
  pure a := { entries := [], result := .ok a }
  bind m f :=
    match m.result with
    | .ok a => { entries := m.entries ++ (f a).entries, result := (f a).result }
    | .error e => { entries := m.entries, result := .error e }

/-- A value or an exception from outside. -/
def call (x : Except ε α) : Recorded ε κ α where
  entries := []
  result := x

/-- One entry, and then a value or an exception from outside. -/
def ask (entry : κ) (x : Except ε α) : Recorded ε κ α where
  entries := [entry]
  result := x

/-- One entry. -/
def note (entry : κ) : Recorded ε κ Unit := ask entry (.ok ())

/-- No entry of the computation is bad. -/
def Avoids (bad : κ → Prop) (m : Recorded ε κ α) : Prop := ∀ entry ∈ m.entries, ¬ bad entry

section

variable {bad : κ → Prop} {m : Recorded ε κ α} {f : α → Recorded ε κ β} {a : α} {b : β}
  {entry : κ} {x : Except ε α}

theorem bind_eq_of_ok (h : m.result = .ok a) :
    m >>= f = { entries := m.entries ++ (f a).entries, result := (f a).result } := by
  change (match m.result with | .ok a => _ | .error e => _) = _
  rw [h]

theorem bind_eq_of_error {e : ε} (h : m.result = .error e) :
    m >>= f = { entries := m.entries, result := .error e } := by
  change (match m.result with | .ok a => _ | .error e => _) = _
  rw [h]

/-- A sequence of two computations returns exactly if both do. -/
theorem result_bind_eq_ok_iff :
    (m >>= f).result = .ok b ↔ ∃ a, m.result = .ok a ∧ (f a).result = .ok b := by
  cases h : m.result with
  | ok a =>
    rw [bind_eq_of_ok h]
    refine ⟨fun hb => ⟨a, rfl, hb⟩, ?_⟩
    rintro ⟨other, hother, hb⟩
    obtain rfl := Except.ok.inj hother
    exact hb
  | error e =>
    rw [bind_eq_of_error h]
    refine iff_of_false nofun ?_
    rintro ⟨other, hother, -⟩
    exact nomatch hother

theorem result_pure_eq_ok_iff {a other : α} :
    (pure a : Recorded ε κ α).result = .ok other ↔ a = other :=
  ⟨Except.ok.inj, congrArg Except.ok⟩

theorem avoids_pure : Avoids bad (pure a : Recorded ε κ α) := nofun

theorem avoids_call : Avoids bad (call x : Recorded ε κ α) := nofun

theorem avoids_ask_iff : Avoids bad (ask entry x) ↔ ¬ bad entry :=
  List.forall_mem_singleton

/-- What comes after a computation that returns avoids bad entries by itself. -/
theorem avoids_bind_iff (h : m.result = .ok a) :
    Avoids bad (m >>= f) ↔ Avoids bad m ∧ Avoids bad (f a) := by
  rw [bind_eq_of_ok h]
  exact List.forall_mem_append

/-- Whatever is returned, and whether anything is. -/
theorem avoids_bind_of_result (hm : Avoids bad m)
    (hf : ∀ a, m.result = .ok a → Avoids bad (f a)) : Avoids bad (m >>= f) := by
  cases h : m.result with
  | ok a => exact (avoids_bind_iff h).mpr ⟨hm, hf a h⟩
  | error e =>
    rw [bind_eq_of_error h]
    exact hm

theorem avoids_bind (hm : Avoids bad m) (hf : ∀ a, Avoids bad (f a)) : Avoids bad (m >>= f) :=
  avoids_bind_of_result hm fun a _ => hf a

theorem avoids_ite {c : Prop} [Decidable c] {m n : Recorded ε κ α} (hm : c → Avoids bad m)
    (hn : ¬ c → Avoids bad n) : Avoids bad (if c then m else n) := by
  by_cases hc : c
  · rw [if_pos hc]
    exact hm hc
  · rw [if_neg hc]
    exact hn hc

end

/-! ## Loops -/

section

variable {bad : κ → Prop} {xs : List γ} {f : γ → Recorded ε κ PUnit}

theorem result_forM_eq_ok_iff : (xs.forM f).result = .ok ⟨⟩ ↔ ∀ x ∈ xs, (f x).result = .ok ⟨⟩ := by
  induction xs with
  | nil => exact iff_of_true rfl nofun
  | cons x xs ih =>
    rw [List.forall_mem_cons, ← ih]
    exact result_bind_eq_ok_iff.trans ⟨fun ⟨_, h⟩ => h, fun h => ⟨⟨⟩, h⟩⟩

theorem avoids_forM_iff (h : ∀ x ∈ xs, (f x).result = .ok ⟨⟩) :
    Avoids bad (xs.forM f) ↔ ∀ x ∈ xs, Avoids bad (f x) := by
  induction xs with
  | nil => exact iff_of_true avoids_pure nofun
  | cons x xs ih =>
    obtain ⟨hx, hrest⟩ := List.forall_mem_cons.mp h
    rw [List.forall_mem_cons, ← ih hrest]
    exact avoids_bind_iff hx

theorem avoids_forM (h : ∀ x ∈ xs, Avoids bad (f x)) : Avoids bad (xs.forM f) := by
  induction xs with
  | nil => exact avoids_pure
  | cons x xs ih =>
    obtain ⟨hx, hrest⟩ := List.forall_mem_cons.mp h
    exact avoids_bind hx fun _ => ih hrest

/-- A loop whose rounds do not depend on what it has collected. -/
theorem foldlM_eq_forM {σ : Type} {collect : σ → γ → σ} (s : σ) :
    xs.foldlM (fun s x => do f x; return collect s x) s =
      (do xs.forM f; return xs.foldl collect s : Recorded ε κ σ) := by
  induction xs generalizing s with
  | nil => rfl
  | cons x xs ih =>
    rw [List.foldlM_cons]
    cases hx : (f x).result with
    | error e =>
      have hfirst : (do f x; return collect s x : Recorded ε κ σ) =
          { entries := (f x).entries, result := .error e } := bind_eq_of_error hx
      have hloop : (x :: xs).forM f = { entries := (f x).entries, result := .error e } :=
        bind_eq_of_error hx
      rw [hfirst, hloop]
      rfl
    | ok value =>
      have hfirst : (do f x; return collect s x : Recorded ε κ σ) =
          { entries := (f x).entries ++ [], result := .ok (collect s x) } := bind_eq_of_ok hx
      have hloop : (x :: xs).forM f =
          { entries := (f x).entries ++ (xs.forM f).entries, result := (xs.forM f).result } :=
        bind_eq_of_ok hx
      rw [hfirst, hloop, List.append_nil, bind_eq_of_ok rfl, ih]
      cases hrest : (xs.forM f).result with
      | error e =>
        rw [bind_eq_of_error hrest, bind_eq_of_error rfl]
      | ok value =>
        rw [bind_eq_of_ok hrest]
        exact congrArg (Recorded.mk · _) (List.append_assoc _ _ _).symm

/-- The loop that remembers whether all rounds have succeeded. -/
theorem result_status_eq_ok_iff {f : γ → Recorded ε κ Bool} {status : Bool} :
    (xs.foldlM (fun status x => do
        let ok ← f x
        return if ok then status else false) status).result = .ok true ↔
      status = true ∧ ∀ x ∈ xs, (f x).result = .ok true := by
  induction xs generalizing status with
  | nil =>
    exact result_pure_eq_ok_iff.trans (and_iff_left (fun _ h => absurd h List.not_mem_nil)).symm
  | cons x xs ih =>
    rw [List.foldlM_cons, result_bind_eq_ok_iff, List.forall_mem_cons]
    simp only [ih]
    constructor
    · rintro ⟨next, hnext, rfl, hrest⟩
      obtain ⟨ok, hok, hvalue⟩ := result_bind_eq_ok_iff.mp hnext
      have hvalue := result_pure_eq_ok_iff.mp hvalue
      cases ok with
      | false => exact nomatch hvalue
      | true => exact ⟨hvalue, hok, hrest⟩
    · rintro ⟨rfl, hx, hrest⟩
      exact ⟨true, result_bind_eq_ok_iff.mpr ⟨true, hx, rfl⟩, rfl, hrest⟩

/-- Where all rounds succeed, each of them avoids bad entries by itself. -/
theorem avoids_status_iff {f : γ → Recorded ε κ Bool} {status : Bool}
    (h : ∀ x ∈ xs, (f x).result = .ok true) :
    Avoids bad (xs.foldlM (fun status x => do
        let ok ← f x
        return if ok then status else false) status) ↔ ∀ x ∈ xs, Avoids bad (f x) := by
  induction xs generalizing status with
  | nil => exact iff_of_true avoids_pure nofun
  | cons x xs ih =>
    obtain ⟨hx, hrest⟩ := List.forall_mem_cons.mp h
    have hround : (do
        let ok ← f x
        return if ok then status else false : Recorded ε κ Bool).result = .ok status :=
      result_bind_eq_ok_iff.mpr ⟨true, hx, rfl⟩
    rw [List.foldlM_cons, List.forall_mem_cons, avoids_bind_iff hround, avoids_bind_iff hx,
      and_iff_left avoids_pure, ih hrest]

/-- A loop whose rounds all return: what each of them records does not depend on the value. -/
theorem foldlM_eq_of_rounds {σ : Type} {f : σ → γ → Recorded ε κ σ} {entries : γ → List κ}
    {next : σ → γ → σ} {s : σ}
    (h : ∀ s, ∀ x ∈ xs, f s x = { entries := entries x, result := .ok (next s x) }) :
    xs.foldlM f s = { entries := xs.flatMap entries, result := .ok (xs.foldl next s) } := by
  induction xs generalizing s with
  | nil => rfl
  | cons x xs ih =>
    have hrest := @ih (next s x) fun s y hy => h s y (List.mem_cons_of_mem x hy)
    rw [List.foldlM_cons, h s x List.mem_cons_self, bind_eq_of_ok rfl, hrest]
    rfl

theorem avoids_foldlM {σ : Type} {f : σ → γ → Recorded ε κ σ} {s : σ}
    (h : ∀ s, ∀ x ∈ xs, Avoids bad (f s x)) : Avoids bad (xs.foldlM f s) := by
  induction xs generalizing s with
  | nil => exact avoids_pure
  | cons x xs ih =>
    refine avoids_bind (h s x List.mem_cons_self) fun t => ih fun s y hy => ?_
    exact h s y (List.mem_cons_of_mem x hy)

end

end Recorded

end OvirtArt.Foundation
