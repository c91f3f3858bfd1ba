import OvirtArt.Foundation.Effects

set_option autoImplicit false

/-!
# Procedures that only emit

`emit done s` is the state `s` in which the values `done` have been emitted.  A procedure
emits some values if it returns from every such state and has only added them.

This is the form in which the calls of a script are followed: what a whole script emits is what
its parts emit, in their order.
-/

namespace OvirtArt.Foundation

variable {ε σ κ γ : Type} {emit : List κ → σ → σ} {s : σ}

/-- The procedure returns, having emitted these values and done nothing else. -/
def Emits (emit : List κ → σ → σ) (s : σ) (m : EStateM ε σ Unit) (values : List κ) : Prop :=
  ∀ done, m.run (emit done s) = .ok () (emit (done ++ values) s)

theorem emits_pure : Emits emit s (pure () : EStateM ε σ Unit) [] := by
  intro done
  rw [List.append_nil]
  rfl

theorem Emits.bind {m n : EStateM ε σ Unit} {first second : List κ} (hm : Emits emit s m first)
    (hn : Emits emit s n second) : Emits emit s (m >>= fun _ => n) (first ++ second) := by
  intro done
  rw [EStateM.run_bind, hm done]
  simp only
  rw [hn (done ++ first), List.append_assoc]

/-- What is read is a state in which some values have been emitted. -/
theorem emits_get_bind {f : σ → EStateM ε σ Unit} {values : List κ}
    (hf : ∀ done, Emits emit s (f (emit done s)) values) : Emits emit s (get >>= f) values :=
  fun done => hf done done

/-- A loop emits what its rounds emit. -/
theorem Emits.forM {f : γ → EStateM ε σ Unit} {values : γ → List κ} {xs : List γ}
    (hf : ∀ x ∈ xs, Emits emit s (f x) (values x)) :
    Emits emit s (xs.forM f) (xs.flatMap values) := by
  induction xs with
  | nil => exact emits_pure
  | cons x rest ih =>
    exact (hf x List.mem_cons_self).bind (ih fun y hy => hf y (List.mem_cons_of_mem x hy))

/-! ## Tasks of an executor -/

section

variable {τ : Type}

/-- The order in which the tasks of an executor run. -/
structure Schedule (tasks : List τ) where
  order : List τ
  perm : order.Perm tasks

/-- The tasks run one after the other, and nobody asks whether they have raised. -/
def runAll (work : τ → EStateM ε σ Unit) : List τ → σ → σ
  | [], s => s
  | task :: rest, s => runAll work rest (after (work task) s)

/-- What each task adds, returning or raising, is there in the order of the tasks. -/
theorem runAll_adds {work : τ → EStateM ε σ Unit} {view : σ → List κ} {added : τ → List κ}
    (h : ∀ task s, view (after (work task) s) = view s ++ added task) (order : List τ) (s : σ) :
    view (runAll work order s) = view s ++ order.flatMap added := by
  induction order generalizing s with
  | nil => exact (List.append_nil (view s)).symm
  | cons task rest ih =>
    calc
      view (runAll work (task :: rest) s)
          = view (after (work task) s) ++ rest.flatMap added := ih _
      _ = view s ++ (task :: rest).flatMap added := by
        rw [h, List.append_assoc, List.flatMap_cons]

/-- Whatever the order is, the same is added. -/
theorem runAll_perm {work : τ → EStateM ε σ Unit} {view : σ → List κ} {added : τ → List κ}
    (h : ∀ task s, view (after (work task) s) = view s ++ added task) {tasks : List τ}
    (schedule : Schedule tasks) {s : σ} (hempty : view s = []) :
    (view (runAll work schedule.order s)).Perm (tasks.flatMap added) := by
  rw [runAll_adds h, hempty]
  exact schedule.perm.flatMap_right added

end

end OvirtArt.Foundation
