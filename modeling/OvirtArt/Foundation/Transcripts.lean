import Mathlib.Data.List.Chain

set_option autoImplicit false

/-!
# Machines with an output

A machine takes its inputs one after the other and puts something out for each.  The
rules say what a view of the whole output is, from what it is for one input: where the
machine remembers nothing but what its last input has left, and where it counts.

A view is a map on the output, such as the lines of one kind.  The run is by induction on the
inputs.
-/

namespace OvirtArt.Foundation

section

variable {σ α β γ κ : Type} {step : σ → α → σ × β}

/-- What the machine puts out, input by input. -/
def transcript (step : σ → α → σ × β) : σ → List α → List β
  | _, [] => []
  | s, a :: inputs => (step s a).2 :: transcript step (step s a).1 inputs

/-- A machine that carries from one input to the next only what the last one has left
gives the view wanted of every input exactly if each input goes with what the one before
it has left. -/
theorem transcript_map_eq_iff (view : β → γ) (wanted : α → γ) (carried : σ → κ) (left : α → κ)
    (fits : κ → α → Prop)
    (hview : ∀ s a, view (step s a).2 = wanted a ↔ fits (carried s) a)
    (hcarried : ∀ s a, carried (step s a).1 = left a) (s : σ) (inputs : List α) :
    (transcript step s inputs).map view = inputs.map wanted ↔
      (∀ a ∈ inputs.head?, fits (carried s) a) ∧
        inputs.IsChain fun a next => fits (left a) next := by
  induction inputs generalizing s with
  | nil => exact iff_of_true rfl ⟨by simp, List.IsChain.nil⟩
  | cons a inputs ih =>
    rw [transcript, List.map_cons, List.map_cons, List.cons.injEq, hview, ih, hcarried,
      List.isChain_cons]
    simp

/-- A machine that counts its inputs, and whose view of the output depends on the number
only, gives the views of the inputs with their numbers. -/
theorem transcript_map_numbered (view : β → γ) (number : σ → Nat) (numbered : Nat → α → γ)
    (hview : ∀ s a, view (step s a).2 = numbered (number s) a)
    (hnumber : ∀ s a, number (step s a).1 = number s + 1) (s : σ) (inputs : List α) :
    (transcript step s inputs).map view =
      (inputs.zipIdx (number s)).map fun input => numbered input.2 input.1 := by
  induction inputs generalizing s with
  | nil => rfl
  | cons a inputs ih =>
    rw [transcript, List.map_cons, List.zipIdx_cons, List.map_cons, hview, ih, hnumber]

end

end OvirtArt.Foundation
