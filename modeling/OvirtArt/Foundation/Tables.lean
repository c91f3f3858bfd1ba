import Mathlib.Data.List.Nodup
import OvirtArt.Foundation.Collecting

set_option autoImplicit false

/-!
# Tables that are filled key by key

A table is a function from keys.  A loop that computes one entry after the other, and
stops at the first one that cannot be computed, ends with the table of all entries.

The keys are a list without duplicates; entries of other keys are not touched.
-/

namespace OvirtArt.Foundation

variable {α β ε κ : Type} [DecidableEq κ]

/-- One entry after the other. -/
def fillTable (compute : α → Except ε β) (key : α → κ) (table : κ → β) (inputs : List α) :
    Except ε (κ → β) :=
  inputs.foldlM (fun table a => (compute a).map (Function.update table (key a))) table

/-- The table that comes out has the entries that are computed, and what it had before. -/
theorem fillTable_eq_ok_iff {compute : α → Except ε β} {key : α → κ} {inputs : List α}
    (hnodup : (inputs.map key).Nodup) {before after : κ → β} :
    fillTable compute key before inputs = .ok after ↔
      (∀ a ∈ inputs, compute a = .ok (after (key a))) ∧
        ∀ k ∉ inputs.map key, after k = before k := by
  induction inputs generalizing before with
  | nil =>
    simp only [fillTable, List.foldlM_nil, List.not_mem_nil, false_implies, implies_true,
      true_and, List.map_nil, not_false_eq_true, true_implies]
    exact ⟨fun h k => congrFun (Except.ok.inj h).symm k, fun h => congrArg _ (funext h).symm⟩
  | cons a inputs ih =>
    rw [List.map_cons, List.nodup_cons] at hnodup
    obtain ⟨hfirst, hrest⟩ := hnodup
    have hstep : fillTable compute key before (a :: inputs) =
        (compute a).bind fun b =>
          fillTable compute key (Function.update before (key a) b) inputs := by
      unfold fillTable
      rw [List.foldlM_cons]
      cases compute a <;> rfl
    rw [hstep, List.forall_mem_cons]
    cases hcompute : compute a with
    | error e => exact iff_of_false (fun h => by cases h) fun h => by cases h.1.1
    | ok b =>
      refine (ih hrest).trans ?_
      constructor
      · rintro ⟨hcomputed, hothers⟩
        have hkey : after (key a) = b := by rw [hothers _ hfirst, Function.update_self]
        refine ⟨⟨by rw [hkey], hcomputed⟩, fun k hk => ?_⟩
        rw [List.map_cons, List.mem_cons, not_or] at hk
        rw [hothers k hk.2, Function.update_of_ne hk.1]
      · rintro ⟨⟨hfound, hcomputed⟩, hothers⟩
        refine ⟨hcomputed, fun k hk => ?_⟩
        by_cases hkey : k = key a
        · subst hkey
          rw [Function.update_self]
          exact (Except.ok.inj hfound).symm
        · rw [Function.update_of_ne hkey]
          refine hothers k ?_
          rw [List.map_cons, List.mem_cons, not_or]
          exact ⟨hkey, hk⟩

end OvirtArt.Foundation
