import Mathlib.Data.List.Nodup
import Mathlib.Data.List.Perm.Basic
import OvirtArt.Foundation.Effects

set_option autoImplicit false

/-!
# Elements drawn from a list that shrinks

A loop takes elements from given places of a list, and each element that it takes is gone from
the list.  What has been taken and what is left make up the list at any time, so a place is
still there exactly if there are more elements behind it than have been taken.

Places are given as the loop takes them, each counted in the list that is left.  Which elements
stand there is not asked.
-/

namespace OvirtArt.Foundation

variable {ε α β : Type}

/-- The element at the place, which is taken from the list. -/
def pop (raised : ε) (index : Nat) : EStateM ε (List α) α := do
  let items ← get
  match items[index]? with
  | some item => do
      set (items.eraseIdx index)
      pure item
  | none => throw raised

/-- The elements taken and those left are the ones there were. -/
def Drawn (items taken left : List α) : Prop := (taken ++ left).Perm items

/-- The places are there when their elements are taken one after the other. -/
def Fits (size : Nat) : Nat → List Nat → Prop
  | _, [] => True
  | taken, index :: rest => index + taken < size ∧ Fits size (taken + 1) rest

variable {items taken left : List α} {raised : ε} {size : Nat}

theorem drawn_nil (items : List α) : Drawn items [] items := List.Perm.refl items

theorem Drawn.length_eq (h : Drawn items taken left) :
    taken.length + left.length = items.length := by
  rw [← List.length_append]
  exact List.Perm.length_eq h

theorem Drawn.nodup (h : Drawn items taken left) (hitems : items.Nodup) : taken.Nodup :=
  (List.nodup_append.mp (h.nodup_iff.mpr hitems)).1

theorem Drawn.mem {a : α} (h : Drawn items taken left) (ha : a ∈ taken) : a ∈ items :=
  h.mem_iff.mp (List.mem_append_left left ha)

theorem fits_append (size taken : Nat) (first second : List Nat) :
    Fits size taken (first ++ second)
      ↔ Fits size taken first ∧ Fits size (taken + first.length) second := by
  induction first generalizing taken with
  | nil => exact (and_iff_right trivial).symm
  | cons index rest ih =>
    rw [List.length_cons, show taken + (rest.length + 1) = taken + 1 + rest.length by omega]
    exact (and_congr_right fun _ => ih (taken + 1)).trans and_assoc.symm

/-- The places from the front are there as long as the last one is. -/
theorem fits_range_iff (size taken places : Nat) :
    Fits size taken (List.range places) ↔ places = 0 ∨ 2 * places + taken < size + 2 := by
  induction places with
  | zero => exact iff_of_true trivial (.inl rfl)
  | succ places ih =>
    rw [List.range_succ, fits_append, ih, List.length_range]
    change _ ∧ (places + (taken + places) < size ∧ True) ↔ _
    rw [and_true]
    omega

/-! ## What a loop has taken -/

/-- An element is taken exactly if its place is there. -/
theorem triple_pop (items taken : List α) (raised : ε) (index : Nat) :
    Triple (Drawn items taken) (pop raised index)
      (fun a left => index + taken.length < items.length ∧ Drawn items (taken ++ [a]) left)
      fun _ => ¬ index + taken.length < items.length := by
  intro left hleft
  have hlength := hleft.length_eq
  by_cases hindex : index < left.length
  · have hrun : (pop raised index).run left = .ok left[index] (left.eraseIdx index) := by
      simp only [pop, EStateM.run_bind, EStateM.run_get, List.getElem?_eq_getElem hindex]
      rfl
    rw [hrun]
    refine ⟨by omega, ?_⟩
    have hperm : (left[index] :: left.eraseIdx index).Perm left :=
      List.getElem_cons_eraseIdx_perm hindex
    unfold Drawn
    rw [List.append_assoc]
    exact (hperm.append_left taken).trans hleft
  · have hrun : (pop raised index).run left = .error raised left := by
      simp only [pop, EStateM.run_bind, EStateM.run_get,
        List.getElem?_eq_none (Nat.le_of_not_lt hindex)]
      rfl
    rw [hrun]
    change ¬ index + taken.length < items.length
    omega

/-- What is done in a round: elements are taken from the places, and a value is made of them. -/
def Takes (items : List α) (write : List α → β) (places : List Nat)
    (m : EStateM ε (List α) β) : Prop :=
  ∀ taken, Triple (Drawn items taken) m
    (fun b left => Fits items.length taken.length places
      ∧ ∃ drawn : List α, write drawn = b ∧ drawn.length = places.length
        ∧ Drawn items (taken ++ drawn) left)
    fun _ => ¬ Fits items.length taken.length places

theorem takes_pure (items : List α) (write : List α → β) :
    Takes items write [] (pure (write []) : EStateM ε (List α) β) := by
  intro taken
  refine triple_pure fun left hleft => ⟨trivial, [], rfl, rfl, ?_⟩
  rw [List.append_nil]
  exact hleft

variable {write : List α → β}

/-- An element is taken from the first place, and the rest of the round goes on after it. -/
theorem takes_pop_bind {index : Nat} {places : List Nat} {f : α → EStateM ε (List α) β}
    (hf : ∀ a, Takes items (fun drawn => write (a :: drawn)) places (f a)) :
    Takes items write (index :: places) (pop raised index >>= f) := by
  intro taken
  by_cases hindex : index + taken.length < items.length
  · have hfirst : Triple (Drawn items taken) (pop raised index)
        (fun a left => Drawn items (taken ++ [a]) left)
        fun _ => ¬ Fits items.length taken.length (index :: places) :=
      (triple_pop items taken raised index).imp (fun _ h => h) (fun _ _ h => h.2)
        fun _ h => absurd hindex h
    refine hfirst.bind fun a => (hf a (taken ++ [a])).imp (fun _ h => h) ?_ ?_
    · rintro b left ⟨hfits, drawn, hwrite, hlength, hdrawn⟩
      rw [List.length_append] at hfits
      rw [List.append_assoc] at hdrawn
      exact ⟨⟨hindex, hfits⟩, a :: drawn, hwrite, congrArg (· + 1) hlength, hdrawn⟩
    · intro _ h hfits
      rw [List.length_append] at h
      exact h hfits.2
  · have hfirst : Triple (Drawn items taken) (pop raised index) (fun _ _ => False)
        fun _ => ¬ Fits items.length taken.length (index :: places) :=
      (triple_pop items taken raised index).imp (fun _ h => h) (fun _ _ h => hindex h.1)
        fun _ _ hfits => hindex hfits.1
    exact hfirst.bind fun _ _ h => h.elim

/-- The elements of the places are taken one after the other. -/
theorem takes_mapM_pop_bind {f : List α → β} (places : List Nat)
    (hf : ∀ drawn, write drawn = f drawn) :
    Takes items write places (do
      let drawn ← places.mapM (pop raised)
      pure (f drawn)) := by
  induction places generalizing write f with
  | nil =>
    rw [List.mapM_nil, pure_bind, ← hf]
    exact takes_pure items write
  | cons index rest ih =>
    rw [List.mapM_cons, bind_assoc]
    refine takes_pop_bind fun a => ?_
    rw [bind_assoc]
    exact ih fun drawn => hf (a :: drawn)

/-- The rounds of a loop take their elements one after the other, and it returns exactly if
all the places are there. -/
theorem triple_rounds {f : Nat → EStateM ε (List α) β} {places : Nat → List Nat}
    (hf : ∀ i, Takes items write (places i) (f i)) (rounds : List Nat) (taken : List α) :
    Triple (Drawn items taken) (rounds.mapM f)
      (fun values left => Fits items.length taken.length (rounds.flatMap places)
        ∧ ∃ groups : List (List α), groups.map write = values
          ∧ groups.map List.length = rounds.map (fun i => (places i).length)
          ∧ Drawn items (taken ++ groups.flatten) left)
      fun _ => ¬ Fits items.length taken.length (rounds.flatMap places) := by
  induction rounds generalizing taken with
  | nil =>
    refine triple_pure fun left hleft => ⟨trivial, [], rfl, rfl, ?_⟩
    rw [List.flatten_nil, List.append_nil]
    exact hleft
  | cons i rest ih =>
    rw [List.mapM_cons]
    have hround : Triple (Drawn items taken) (f i)
        (fun b left => Fits items.length taken.length (places i)
          ∧ ∃ drawn : List α, write drawn = b ∧ drawn.length = (places i).length
            ∧ Drawn items (taken ++ drawn) left)
        fun _ => ¬ Fits items.length taken.length (places i ++ rest.flatMap places) := by
      refine (hf i taken).imp (fun _ h => h) (fun _ _ h => h) fun _ h hfits => h ?_
      exact ((fits_append _ _ _ _).mp hfits).1
    refine hround.bind fun b => ?_
    intro left hleft
    obtain ⟨hfits, drawn, hwrite, hlength, hdrawn⟩ := hleft
    have hrest := ih (taken ++ drawn) left hdrawn
    rw [List.length_append, hlength] at hrest
    rw [EStateM.run_bind]
    cases hrun : (rest.mapM f).run left with
    | ok values left' =>
      simp only [hrun] at hrest
      obtain ⟨hfits', groups, hvalues, hlengths, hdrawn'⟩ := hrest
      refine ⟨(fits_append _ _ _ _).mpr ⟨hfits, hfits'⟩, drawn :: groups, ?_, ?_, ?_⟩
      · rw [List.map_cons, hwrite, hvalues]
      · rw [List.map_cons, hlength, hlengths, List.map_cons]
      · rw [List.flatten_cons, ← List.append_assoc]
        exact hdrawn'
    | error e left' =>
      simp only [hrun] at hrest
      exact fun h => hrest ((fits_append _ _ _ _).mp h).2

end OvirtArt.Foundation
