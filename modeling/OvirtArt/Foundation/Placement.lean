import Mathlib.Data.Finset.Card

set_option autoImplicit false

/-!
# Items placed in bins by an adversary

Items come one after the other and are placed in any bin that still has room.  With as many
items as bins, both from big to small and each item no bigger than its bin, this file says when
no bin can receive two items.

The adversary is a sequence of choices of which nothing is known but that each bin has the room.
Real numbers are not needed: sizes are natural numbers.
-/

namespace OvirtArt.Foundation.Placement

variable {β : Type*} [DecidableEq β]

/-- The sizes of the items in a bin, when the items from `first` on went where the choices
say. -/
def loadFrom (size : Nat → Nat) : Nat → List β → β → Nat
  | _, [], _ => 0
  | first, choice :: rest, bin =>
    (if choice = bin then size first else 0) + loadFrom size (first + 1) rest bin

/-- The sizes of the items in a bin. -/
def load (size : Nat → Nat) (choices : List β) (bin : β) : Nat := loadFrom size 0 choices bin

/-- The next item has room in the bin. -/
def Fits (capacity : β → Nat) (size : Nat → Nat) (choices : List β) (bin : β) : Prop :=
  load size choices bin + size choices.length ≤ capacity bin

/-- The choices that can be made, each for the next item and a bin with room for it. -/
inductive Placed (capacity : β → Nat) (size : Nat → Nat) : List β → Prop where
  | nil : Placed capacity size []
  | snoc {choices : List β} {bin : β} (placed : Placed capacity size choices)
      (fits : Fits capacity size choices bin) : Placed capacity size (choices ++ [bin])

/-- However the first `n` items are placed, no bin receives two of them, and there is always
room for the next one. -/
def OnePerBin (capacity : β → Nat) (size : Nat → Nat) (n : Nat) : Prop :=
  ∀ choices, Placed capacity size choices → choices.length ≤ n →
    choices.Nodup ∧ (choices.length < n → ∃ bin, Fits capacity size choices bin)

/-- The items and the bins are numbered from big to small, and each item fits in its bin. -/
structure Ranked (capacity : β → Nat) (size : Nat → Nat) (n : Nat) (bin : Nat → β) : Prop where
  injective : ∀ i j, i < n → j < n → bin i = bin j → i = j
  surjective : ∀ b, ∃ i < n, bin i = b
  capacity_anti : ∀ i j, i ≤ j → j < n → capacity (bin j) ≤ capacity (bin i)
  size_anti : ∀ i j, i ≤ j → j < n → size j ≤ size i
  size_le : ∀ i < n, size i ≤ capacity (bin i)

/-- No bin that an item can reach has room for this item and the last one: where the items from
`i` to `k` can each move to the next bin, the bin `i` is too small for the item `k` and the
last one. -/
def Apart (capacity size : Nat → Nat) (n : Nat) : Prop :=
  ∀ i k, i ≤ k → k + 1 < n → (∀ l, i ≤ l → l < k → size l ≤ capacity (l + 1)) →
    capacity i < size k + size (n - 1)

/-- Whether the items keep apart does not depend on the unit. -/
theorem apart_mul_iff {capacity size capacity' size' : Nat → Nat} {n unit : Nat} (hunit : 0 < unit)
    (hcapacity : ∀ i < n, capacity' i = capacity i * unit)
    (hsize : ∀ i < n, size' i = size i * unit) :
    Apart capacity' size' n ↔ Apart capacity size n := by
  have hmove : ∀ l, l + 1 < n → (size' l ≤ capacity' (l + 1) ↔ size l ≤ capacity (l + 1)) := by
    intro l hl
    rw [hsize l (by omega), hcapacity (l + 1) hl, Nat.mul_le_mul_right_iff hunit]
  have hroom : ∀ i k, i ≤ k → k + 1 < n → (capacity' i < size' k + size' (n - 1) ↔
      capacity i < size k + size (n - 1)) := by
    intro i k hik hkn
    rw [hcapacity i (by omega), hsize k (by omega), hsize (n - 1) (by omega), ← Nat.add_mul,
      Nat.mul_lt_mul_right hunit]
  constructor
  · intro h i k hik hkn hmoves
    exact (hroom i k hik hkn).mp
      (h i k hik hkn fun l hil hlk => (hmove l (by omega)).mpr (hmoves l hil hlk))
  · intro h i k hik hkn hmoves
    exact (hroom i k hik hkn).mpr
      (h i k hik hkn fun l hil hlk => (hmove l (by omega)).mp (hmoves l hil hlk))

/-! ## What is in a bin -/

section

variable {size : Nat → Nat} {choices : List β} {bin : β} {first k : Nat}

theorem loadFrom_of_not_mem (h : bin ∉ choices) : loadFrom size first choices bin = 0 := by
  induction choices generalizing first with
  | nil => rfl
  | cons choice rest ih =>
    rw [List.mem_cons, not_or] at h
    rw [loadFrom, if_neg (Ne.symm h.1), ih h.2]

theorem loadFrom_of_nodup (h : choices.Nodup) (hk : choices[k]? = some bin) :
    loadFrom size first choices bin = size (first + k) := by
  induction choices generalizing first k with
  | nil => cases hk
  | cons choice rest ih =>
    obtain ⟨hnotin, hrest⟩ := List.nodup_cons.mp h
    cases k with
    | zero =>
      obtain rfl : choice = bin := Option.some.inj hk
      rw [loadFrom, if_pos rfl, loadFrom_of_not_mem hnotin]
      rfl
    | succ k =>
      have hmem : bin ∈ rest := List.mem_of_getElem? hk
      have hne : choice ≠ bin := fun heq => hnotin (heq ▸ hmem)
      rw [loadFrom, if_neg hne, ih hrest hk, Nat.zero_add, Nat.add_assoc, Nat.add_comm 1 k]

theorem load_of_not_mem (h : bin ∉ choices) : load size choices bin = 0 := loadFrom_of_not_mem h

theorem load_of_nodup (h : choices.Nodup) (hk : choices[k]? = some bin) :
    load size choices bin = size k := by
  rw [load, loadFrom_of_nodup h hk, Nat.zero_add]

end

variable {capacity : β → Nat} {size : Nat → Nat} {choices : List β} {n : Nat}

omit [DecidableEq β] in
theorem index_lt_of_snoc {k : Nat} {last b : β} (hk : (choices ++ [last])[k]? = some b) :
    k < choices.length + 1 := by
  have hlt := (List.getElem?_eq_some_iff.mp hk).1
  rwa [List.length_append, List.length_singleton] at hlt

/-- Each item that has been placed is no bigger than the bin that it went to. -/
theorem Placed.size_le (h : Placed capacity size choices) {k : Nat} {b : β}
    (hk : choices[k]? = some b) : size k ≤ capacity b := by
  induction h with
  | nil => cases hk
  | @snoc choices last placed fits ih =>
    obtain hlt | rfl := Nat.lt_or_eq_of_le (Nat.le_of_lt_succ (index_lt_of_snoc hk))
    · rw [List.getElem?_append_left hlt] at hk
      exact ih hk
    · rw [List.getElem?_concat_length] at hk
      obtain rfl := Option.some.inj hk
      exact Nat.le_trans (Nat.le_add_left _ _) fits

/-- Distinct choices can be made as soon as each item fits in its bin. -/
theorem placed_map_range {choice : Nat → β} (m : Nat)
    (hinj : ∀ i j, i < m → j < m → choice i = choice j → i = j)
    (hfits : ∀ i < m, size i ≤ capacity (choice i)) :
    Placed capacity size ((List.range m).map choice) := by
  induction m with
  | zero => exact .nil
  | succ m ih =>
    rw [List.range_succ, List.map_append]
    refine .snoc (ih (fun i j hi hj => hinj i j (by omega) (by omega))
      fun i hi => hfits i (by omega)) ?_
    have hfresh : choice m ∉ (List.range m).map choice := by
      intro hmem
      obtain ⟨i, hi, heq⟩ := List.mem_map.mp hmem
      have hlt : i < m := List.mem_range.mp hi
      have := hinj i m (by omega) (by omega) heq
      omega
    rw [Fits, load_of_not_mem hfresh, List.length_map, List.length_range, Nat.zero_add]
    exact hfits m (Nat.lt_succ_self m)

section

variable {bin : Nat → β}

/-- While no bin has two items, one of the big bins is empty, and the next item fits there. -/
theorem Ranked.exists_fits (h : Ranked capacity size n bin) (hlt : choices.length < n) :
    ∃ b, Fits capacity size choices b := by
  have hcard : choices.toFinset.card < ((Finset.range (choices.length + 1)).image bin).card := by
    rw [Finset.card_image_of_injOn, Finset.card_range]
    · exact Nat.lt_succ_of_le choices.toFinset_card_le
    · intro i hi j hj heq
      rw [Finset.coe_range, Set.mem_Iio] at hi hj
      exact h.injective i j (by omega) (by omega) heq
  obtain ⟨b, hb, hempty⟩ := Finset.exists_mem_notMem_of_card_lt_card hcard
  obtain ⟨i, hi, rfl⟩ := Finset.mem_image.mp hb
  have hle : i ≤ choices.length := Nat.le_of_lt_succ (Finset.mem_range.mp hi)
  rw [List.mem_toFinset] at hempty
  refine ⟨bin i, ?_⟩
  rw [Fits, load_of_not_mem hempty, Nat.zero_add]
  calc
    size choices.length ≤ capacity (bin choices.length) := h.size_le _ hlt
    _ ≤ capacity (bin i) := h.capacity_anti i _ hle hlt

variable {item i k : Nat}

/-- If the bin `i` holds a later item, the items in between have bins to move to: the first
`l + 1` items need as many bins for the item `l`, without the bin `i`. -/
theorem Ranked.size_le_next (h : Ranked capacity size n bin)
    (hplaced : Placed capacity size choices) (hnodup : choices.Nodup) {l : Nat}
    (hk : choices[k]? = some (bin i)) (hkn : k + 1 < n) (hil : i ≤ l) (hlk : l < k) :
    size l ≤ capacity (bin (l + 1)) := by
  by_contra hsmall
  have hklen : k < choices.length := (List.getElem?_eq_some_iff.mp hk).1
  -- The bins that the items up to `l` are in are among the first, and none of them is `i`.
  have hmem : ∀ j ≤ l, ∃ rank, rank ∈ (Finset.range (l + 1)).erase i ∧
      choices[j]? = some (bin rank) := by
    intro j hj
    obtain ⟨b, hb⟩ : ∃ b, choices[j]? = some b :=
      ⟨_, List.getElem?_eq_getElem (by omega)⟩
    obtain ⟨rank, hrank, rfl⟩ := h.surjective b
    refine ⟨rank, Finset.mem_erase.mpr ⟨?_, ?_⟩, hb⟩
    · rintro rfl
      have := (List.getElem?_inj (by omega) hnodup).mp (hb.trans hk.symm)
      omega
    · rw [Finset.mem_range]
      by_contra hbig
      have hcapacity := h.capacity_anti (l + 1) rank (by omega) hrank
      have hsize := hplaced.size_le hb
      have hanti := h.size_anti j l hj (by omega)
      omega
  choose! rank hrank hchoice using hmem
  have hcard : (Finset.range (l + 1)).card ≤ ((Finset.range (l + 1)).erase i).card := by
    refine Finset.card_le_card_of_injOn rank ?_ ?_
    · intro j hj
      exact hrank j (by simpa [Nat.lt_succ_iff] using hj)
    · intro j hj j' hj' heq
      rw [Finset.coe_range, Set.mem_Iio] at hj hj'
      have hsame : choices[j]? = choices[j']? := by
        rw [hchoice j (by omega), hchoice j' (by omega), heq]
      exact (List.getElem?_inj (by omega) hnodup).mp hsame
  rw [Finset.card_erase_of_mem (Finset.mem_range.mpr (by omega)), Finset.card_range] at hcard
  omega

/-- A bin with two items would have room for the one that came first and the last one. -/
theorem Ranked.nodup_of_apart (h : Ranked capacity size n bin)
    (hapart : Apart (fun i => capacity (bin i)) size n) (hplaced : Placed capacity size choices)
    (hlen : choices.length ≤ n) : choices.Nodup := by
  induction hplaced with
  | nil => exact List.nodup_nil
  | @snoc choices last placed fits ih =>
    rw [List.length_append, List.length_singleton] at hlen
    have hnodup : choices.Nodup := ih (by omega)
    refine List.nodup_append.mpr ⟨hnodup, List.nodup_singleton last, ?_⟩
    intro b hb other hother
    obtain rfl := List.mem_singleton.mp hother
    rintro rfl
    obtain ⟨k, hk⟩ := List.getElem?_of_mem hb
    obtain ⟨i, hi, rfl⟩ := h.surjective b
    have hkn : k < choices.length := (List.getElem?_eq_some_iff.mp hk).1
    have hlast : size (n - 1) ≤ size choices.length := h.size_anti _ _ (by omega) (by omega)
    rw [Fits, load_of_nodup hnodup hk] at fits
    rcases Nat.lt_or_ge k i with hki | hik
    · have hsmall : capacity (bin k) < size k + size (n - 1) :=
        hapart k k (Nat.le_refl k) (by omega) fun l hil hlk => by omega
      have hanti := h.capacity_anti k i (by omega) hi
      omega
    · have hsmall : capacity (bin i) < size k + size (n - 1) :=
        hapart i k hik (by omega) fun l hil hlk =>
          h.size_le_next placed hnodup hk (by omega) hil hlk
      omega

/-- The bins of a run that brings the item `k` to the bin `i`: the items in between move to the
next bin, and the others are in their own. -/
def detour (i k item : Nat) : Nat :=
  if item = k then i else if i ≤ item ∧ item < k then item + 1 else item

theorem detour_self (i k : Nat) : detour i k k = i := if_pos rfl

theorem detour_injective {other : Nat} (hik : i ≤ k) (heq : detour i k item = detour i k other) :
    item = other := by
  unfold detour at heq
  split_ifs at heq <;> omega

theorem detour_lt (hik : i ≤ k) (hkn : k + 1 < n) (h : item < n - 1) : detour i k item < n := by
  unfold detour
  split_ifs <;> omega

omit [DecidableEq β] in
theorem Ranked.size_le_detour (h : Ranked capacity size n bin)
    (hmove : ∀ l, i ≤ l → l < k → size l ≤ capacity (bin (l + 1)))
    (hroom : size k ≤ capacity (bin i)) (hitem : item < n) :
    size item ≤ capacity (bin (detour i k item)) := by
  unfold detour
  split
  case isTrue heq => rwa [heq]
  case isFalse =>
    split
    case isTrue hbetween => exact hmove item hbetween.1 hbetween.2
    case isFalse => exact h.size_le item hitem

/-- If a bin has room for an item that can reach it and for the last one, it can receive
both. -/
theorem Ranked.apart_of_onePerBin (h : Ranked capacity size n bin)
    (hone : OnePerBin capacity size n) : Apart (fun i => capacity (bin i)) size n := by
  intro i k hik hkn hmove
  by_contra hroom
  have hroom : size k + size (n - 1) ≤ capacity (bin i) := Nat.le_of_not_lt hroom
  have hplaced : Placed capacity size
      ((List.range (n - 1)).map fun item => bin (detour i k item)) := by
    refine placed_map_range (n - 1) ?_ ?_
    · intro item other hitem hother heq
      exact detour_injective hik
        (h.injective _ _ (detour_lt hik hkn hitem) (detour_lt hik hkn hother) heq)
    · intro item hitem
      exact h.size_le_detour hmove (by omega) (by omega)
  generalize hchoices : (List.range (n - 1)).map (fun item => bin (detour i k item)) = choices
    at hplaced
  have hlen : choices.length = n - 1 := by rw [← hchoices, List.length_map, List.length_range]
  have hk : choices[k]? = some (bin i) := by
    rw [← hchoices, List.getElem?_map, List.getElem?_range (by omega), Option.map_some,
      detour_self]
  have hnodup : choices.Nodup := (hone choices hplaced (by omega)).1
  have hfits : Fits capacity size choices (bin i) := by
    rw [Fits, load_of_nodup hnodup hk, hlen]
    exact hroom
  have htwice := (hone _ (hplaced.snoc hfits)
    (by rw [List.length_append, List.length_singleton]; omega)).1
  exact (List.nodup_append.mp htwice).2.2 _ (List.mem_of_getElem? hk) _ (List.mem_singleton_self _)
    rfl

/-- No bin can receive two items exactly if no bin that an item can reach has room for it and
the last one. -/
theorem Ranked.onePerBin_iff (h : Ranked capacity size n bin) :
    OnePerBin capacity size n ↔ Apart (fun i => capacity (bin i)) size n := by
  constructor
  · exact h.apart_of_onePerBin
  · intro hapart choices hplaced hlen
    exact ⟨h.nodup_of_apart hapart hplaced hlen, fun hlt => h.exists_fits hlt⟩

end

end OvirtArt.Foundation.Placement
