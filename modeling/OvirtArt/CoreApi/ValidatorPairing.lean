import OvirtArt.CoreApi.ValidatorSafe
import OvirtArt.Foundation.KeyPairing

set_option autoImplicit false

/-!
# Which elements `sort_elements` pairs

Only the longer list is sorted by existence, and lists of one length are not.  Where neither
list has all the keys of the other, elements can be shifted against each other: the pairs of
common keys are kept exactly if the keys of both lists are in step.

The key is the first of `name`, `id` and `index` that the two first elements have.  The lists may
have any length, and keys may be missing on either side.
-/

namespace OvirtArt.CoreApi

open OvirtArt.Foundation

/-- The keys of a list. -/
def keysOf (attr : String) (elms : List Value) : List Value.Key := elms.map (sortKey attr)

/-- What `sort_elements` is for: it reorders both lists, elements at one position have one key
where the keys of one list are among those of the other, and else no element is paired with
another key while its own is in the other list. -/
def PairsKeys (attr : String) (actElms expElms : List Value) : Prop :=
  ∃ actSorted expSorted, sortElements actElms expElms = .ok (actSorted, expSorted) ∧
    actSorted.Perm actElms ∧ expSorted.Perm expElms ∧
    (KeysAmong attr expElms actElms ∨ KeysAmong attr actElms expElms →
      ∀ (i : Nat) (a e : Value), actSorted[i]? = some a → expSorted[i]? = some e →
        sortKey attr a = sortKey attr e) ∧
    (¬ KeysAmong attr expElms actElms → ¬ KeysAmong attr actElms expElms →
      NoShift (keysOf attr actSorted) (keysOf attr expSorted))

/-- In the first list the keys that are in the second, too, are smaller than the others. -/
def CommonSmaller (attr : String) (short long : List Value) : Prop :=
  ∀ k ∈ keysOf attr short, k ∈ keysOf attr long →
    ∀ k' ∈ keysOf attr short, k' ∉ keysOf attr long → k < k'

instance (attr : String) (short long : List Value) : Decidable (CommonSmaller attr short long) :=
  inferInstanceAs (Decidable (∀ k ∈ keysOf attr short, k ∈ keysOf attr long →
    ∀ k' ∈ keysOf attr short, k' ∉ keysOf attr long → k < k'))

/-- The keys are in step: in lists of one length every common key has equally many smaller keys
in both, otherwise the common keys of the shorter list are its smallest. -/
def InStep (attr : String) (actElms expElms : List Value) : Prop :=
  if actElms.length = expElms.length then
    ∀ k ∈ keysOf attr actElms, k ∈ keysOf attr expElms →
      (keysOf attr actElms).countP (fun l => l < k) =
        (keysOf attr expElms).countP (fun l => l < k)
  else if expElms.length < actElms.length then CommonSmaller attr expElms actElms
  else CommonSmaller attr actElms expElms

instance (attr : String) (actElms expElms : List Value) :
    Decidable (InStep attr actElms expElms) :=
  inferInstanceAs (Decidable (if actElms.length = expElms.length then
      ∀ k ∈ keysOf attr actElms, k ∈ keysOf attr expElms →
        (keysOf attr actElms).countP (fun l => l < k) =
          (keysOf attr expElms).countP (fun l => l < k)
    else if expElms.length < actElms.length then CommonSmaller attr expElms actElms
    else CommonSmaller attr actElms expElms))

/-! ## The keys of the sorted lists -/

variable {attr : String} {actElms expElms elms : List Value}

theorem keysOf_perm {elms' : List Value} (h : elms.Perm elms') :
    (keysOf attr elms).Perm (keysOf attr elms') := h.map _

/-- The keys of a sorted list with distinct keys ascend. -/
theorem ascending_keysOf_sortOn (h : (keysOf attr elms).Nodup) :
    (keysOf attr (sortOn (sortKey attr) elms)).Pairwise (· < ·) := by
  have hnodup : (keysOf attr (sortOn (sortKey attr) elms)).Nodup :=
    (keysOf_perm (sortOn_perm _ elms)).nodup_iff.mpr h
  have hle := pairwise_map_sortOn (sortKey attr) elms
  exact hle.imp₂ (fun _ _ hle hne => lt_of_le_of_ne hle hne) hnodup

/-- Sorting by existence puts the common keys in front. -/
theorem keysOf_sortByExistence (elms others : List Value) :
    keysOf attr (sortByExistence attr elms others) =
      commonFirst (keysOf attr elms) (keysOf attr others) := by
  unfold sortByExistence commonFirst keysOf
  rw [sortOn_two (by decide), List.filter_map, List.filter_map]
  simp [Function.comp_def]

theorem mem_keysOf_sortOn {k : Value.Key} :
    k ∈ keysOf attr (sortOn (sortKey attr) elms) ↔ k ∈ keysOf attr elms :=
  (keysOf_perm (sortOn_perm _ elms)).mem_iff

/-- A shorter list is paired without a shift exactly if its common keys are its smallest. -/
theorem noShift_existence_iff {short long : List Value} (hshort : (keysOf attr short).Nodup)
    (hlong : (keysOf attr long).Nodup) :
    NoShift (keysOf attr (sortOn (sortKey attr) short))
        (keysOf attr (sortByExistence attr (sortOn (sortKey attr) long)
          (sortOn (sortKey attr) short))) ↔
      CommonSmaller attr short long := by
  rw [keysOf_sortByExistence, noShift_commonFirst_iff (ascending_keysOf_sortOn hshort)
    (ascending_keysOf_sortOn hlong)]
  simp only [mem_keysOf_sortOn]
  exact Iff.rfl

/-- The sorted lists are paired without a shift exactly if their keys are in step. -/
theorem noShift_iff_inStep {actSorted expSorted : List Value} (hact : (keysOf attr actElms).Nodup)
    (hexp : (keysOf attr expElms).Nodup)
    (hsorted : sortElementsByExistence (sortOn (sortKey attr) actElms)
      (sortOn (sortKey attr) expElms) attr = (actSorted, expSorted)) :
    NoShift (keysOf attr actSorted) (keysOf attr expSorted) ↔ InStep attr actElms expElms := by
  simp only [sortElementsByExistence, length_sortOn] at hsorted
  unfold InStep
  by_cases hlength : actElms.length = expElms.length
  · rw [if_pos hlength] at hsorted
    obtain ⟨rfl, rfl⟩ := Prod.mk.inj hsorted
    rw [if_pos hlength, noShift_iff_countP (ascending_keysOf_sortOn hact)
      (ascending_keysOf_sortOn hexp) (by simp [keysOf, hlength])]
    simp only [mem_keysOf_sortOn, (keysOf_perm (sortOn_perm (sortKey attr) actElms)).countP_eq,
      (keysOf_perm (sortOn_perm (sortKey attr) expElms)).countP_eq]
  · rw [if_neg hlength] at hsorted ⊢
    by_cases hlt : expElms.length < actElms.length
    · rw [if_pos hlt] at hsorted ⊢
      obtain ⟨rfl, rfl⟩ := Prod.mk.inj hsorted
      rw [← noShift_existence_iff hexp hact]
      exact ⟨NoShift.symm, NoShift.symm⟩
    · rw [if_neg hlt] at hsorted ⊢
      obtain ⟨rfl, rfl⟩ := Prod.mk.inj hsorted
      exact noShift_existence_iff hact hexp

/-! ## The pairs -/

/-- Where the keys of one list are among those of the other, the pairs have one key. -/
theorem sortKey_eq_of_keysAmong {actSorted expSorted : List Value}
    (hattr : sortAttr actElms expElms = some attr) (hact : DistinctKeys attr actElms)
    (hexp : DistinctKeys attr expElms)
    (hsort : sortElements actElms expElms = .ok (actSorted, expSorted))
    (hamong : KeysAmong attr expElms actElms ∨ KeysAmong attr actElms expElms) {i : Nat}
    {a e : Value} (ha : actSorted[i]? = some a) (he : expSorted[i]? = some e) :
    sortKey attr a = sortKey attr e := by
  obtain ⟨_, _, hsort', hprefix⟩ := sortElements_aligned hattr hexp hact hamong
  obtain ⟨rfl, rfl⟩ := Prod.mk.inj (Except.ok.inj (hsort.symm.trans hsort'))
  rcases hprefix with hprefix | hprefix
  · exact (key_eq_of_aligned hprefix he ha).symm
  · exact key_eq_of_aligned hprefix ha he

theorem inStep_of_pairsKeys (hattr : sortAttr actElms expElms = some attr)
    (hact : DistinctKeys attr actElms) (hexp : DistinctKeys attr expElms)
    (h : PairsKeys attr actElms expElms) : InStep attr actElms expElms := by
  obtain ⟨actSorted, expSorted, hsort, hsorted⟩ := sortElements_of_distinctKeys hattr hact hexp
  obtain ⟨_, _, hsort', -, -, -, hno⟩ := h
  obtain ⟨rfl, rfl⟩ := Prod.mk.inj (Except.ok.inj (hsort.symm.trans hsort'))
  rw [← noShift_iff_inStep hact.nodup hexp.nodup hsorted]
  by_cases hamong : KeysAmong attr expElms actElms ∨ KeysAmong attr actElms expElms
  · apply noShift_of_eq
    intro i k l hk hl
    rw [keysOf, List.getElem?_map, Option.map_eq_some_iff] at hk hl
    obtain ⟨a, ha, rfl⟩ := hk
    obtain ⟨e, he, rfl⟩ := hl
    exact sortKey_eq_of_keysAmong hattr hact hexp hsort hamong ha he
  · rw [not_or] at hamong
    exact hno hamong.1 hamong.2

end OvirtArt.CoreApi
