import Mathlib.Data.List.Sort

set_option autoImplicit false

/-!
# Pairing sorted keys by position

Two ascending lists are paired by position.  A key that is in both of them meets itself exactly
if it has equally many smaller keys on both sides.  Where first the longer list is split into
the common keys and the others, it does exactly if in the shorter list, too, the common keys
come first.

The keys are of any linear order.  Equal keys in one list are allowed where the statement does not
say otherwise.
-/

namespace OvirtArt.Foundation

variable {κ : Type*}

/-- No key stands at the position of another one while it is in the other list, too. -/
def NoShift (ks ls : List κ) : Prop :=
  ∀ (i : Nat) (k l : κ), ks[i]? = some k → ls[i]? = some l → k ≠ l → k ∉ ls ∧ l ∉ ks

variable {ks ls : List κ}

theorem NoShift.symm (h : NoShift ks ls) : NoShift ls ks :=
  fun i l k hl hk hne => And.symm (h i k l hk hl hne.symm)

/-- Keys that are the same at every position are not shifted. -/
theorem noShift_of_eq (h : ∀ (i : Nat) (k l : κ), ks[i]? = some k → ls[i]? = some l → k = l) :
    NoShift ks ls :=
  fun i k l hk hl hne => absurd (h i k l hk hl) hne

/-! ## Positions -/

variable [LinearOrder κ]

/-- The position of a key in an ascending list is the number of smaller keys. -/
theorem countP_lt_of_getElem? (h : ks.Pairwise (· < ·)) {i : Nat} {k : κ} (hk : ks[i]? = some k) :
    ks.countP (fun l => l < k) = i := by
  induction ks generalizing i with
  | nil => cases hk
  | cons first rest ih =>
    rw [List.pairwise_cons] at h
    cases i with
    | zero =>
      obtain rfl : first = k := by simpa using hk
      rw [List.countP_cons_of_neg (by simp), List.countP_eq_zero]
      intro l hl
      simpa using le_of_lt (h.1 l hl)
    | succ i =>
      have hrest : rest[i]? = some k := by simpa using hk
      have hlt : first < k := h.1 k (List.mem_of_getElem? hrest)
      rw [List.countP_cons_of_pos (by simpa using hlt), ih h.2 hrest]

/-- Of two keys of an ascending list, the smaller one stands first. -/
theorem lt_of_getElem?_lt (h : ks.Pairwise (· < ·)) {i j : Nat} {k l : κ} (hk : ks[i]? = some k)
    (hl : ks[j]? = some l) (hlt : k < l) : i < j := by
  rw [List.pairwise_iff_getElem] at h
  obtain ⟨hi, rfl⟩ := List.getElem?_eq_some_iff.mp hk
  obtain ⟨hj, rfl⟩ := List.getElem?_eq_some_iff.mp hl
  rcases Nat.lt_trichotomy i j with hij | rfl | hji
  · exact hij
  · exact absurd hlt (lt_irrefl _)
  · exact absurd (h j i hj hi hji) (not_lt_of_gt hlt)

/-- Ascending lists with the same keys are the same. -/
theorem eq_of_ascending (hks : ks.Pairwise (· < ·)) (hls : ls.Pairwise (· < ·))
    (hmem : ∀ k, k ∈ ks ↔ k ∈ ls) : ks = ls := by
  have hperm : ks.Perm ls := (List.perm_ext_iff_of_nodup
    (hks.imp fun hlt => ne_of_lt hlt) (hls.imp fun hlt => ne_of_lt hlt)).mpr hmem
  exact hperm.eq_of_pairwise' hks hls

/-! ## Lists of one length -/

/-- Ascending lists of one length are paired without a shift exactly if every common key has
equally many smaller keys in both. -/
theorem noShift_iff_countP (hks : ks.Pairwise (· < ·)) (hls : ls.Pairwise (· < ·))
    (hlength : ks.length = ls.length) :
    NoShift ks ls ↔
      ∀ k ∈ ks, k ∈ ls → ks.countP (fun l => l < k) = ls.countP (fun l => l < k) := by
  constructor
  · intro hno k hk hkl
    obtain ⟨i, hi⟩ := List.getElem?_of_mem hk
    obtain ⟨hlt, -⟩ := List.getElem?_eq_some_iff.mp hi
    have hpartner := List.getElem?_eq_getElem (show i < ls.length by omega)
    by_cases hsame : k = ls[i]
    · rw [← hsame] at hpartner
      rw [countP_lt_of_getElem? hks hi, countP_lt_of_getElem? hls hpartner]
    · exact absurd hkl (hno i k _ hi hpartner hsame).1
  · intro hcount i k l hk hl hne
    refine ⟨?_, ?_⟩
    · intro hcommon
      have hsame := hcount k (List.mem_of_getElem? hk) hcommon
      obtain ⟨j, hj⟩ := List.getElem?_of_mem hcommon
      rw [countP_lt_of_getElem? hks hk, countP_lt_of_getElem? hls hj] at hsame
      rw [hsame] at hl
      exact hne (Option.some.inj (hj.symm.trans hl))
    · intro hcommon
      have hsame := hcount l hcommon (List.mem_of_getElem? hl)
      obtain ⟨j, hj⟩ := List.getElem?_of_mem hcommon
      rw [countP_lt_of_getElem? hks hj, countP_lt_of_getElem? hls hl] at hsame
      rw [← hsame] at hk
      exact hne (Option.some.inj (hk.symm.trans hj))

/-! ## The common keys first -/

/-- The keys of a list that are in the other one, and then the others. -/
def commonFirst (ls ks : List κ) : List κ :=
  ls.filter (fun l => l ∈ ks) ++ ls.filter (fun l => l ∉ ks)

/-- The common keys of two ascending lists. -/
theorem filter_mem_comm (hks : ks.Pairwise (· < ·)) (hls : ls.Pairwise (· < ·)) :
    ls.filter (fun l => l ∈ ks) = ks.filter (fun k => k ∈ ls) := by
  refine eq_of_ascending (hls.filter _) (hks.filter _) fun k => ?_
  rw [List.mem_filter, List.mem_filter, decide_eq_true_iff, decide_eq_true_iff]
  exact And.comm

/-- Where the common keys come first in an ascending list, too, it has them in front. -/
theorem eq_commonFirst (hks : ks.Pairwise (· < ·))
    (h : ∀ k ∈ ks, k ∈ ls → ∀ k' ∈ ks, k' ∉ ls → k < k') : ks = commonFirst ks ls := by
  refine eq_of_ascending hks ?_ fun k => ?_
  · refine List.pairwise_append.mpr ⟨hks.filter _, hks.filter _, ?_⟩
    intro k hk k' hk'
    rw [List.mem_filter, decide_eq_true_iff] at hk hk'
    exact h k hk.1 hk.2 k' hk'.1 hk'.2
  · by_cases hkl : k ∈ ls
    · simp [commonFirst, hkl]
    · simp [commonFirst, hkl]

theorem mem_commonFirst {k : κ} : k ∈ commonFirst ls ks ↔ k ∈ ls := by
  by_cases hk : k ∈ ks
  · simp [commonFirst, hk]
  · simp [commonFirst, hk]

section

variable {ks ls : List κ} (hks : ks.Pairwise (· < ·)) (hls : ls.Pairwise (· < ·))

include hks hls

/-- Paired without a shift, a list starts with the keys that it has in common with the other. -/
theorem getElem?_of_noShift (hno : NoShift ks (commonFirst ls ks)) {i : Nat}
    (hi : i < (ls.filter fun l => l ∈ ks).length) :
    ks[i]? = (ls.filter fun l => l ∈ ks)[i]? := by
  have hpos : (commonFirst ls ks)[i]? = (ls.filter fun l => l ∈ ks)[i]? := by
    rw [commonFirst, List.getElem?_append_left hi]
  have hl := List.getElem?_eq_getElem hi
  have hle : (ls.filter fun l => l ∈ ks).length ≤ ks.length := by
    rw [filter_mem_comm hks hls]
    exact List.length_filter_le _ _
  have hiks := List.getElem?_eq_getElem (Nat.lt_of_lt_of_le hi hle)
  rw [hiks, hl]
  by_contra hne
  have hshift := hno i _ _ hiks (hpos.trans hl) fun heq => hne (congrArg some heq)
  have hfound := List.mem_filter.mp (List.getElem_mem hi)
  exact hshift.2 (decide_eq_true_iff.mp hfound.2)

theorem common_lt_of_noShift (hno : NoShift ks (commonFirst ls ks)) {k k' : κ} (hk : k ∈ ks)
    (hkl : k ∈ ls) (hk' : k' ∈ ks) (hkl' : k' ∉ ls) : k < k' := by
  by_contra hnot
  have hlt : k' < k := lt_of_le_of_ne (not_lt.mp hnot) (by
    rintro rfl
    exact hkl' hkl)
  -- the key has a position `j` among the common ones, and stands there in the list
  have hin : k ∈ ls.filter fun l => l ∈ ks := by simpa using ⟨hkl, hk⟩
  obtain ⟨j, hj⟩ := List.getElem?_of_mem hin
  obtain ⟨hjlt, -⟩ := List.getElem?_eq_some_iff.mp hj
  have hkj : ks[j]? = some k := (getElem?_of_noShift hks hls hno hjlt).trans hj
  obtain ⟨i, hi⟩ := List.getElem?_of_mem hk'
  have hij := lt_of_getElem?_lt hks hi hkj hlt
  have hfront := getElem?_of_noShift hks hls hno (Nat.lt_trans hij hjlt)
  have hfound := List.mem_of_getElem? (hfront.symm.trans hi)
  exact hkl' (List.mem_filter.mp hfound).1

theorem noShift_of_common_lt (hfirst : ∀ k ∈ ks, k ∈ ls → ∀ k' ∈ ks, k' ∉ ls → k < k') :
    NoShift ks (commonFirst ls ks) := by
  intro i k l hk hl hne
  rw [eq_commonFirst hks hfirst] at hk
  unfold commonFirst at hk hl
  rw [filter_mem_comm hks hls] at hl
  by_cases hi : i < (ks.filter fun k => k ∈ ls).length
  · rw [List.getElem?_append_left hi] at hk hl
    exact absurd (Option.some.inj (hk.symm.trans hl)) hne
  · rw [List.getElem?_append_right (by omega)] at hk hl
    have hk' := List.mem_filter.mp (List.mem_of_getElem? hk)
    have hl' := List.mem_filter.mp (List.mem_of_getElem? hl)
    rw [decide_eq_true_iff] at hk' hl'
    exact ⟨fun hmem => hk'.2 (mem_commonFirst.mp hmem), hl'.2⟩

/-- An ascending list is paired without a shift with another one of which the common keys come
first, exactly if its own common keys are smaller than its others. -/
theorem noShift_commonFirst_iff :
    NoShift ks (commonFirst ls ks) ↔ ∀ k ∈ ks, k ∈ ls → ∀ k' ∈ ks, k' ∉ ls → k < k' :=
  ⟨fun hno _ hk hkl _ => common_lt_of_noShift hks hls hno hk hkl,
    noShift_of_common_lt hks hls⟩

end

end OvirtArt.Foundation
