import Mathlib.Data.Fin.Tuple.Sort
import OvirtArt.Compute.NumaNodes
import OvirtArt.Foundation.Placement

set_option autoImplicit false

/-!
# `calculate_memory_for_memory_filter` of `high_level/vms.py`

The memory of one VM for each host: that of the host less a tenth, rounded down to MiB.  The VMs
are started from big to small, each on any host that has the memory left.

The memories of the hosts are given; their queries are left out.  A placement is a sequence of
starts, each on a host of the engine's choice, and the results are about every such sequence.
-/

namespace OvirtArt.Compute

open OvirtArt.CoreApi OvirtArt.Foundation

/-- What one round of the loop appends for a host with this memory. -/
def vmMemory (difference hostMemory : Nat) : Except BuiltinError Nat := do
  let left := hostMemory - (← floorDiv hostMemory difference)
  return left - left % mb

/-- `calculate_memory_for_memory_filter`, with the memory that can be scheduled on each host. -/
def calculateMemoryForMemoryFilter (memHosts : List Nat) (difference : Nat) :
    Except BuiltinError (List Nat) := do
  let hostMemoryL ← extendAll (fun hostMemory => do return [← vmMemory difference hostMemory]) []
    memHosts
  return hostMemoryL.insertionSort (· ≥ ·)

/-! ## From big to small -/

/-- The numbers from big to small. -/
def fromBig (numbers : List Nat) : List Nat := numbers.insertionSort (· ≥ ·)

/-- The number with this rank. -/
def ranked (numbers : List Nat) (rank : Nat) : Nat := (fromBig numbers).getD rank 0

theorem length_fromBig (numbers : List Nat) : (fromBig numbers).length = numbers.length :=
  List.length_insertionSort _ numbers

variable {f : Nat → Nat}

theorem fromBig_map (hf : Monotone f) (numbers : List Nat) :
    fromBig (numbers.map f) = (fromBig numbers).map f := by
  refine List.Perm.eq_of_sortedGE List.sortedGE_insertionSort ?_ ?_
  · have hsorted : (fromBig numbers).Pairwise (· ≥ ·) := List.sortedGE_insertionSort.pairwise
    exact (List.pairwise_map.mpr (hsorted.imp fun hle => hf hle)).sortedGE
  · exact (List.perm_insertionSort _ _).trans ((List.perm_insertionSort _ numbers).map f).symm

theorem getD_map_fromBig (hzero : f 0 = 0) (numbers : List Nat) (rank : Nat) :
    ((fromBig numbers).map f).getD rank 0 = f (ranked numbers rank) := by
  conv_lhs => rw [← hzero]
  exact List.getD_map _ _ f

theorem ranked_map (hf : Monotone f) (hzero : f 0 = 0) (numbers : List Nat) (rank : Nat) :
    ranked (numbers.map f) rank = f (ranked numbers rank) := by
  rw [ranked, fromBig_map hf, getD_map_fromBig hzero]

theorem ranked_anti {numbers : List Nat} {i j : Nat} (hij : i ≤ j) (hj : j < numbers.length) :
    ranked numbers j ≤ ranked numbers i := by
  have hlt : j < (fromBig numbers).length := by rwa [length_fromBig]
  rw [ranked, ranked, List.getD_eq_getElem _ _ hlt,
    List.getD_eq_getElem _ _ (Nat.lt_of_le_of_lt hij hlt)]
  exact List.sortedGE_iff_getElem_ge_getElem_of_le.mp List.sortedGE_insertionSort hij

/-- The places of the numbers from big to small. -/
theorem exists_order (numbers : List Nat) :
    ∃ order : Equiv.Perm (Fin numbers.length),
      ∀ i : Fin numbers.length, numbers.get (order i) = ranked numbers i := by
  let order := Tuple.sort (OrderDual.toDual ∘ numbers.get)
  have hmono : Antitone (numbers.get ∘ order) :=
    fun _ _ hij => Tuple.monotone_sort (OrderDual.toDual ∘ numbers.get) hij
  have hlist : List.ofFn (numbers.get ∘ order) = fromBig numbers := by
    refine List.Perm.eq_of_sortedGE ?_ List.sortedGE_insertionSort ?_
    · rw [List.sortedGE_iff_pairwise, List.pairwise_ofFn]
      exact fun _ _ hlt => hmono (Nat.le_of_lt hlt)
    · have hperm := Equiv.Perm.ofFn_comp_perm order numbers.get
      rw [List.ofFn_get] at hperm
      exact hperm.trans (List.perm_insertionSort _ numbers).symm
  refine ⟨order, fun i => ?_⟩
  rw [ranked, ← hlist, List.getD_eq_getElem _ _ (by rw [List.length_ofFn]; exact i.isLt),
    List.getElem_ofFn]
  rfl

/-! ## The values -/

/-- The memory in MiB of the VM for a host with this memory in MiB. -/
def share (memory : Nat) : Nat := 9 * memory / 10

theorem share_mono : Monotone share :=
  fun _ _ hle => Nat.div_le_div_right (Nat.mul_le_mul_left 9 hle)

theorem share_le (memory : Nat) : share memory ≤ memory := by
  unfold share
  omega

theorem vmMemory_mul_mb (memory : Nat) : vmMemory 10 (memory * mb) = .ok (share memory * mb) := by
  have hround : memory * mb - memory * mb / 10 - (memory * mb - memory * mb / 10) % mb
      = share memory * mb := by
    unfold share mb
    omega
  exact congrArg Except.ok hround

/-- The function returns the shares of the hosts, from big to small. -/
theorem calculateMemoryForMemoryFilter_eq (memories : List Nat) :
    calculateMemoryForMemoryFilter (memories.map (· * mb)) 10
      = .ok ((fromBig memories).map fun memory => share memory * mb) := by
  have hround : ∀ memory ∈ memories,
      (do return [← vmMemory 10 (memory * mb)] : Except BuiltinError (List Nat))
        = .ok [share memory * mb] := by
    intro memory _
    rw [vmMemory_mul_mb]
    rfl
  have hmono : Monotone fun memory => share memory * mb :=
    fun _ _ hle => Nat.mul_le_mul_right mb (share_mono hle)
  rw [calculateMemoryForMemoryFilter, extendAll_map, extendAll_ok hround, ← List.map_eq_flatMap,
    ← fromBig_map hmono]
  rfl

/-! ## One VM on each host -/

/-- However the scheduler places the VMs, each of them on a host whose free memory is at least
its own, every VM can be placed and no host receives two. -/
def OnePerHost (hosts values : List Nat) : Prop :=
  Placement.OnePerBin (fun host : Fin hosts.length => hosts.get host)
    (fun vm => values.getD vm 0) hosts.length

/-- The memories in MiB keep the VMs apart: where the VMs of the hosts from `i` to `k` can each
move to the next host, the host `i` is too small for the VM `k` and the last one. -/
def HostsApart (memories : List Nat) : Prop :=
  Placement.Apart (ranked memories) (fun vm => share (ranked memories vm)) memories.length

theorem onePerHost_nil : OnePerHost [] [] := by
  intro choices _ hlen
  obtain rfl := List.eq_nil_of_length_eq_zero (Nat.le_zero.mp hlen)
  exact ⟨List.nodup_nil, fun hlt => absurd hlt (Nat.lt_irrefl 0)⟩

/-- The hosts from big to small, with the VMs that the function makes for them. -/
theorem exists_ranked {hosts values : List Nat} (hpos : 0 < hosts.length)
    (hanti : ∀ i j, i ≤ j → j < hosts.length → values.getD j 0 ≤ values.getD i 0)
    (hle : ∀ i < hosts.length, values.getD i 0 ≤ ranked hosts i) :
    ∃ bin : Nat → Fin hosts.length, (∀ i < hosts.length, hosts.get (bin i) = ranked hosts i) ∧
      Placement.Ranked hosts.get (fun vm => values.getD vm 0) hosts.length bin := by
  obtain ⟨order, horder⟩ := exists_order hosts
  let place (i : Nat) : Fin hosts.length := ⟨i % hosts.length, Nat.mod_lt i hpos⟩
  have hplace : ∀ i < hosts.length, (place i).val = i := fun i hi => Nat.mod_eq_of_lt hi
  have hget : ∀ i < hosts.length, hosts.get (order (place i)) = ranked hosts i := by
    intro i hi
    rw [horder, hplace i hi]
  refine ⟨fun i => order (place i), hget, ?_⟩
  refine ⟨?_, ?_, ?_, hanti, ?_⟩
  · intro i j hi hj heq
    have hval := congrArg Fin.val (order.injective heq)
    rwa [hplace i hi, hplace j hj] at hval
  · intro host
    refine ⟨order.symm host, (order.symm host).isLt, ?_⟩
    have hsame : place (order.symm host) = order.symm host :=
      Fin.ext (hplace _ (order.symm host).isLt)
    rw [hsame, Equiv.apply_symm_apply]
  · intro i j hij hj
    rw [hget i (Nat.lt_of_le_of_lt hij hj), hget j hj]
    exact ranked_anti hij hj
  · intro i hi
    rw [hget i hi]
    exact hle i hi

theorem onePerHost_iff (memories : List Nat) :
    OnePerHost (memories.map (· * mb)) ((fromBig memories).map fun memory => share memory * mb) ↔
      HostsApart memories := by
  rcases Nat.eq_zero_or_pos memories.length with hlen | hpos
  · obtain rfl := List.eq_nil_of_length_eq_zero hlen
    exact iff_of_true onePerHost_nil fun i k _ hk => absurd hk (Nat.not_lt_zero _)
  · have hlen : (memories.map (· * mb)).length = memories.length := List.length_map _
    have hvalue := getD_map_fromBig (f := fun memory => share memory * mb) (by decide) memories
    have hhost := ranked_map (f := (· * mb)) (fun _ _ => Nat.mul_le_mul_right mb) (by decide)
      memories
    have hanti : ∀ i j, i ≤ j → j < (memories.map (· * mb)).length →
        ((fromBig memories).map fun memory => share memory * mb).getD j 0
          ≤ ((fromBig memories).map fun memory => share memory * mb).getD i 0 := by
      intro i j hij hj
      rw [hvalue, hvalue]
      exact Nat.mul_le_mul_right mb (share_mono (ranked_anti hij (hlen ▸ hj)))
    have hle : ∀ i < (memories.map (· * mb)).length,
        ((fromBig memories).map fun memory => share memory * mb).getD i 0
          ≤ ranked (memories.map (· * mb)) i := by
      intro i _
      rw [hvalue, hhost]
      exact Nat.mul_le_mul_right mb (share_le _)
    obtain ⟨bin, hbin, hranked⟩ := exists_ranked (by rwa [hlen]) hanti hle
    rw [OnePerHost, hranked.onePerBin_iff, hlen]
    refine Placement.apart_mul_iff (by decide : 0 < mb) ?_ ?_
    · intro i hi
      rw [hbin i (by rwa [hlen]), hhost]
    · intro i _
      exact hvalue i

/-- Every returned value is a multiple of one MiB and no more than the memory of the host of its
rank, and the VMs end on different hosts, whichever the scheduler chooses, exactly if the
memories keep them apart. -/
theorem memory_filter_one_per_host_iff (memories : List Nat) :
    ∃ values, calculateMemoryForMemoryFilter (memories.map (· * mb)) 10 = .ok values ∧
      (∀ value ∈ values, mb ∣ value) ∧
      List.Forall₂ (· ≤ ·) values (fromBig (memories.map (· * mb))) ∧
      (OnePerHost (memories.map (· * mb)) values ↔ HostsApart memories) := by
  refine ⟨_, calculateMemoryForMemoryFilter_eq memories, ?_, ?_, onePerHost_iff memories⟩
  · intro value hvalue
    obtain ⟨memory, -, rfl⟩ := List.mem_map.mp hvalue
    exact Nat.dvd_mul_left mb (share memory)
  · rw [fromBig_map fun _ _ => Nat.mul_le_mul_right mb, List.forall₂_map_left_iff,
      List.forall₂_map_right_iff, List.forall₂_same]
    intro memory _
    exact Nat.mul_le_mul_right mb (share_le memory)

/-- The tenth left free on a host of 100 MiB holds the VM for a host of 10 MiB. -/
theorem hundred_and_ten_not_apart :
    ∃ values, calculateMemoryForMemoryFilter [100 * mb, 10 * mb] 10 = .ok values ∧
      ¬ OnePerHost [100 * mb, 10 * mb] values := by
  refine ⟨_, calculateMemoryForMemoryFilter_eq [100, 10], ?_⟩
  intro h
  have hapart := (onePerHost_iff [100, 10]).mp h 0 0 (Nat.le_refl 0) (by decide)
    fun l _ hl => absurd hl (Nat.not_lt_zero l)
  exact absurd hapart (by decide)

end OvirtArt.Compute
