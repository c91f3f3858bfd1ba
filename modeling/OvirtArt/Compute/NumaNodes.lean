import Mathlib.Algebra.GroupWithZero.Nat
import Mathlib.Data.List.AList
import Mathlib.Data.List.GetD
import OvirtArt.Compute.CpuLists

set_option autoImplicit false

/-!
# `create_number_of_equals_numa_nodes` of `rhevmtests/compute/sla/helpers.py`

The virtual CPUs and the memory of a VM are shared out among NUMA nodes, each of which is pinned
to a node of the host that has memory.

A node of the host is taken with its index, its CPUs and its memory.  The lookups of the memory
and the cores of the VM are parameters, and a node whose size line is missing is not modelled.
-/

namespace OvirtArt.Compute

open OvirtArt.CoreApi OvirtArt.Foundation

/-- What `get_numa_parameters_from_resource` returns of a node of the host. -/
structure HostNumaNode where
  cpus : List Nat
  size : Nat
  deriving DecidableEq, Repr

/-- The nodes of the host, in the order in which the dictionary is gone through. -/
abbrev HostNumaNodes := AList fun _ : Nat => HostNumaNode

/-- The memory of a VM in bytes, and its topology. -/
structure Vm where
  memory : Nat
  cores : Nat
  sockets : Nat
  deriving DecidableEq, Repr

/-- The virtual CPUs of a VM. -/
def Vm.cpus (vm : Vm) : Nat := vm.cores * vm.sockets

/-- The definition of a NUMA node of a VM. -/
structure NumaNode where
  index : Nat
  memory : Nat
  cores : List Nat
  pinList : List Nat
  deriving DecidableEq, Repr

/-- `MB`. -/
def mb : Nat := 1024 ^ 2

/-- `filter_nodes_without_memory`. -/
def filterNodesWithoutMemory (nodes : HostNumaNodes) : HostNumaNodes :=
  ⟨nodes.entries.filter fun node => node.2.size ≠ 0,
    nodes.nodupKeys.sublist List.filter_sublist⟩

/-- The definition that one round of the loop appends. -/
def numaNode (hNumaNodesIndexes : List Nat) (vNumaNodeMemory vNumaNodeCores index : Nat) :
    Except BuiltinError NumaNode :=
  match hNumaNodesIndexes[index]? with
  | some pin =>
    .ok ⟨index, vNumaNodeMemory, range (index * vNumaNodeCores) ((index + 1) * vNumaNodeCores),
      [pin]⟩
  | none => .error .indexError

/-- `create_number_of_equals_numa_nodes`. -/
def createNumberOfEqualsNumaNodes (nodes : HostNumaNodes) (vm : Vm) (numOfNumaNodes : Nat) :
    Except BuiltinError (List NumaNode) := do
  let hNumaNodesIndexes := (filterNodesWithoutMemory nodes).keys
  let vNumaNodeMemory := (← floorDiv vm.memory numOfNumaNodes) / mb
  let vNumaNodeCores ← floorDiv (vm.cores * vm.sockets) numOfNumaNodes
  extendAll (fun index => do
      return [← numaNode hNumaNodesIndexes vNumaNodeMemory vNumaNodeCores index])
    [] (List.range numOfNumaNodes)

/-! ## Blocks of consecutive numbers -/

section

variable {length i j count n : Nat}

theorem mem_block_iff : n ∈ range (i * length) ((i + 1) * length) ↔
    i * length ≤ n ∧ n < (i + 1) * length := by
  rw [range, List.mem_range'_1]
  omega

theorem length_block (i length : Nat) :
    (range (i * length) ((i + 1) * length)).length = length := by
  rw [range, List.length_range', Nat.succ_mul, Nat.add_sub_cancel_left]

theorem disjoint_blocks (h : i ≠ j) :
    (range (i * length) ((i + 1) * length)).Disjoint (range (j * length) ((j + 1) * length)) := by
  intro n hi hj
  rw [mem_block_iff] at hi hj
  have hlt : i < j + 1 := Nat.lt_of_mul_lt_mul_right (Nat.lt_of_le_of_lt hi.1 hj.2)
  have hgt : j < i + 1 := Nat.lt_of_mul_lt_mul_right (Nat.lt_of_le_of_lt hj.1 hi.2)
  omega

theorem exists_block_iff :
    (∃ i < count, n ∈ range (i * length) ((i + 1) * length)) ↔ n < count * length := by
  constructor
  · rintro ⟨i, hi, hn⟩
    have hle : (i + 1) * length ≤ count * length := Nat.mul_le_mul_right length hi
    exact Nat.lt_of_lt_of_le (mem_block_iff.mp hn).2 hle
  · intro hn
    have hpos : 0 < length := Nat.pos_of_ne_zero fun hzero => by
      rw [hzero] at hn
      exact Nat.not_lt_zero n hn
    refine ⟨n / length, ?_, mem_block_iff.mpr ⟨Nat.div_mul_le_self n length, ?_⟩⟩
    · rwa [Nat.div_lt_iff_lt_mul hpos]
    · exact Nat.lt_mul_of_div_lt (Nat.lt_succ_self _) hpos

end

/-! ## The nodes of the VM -/

/-- The node with this index of a VM whose nodes are pinned to these nodes of the host. -/
def equalNode (vm : Vm) (numOfNumaNodes pin index : Nat) : NumaNode where
  index := index
  memory := vm.memory / numOfNumaNodes / mb
  cores := range (index * (vm.cpus / numOfNumaNodes)) ((index + 1) * (vm.cpus / numOfNumaNodes))
  pinList := [pin]

/-- The nodes of a VM whose nodes are pinned to these nodes of the host. -/
def equalNodes (vm : Vm) (numOfNumaNodes : Nat) (pins : List Nat) : List NumaNode :=
  pins.zipIdx.map fun pin => equalNode vm numOfNumaNodes pin.1 pin.2

section

variable {nodes : HostNumaNodes} {vm : Vm} {numOfNumaNodes : Nat}

theorem createNumberOfEqualsNumaNodes_eq (hpos : 0 < numOfNumaNodes) :
    createNumberOfEqualsNumaNodes nodes vm numOfNumaNodes
      = extendAll (fun index => do
          return [← numaNode (filterNodesWithoutMemory nodes).keys (vm.memory / numOfNumaNodes / mb)
            (vm.cpus / numOfNumaNodes) index]) [] (List.range numOfNumaNodes) := by
  unfold createNumberOfEqualsNumaNodes
  rw [floorDiv_of_pos hpos, floorDiv_of_pos hpos]
  rfl

/-- What one round of the loop appends, where there is a node of the host left. -/
theorem numaNode_of_lt {index : Nat} (h : index < (filterNodesWithoutMemory nodes).keys.length) :
    (do return [← numaNode (filterNodesWithoutMemory nodes).keys (vm.memory / numOfNumaNodes / mb)
        (vm.cpus / numOfNumaNodes) index] : Except BuiltinError (List NumaNode))
      = .ok [equalNode vm numOfNumaNodes
        ((filterNodesWithoutMemory nodes).keys.getD index 0) index] := by
  rw [numaNode, List.getElem?_eq_getElem h, List.getD_eq_getElem _ _ h]
  rfl

/-- As many nodes as asked for are defined, if the host has as many with memory. -/
theorem createNumberOfEqualsNumaNodes_ok (hpos : 0 < numOfNumaNodes)
    (hle : numOfNumaNodes ≤ (filterNodesWithoutMemory nodes).keys.length) :
    createNumberOfEqualsNumaNodes nodes vm numOfNumaNodes
      = .ok (equalNodes vm numOfNumaNodes
        ((filterNodesWithoutMemory nodes).keys.take numOfNumaNodes)) := by
  rw [createNumberOfEqualsNumaNodes_eq hpos,
    extendAll_ok fun index hindex =>
      numaNode_of_lt (Nat.lt_of_lt_of_le (List.mem_range.mp hindex) hle),
    List.nil_append, ← List.map_eq_flatMap]
  congr 1
  apply List.ext_getElem
  · simp [equalNodes, hle]
  · intro index hleft hright
    have hlt : index < (filterNodesWithoutMemory nodes).keys.length := by
      rw [List.length_map, List.length_range] at hleft
      exact Nat.lt_of_lt_of_le hleft hle
    simp [equalNodes, hlt]

end

/-! ## What the nodes share out -/

/-- The nodes are numbered from 0, have the same memory and as many CPUs each, are pinned to
different nodes of the host with memory, and share out the memory of the VM and the CPUs up to
the last multiple of their number. -/
structure SharesOut (nodes : HostNumaNodes) (vm : Vm) (numOfNumaNodes : Nat)
    (result : List NumaNode) : Prop where
  indexes : result.map NumaNode.index = List.range numOfNumaNodes
  memory : ∀ node ∈ result, ∀ other ∈ result, node.memory = other.memory
  length_cores : ∀ node ∈ result, node.cores.length = vm.cpus / numOfNumaNodes
  disjoint : result.Pairwise fun node other => node.cores.Disjoint other.cores
  covered : ∀ cpu, (∃ node ∈ result, cpu ∈ node.cores) ↔
    cpu < numOfNumaNodes * (vm.cpus / numOfNumaNodes)
  pins : ∃ pins : List Nat, result.map NumaNode.pinList = pins.map ([·]) ∧ pins.Nodup ∧
    ∀ pin ∈ pins, ∃ node, nodes.lookup pin = some node ∧ node.size ≠ 0
  total : (result.map NumaNode.memory).sum * mb ≤ vm.memory

theorem lookup_of_mem_keys_filter {nodes : HostNumaNodes} {pin : Nat}
    (h : pin ∈ (filterNodesWithoutMemory nodes).keys) :
    ∃ node, nodes.lookup pin = some node ∧ node.size ≠ 0 := by
  obtain ⟨entry, hentry, rfl⟩ := List.mem_map.mp h
  obtain ⟨hmem, hsize⟩ := List.mem_filter.mp hentry
  exact ⟨entry.2, AList.mem_lookup_iff.mpr hmem, of_decide_eq_true hsize⟩

section

variable {vm : Vm} {numOfNumaNodes : Nat} {pins : List Nat} {node : NumaNode}

theorem mem_equalNodes : node ∈ equalNodes vm numOfNumaNodes pins ↔
    ∃ index pin, pins[index]? = some pin ∧ equalNode vm numOfNumaNodes pin index = node := by
  rw [equalNodes, List.mem_map]
  constructor
  · rintro ⟨⟨pin, index⟩, hmem, rfl⟩
    exact ⟨index, pin, List.mem_zipIdx_iff_getElem?.mp hmem, rfl⟩
  · rintro ⟨index, pin, hpin, rfl⟩
    exact ⟨(pin, index), List.mem_zipIdx_iff_getElem?.mpr hpin, rfl⟩

theorem pairwise_disjoint_equalNodes (vm : Vm) (numOfNumaNodes : Nat) (pins : List Nat) :
    (equalNodes vm numOfNumaNodes pins).Pairwise fun node other =>
      node.cores.Disjoint other.cores := by
  rw [equalNodes, List.pairwise_map]
  have hindexes : pins.zipIdx.Pairwise fun pin other => pin.2 ≠ other.2 := by
    rw [← List.pairwise_map (f := Prod.snd) (R := (· ≠ ·)), List.zipIdx_map_snd]
    exact List.nodup_range'
  exact hindexes.imp disjoint_blocks

theorem exists_cores_equalNodes_iff {cpu : Nat} :
    (∃ node ∈ equalNodes vm numOfNumaNodes pins, cpu ∈ node.cores) ↔
      cpu < pins.length * (vm.cpus / numOfNumaNodes) := by
  rw [← exists_block_iff]
  constructor
  · rintro ⟨node, hnode, hcpu⟩
    obtain ⟨index, pin, hpin, rfl⟩ := mem_equalNodes.mp hnode
    exact ⟨index, (List.getElem?_eq_some_iff.mp hpin).1, hcpu⟩
  · rintro ⟨index, hindex, hcpu⟩
    exact ⟨_, mem_equalNodes.mpr ⟨index, _, List.getElem?_eq_getElem hindex, rfl⟩, hcpu⟩

theorem sum_memory_equalNodes (vm : Vm) (numOfNumaNodes : Nat) (pins : List Nat) :
    ((equalNodes vm numOfNumaNodes pins).map NumaNode.memory).sum
      = pins.length * (vm.memory / numOfNumaNodes / mb) := by
  have hmap : (equalNodes vm numOfNumaNodes pins).map NumaNode.memory
      = List.replicate pins.length (vm.memory / numOfNumaNodes / mb) := by
    rw [equalNodes, List.map_map]
    change pins.zipIdx.map (fun _ => vm.memory / numOfNumaNodes / mb) = _
    rw [List.map_const', List.length_zipIdx]
  rw [hmap, List.sum_replicate_nat]

/-- The nodes that are defined share out the VM. -/
theorem sharesOut_equalNodes {nodes : HostNumaNodes} (hlength : pins.length = numOfNumaNodes)
    (hsub : pins.Sublist (filterNodesWithoutMemory nodes).keys) :
    SharesOut nodes vm numOfNumaNodes (equalNodes vm numOfNumaNodes pins) where
  indexes := by
    rw [equalNodes, List.map_map, List.range_eq_range', ← hlength, ← List.zipIdx_map_snd]
    rfl
  memory := by
    intro node hnode other hother
    obtain ⟨_, _, -, rfl⟩ := mem_equalNodes.mp hnode
    obtain ⟨_, _, -, rfl⟩ := mem_equalNodes.mp hother
    rfl
  length_cores := by
    intro node hnode
    obtain ⟨index, _, -, rfl⟩ := mem_equalNodes.mp hnode
    exact length_block index _
  disjoint := pairwise_disjoint_equalNodes vm numOfNumaNodes pins
  covered := by
    intro cpu
    rw [exists_cores_equalNodes_iff, hlength]
  pins := by
    refine ⟨pins, ?_, hsub.nodup (filterNodesWithoutMemory nodes).keys_nodup, ?_⟩
    · rw [equalNodes, List.map_map]
      conv_rhs => rw [← List.zipIdx_map_fst 0 pins, List.map_map]
      rfl
    · intro pin hpin
      exact lookup_of_mem_keys_filter (hsub.subset hpin)
  total := by
    rw [sum_memory_equalNodes, hlength]
    calc
      numOfNumaNodes * (vm.memory / numOfNumaNodes / mb) * mb
          = numOfNumaNodes * (vm.memory / numOfNumaNodes / mb * mb) := Nat.mul_assoc _ _ _
      _ ≤ numOfNumaNodes * (vm.memory / numOfNumaNodes) :=
        Nat.mul_le_mul_left _ (Nat.div_mul_le_self _ _)
      _ ≤ vm.memory := Nat.mul_div_le _ _

end

/-- The NUMA nodes share out the VM, all of its CPUs if their number is a multiple of that of
the nodes; the CPUs after the last multiple are in no node. -/
theorem equal_numa_nodes_share_out (nodes : HostNumaNodes) (vm : Vm) (numOfNumaNodes : Nat)
    (hpos : 1 ≤ numOfNumaNodes)
    (hle : numOfNumaNodes ≤ (filterNodesWithoutMemory nodes).keys.length) :
    ∃ result, createNumberOfEqualsNumaNodes nodes vm numOfNumaNodes = .ok result ∧
      SharesOut nodes vm numOfNumaNodes result ∧
      (numOfNumaNodes ∣ vm.cpus →
        ∀ cpu, (∃ node ∈ result, cpu ∈ node.cores) ↔ cpu < vm.cpus) := by
  have hshares : SharesOut nodes vm numOfNumaNodes _ :=
    sharesOut_equalNodes (List.length_take_of_le hle) (List.take_sublist _ _)
  refine ⟨_, createNumberOfEqualsNumaNodes_ok hpos hle, hshares, ?_⟩
  intro hdvd cpu
  rw [hshares.covered, Nat.mul_div_cancel' hdvd]

/-- A host with two nodes that have memory. -/
def twoNodes : HostNumaNodes :=
  ⟨[⟨0, [0, 1], 1024⟩, ⟨1, [2, 3], 2048⟩], by unfold List.NodupKeys; decide⟩

theorem equal_numa_nodes_share_out_two :
    ∃ result, createNumberOfEqualsNumaNodes twoNodes ⟨2 * mb, 2, 2⟩ 2 = .ok result ∧
      SharesOut twoNodes ⟨2 * mb, 2, 2⟩ 2 result ∧
      (2 ∣ Vm.cpus ⟨2 * mb, 2, 2⟩ →
        ∀ cpu, (∃ node ∈ result, cpu ∈ node.cores) ↔ cpu < Vm.cpus ⟨2 * mb, 2, 2⟩) :=
  equal_numa_nodes_share_out twoNodes ⟨2 * mb, 2, 2⟩ 2 (by decide) (by decide)

/-- With three CPUs and two nodes, the last CPU is in no node. -/
theorem third_cpu_in_no_node :
    ∃ result, createNumberOfEqualsNumaNodes twoNodes ⟨2 * mb, 3, 1⟩ 2 = .ok result ∧
      ¬ ∃ node ∈ result, 2 ∈ node.cores := by
  refine ⟨[⟨0, 1, [0], [0]⟩, ⟨1, 1, [1], [1]⟩], by rfl, by decide⟩

end OvirtArt.Compute
