import Mathlib.Algebra.Order.Field.Rat
import Mathlib.Tactic.Ring
import OvirtArt.Compute.CpuLists
import OvirtArt.Foundation.Effects

set_option autoImplicit false

/-!
# `load_resource_cpu` of `low_level/sla.py`

A script with busy loops is created on a resource and run there.  Their number is the number of
online CPUs divided by `100 / load`, itself a quotient of integers.

The commands that are run on the resource are the result of the model.  How many busy loops a load
is worth is stated over the integers, with the two divisions of the source; the connection to the
resource is left out.
-/

namespace OvirtArt.Compute

open OvirtArt.CoreApi OvirtArt.Foundation

/-! ## A rounded quotient as the divisor -/

section

variable {whole load n : Nat}

/-- The groups of `whole / load` parts and what is left weigh as much as `n` parts. -/
theorem mul_groups_add (whole load n : Nat) :
    whole * (n / (whole / load)) + n % (whole / load) * load
      = n * load + n / (whole / load) * (whole % load) := by
  have hwhole := Nat.div_add_mod whole load
  have hn := Nat.div_add_mod n (whole / load)
  generalize whole / load = q at hwhole hn ⊢
  generalize n / q = k at hn ⊢
  calc
    whole * k + n % q * load = (load * q + whole % load) * k + n % q * load := by rw [hwhole]
    _ = (q * k + n % q) * load + k * (whole % load) := by ring
    _ = n * load + k * (whole % load) := by rw [hn]

/-- Dividing by the rounded quotient is at most the exact share when the parts outside the
groups make up for what the rounding leaves out. -/
theorem mul_div_quotient_le_iff (hload : 0 < load) (hwhole : load ≤ whole) :
    whole * (n / (whole / load)) ≤ n * load ↔
      n * (whole % load) ≤ whole * (n % (whole / load)) := by
  have hgroups := mul_groups_add whole load n
  have hquotient : 0 < whole / load := Nat.div_pos hwhole hload
  have hround := Nat.div_add_mod whole load
  have hn := Nat.div_add_mod n (whole / load)
  generalize whole / load = q at *
  generalize n / q = k at *
  generalize n % q = s at *
  generalize whole % load = r at *
  have hleft : q * (k * r) + s * r = n * r := by
    rw [← hn]
    ring
  have hright : q * (s * load) + s * r = whole * s := by
    rw [← hround]
    ring
  calc
    whole * k ≤ n * load ↔ k * r ≤ s * load := by omega
    _ ↔ q * (k * r) ≤ q * (s * load) := (Nat.mul_le_mul_left_iff hquotient).symm
    _ ↔ n * r ≤ whole * s := by omega

/-- Dividing by the rounded quotient is never less than the share rounded down. -/
theorem mul_lt_mul_div_quotient_succ (hload : 0 < load) (hwhole : load ≤ whole) :
    n * load < whole * (n / (whole / load) + 1) := by
  have h := mul_groups_add whole load n
  have hquotient : 0 < whole / load := Nat.div_pos hwhole hload
  have hleft : n % (whole / load) * load < whole / load * load :=
    Nat.mul_lt_mul_of_pos_right (Nat.mod_lt n hquotient) hload
  have hround : whole / load * load ≤ whole := Nat.div_mul_le_self whole load
  rw [Nat.mul_add]
  omega

theorem div_quotient_eq_iff (hload : 0 < load) (hwhole : load ≤ whole) :
    n / (whole / load) = n * load / whole ↔
      n * (whole % load) ≤ whole * (n % (whole / load)) := by
  have hpos : 0 < whole := Nat.lt_of_lt_of_le hload hwhole
  rw [← mul_div_quotient_le_iff hload hwhole]
  constructor
  · intro heq
    rw [heq]
    exact Nat.mul_div_le _ _
  · intro hle
    apply Nat.le_antisymm
    · rwa [Nat.le_div_iff_mul_le hpos, Nat.mul_comm]
    · rw [← Nat.lt_add_one_iff, Nat.div_lt_iff_lt_mul hpos, Nat.mul_comm _ whole]
      exact mul_lt_mul_div_quotient_succ hload hwhole

theorem div_quotient_mono {more : Nat} (hload : 0 < load) (hmore : load ≤ more)
    (hwhole : more ≤ whole) : n / (whole / load) ≤ n / (whole / more) := by
  have hpos : 0 < more := Nat.lt_of_lt_of_le hload hmore
  have hquotient : 0 < whole / more := Nat.div_pos hwhole hpos
  exact Nat.div_le_div_left (Nat.div_le_div_left hmore hload) hquotient

end

/-! ## The function -/

/-- A resource: what `lscpu` answers, and how the load script ends. -/
structure Resource where
  lscpuRc : Int
  lscpuOut : Text
  loadRc : Int

/-- The script that starts one busy loop for each number of `seq 1 numOfCpus`. -/
structure LoadScript where
  numOfCpus : Nat
  deriving DecidableEq, Repr

/-- The numbers that the script goes through. -/
def LoadScript.seq (script : LoadScript) : List Nat := List.range' 1 script.numOfCpus

/-- What is done on the resource. -/
inductive ResourceAction where
  | createScript (script : LoadScript) (path : Text)
  | runCommand (cmd : List Text)
  deriving DecidableEq, Repr

/-- `os.path.join(LOAD_SCRIPT_DIR, LOAD_SCRIPT_NAME)`. -/
def scriptPath : Text := "/tmp/load_host.sh".toList

/-- The command that runs the script in the background. -/
def loadCommand : List Text :=
  ["sh".toList, scriptPath, "&>".toList, "/tmp/OUT1".toList, "&".toList, "echo".toList,
    "$!".toList]

/-- `load_resource_cpu`. -/
def loadResourceCpu (resource : Resource) (load : Nat) :
    EStateM BuiltinError (List ResourceAction) Bool := do
  let onlineCpus ←
    fromExcept (getListOfOnlineCpusOnResource resource.lscpuRc resource.lscpuOut)
  if onlineCpus.length = 0 then
    return false
  let quotient ← fromExcept (floorDiv 100 load)
  let numOfCpus ← fromExcept (floorDiv onlineCpus.length quotient)
  modify (· ++ [.createScript ⟨numOfCpus⟩ scriptPath])
  modify (· ++ [.runCommand loadCommand])
  return resource.loadRc = 0

/-- The busy loops that a sequence of actions starts: those of the script that is there when
the command is run. -/
def startedLoops : Nat → List ResourceAction → Nat
  | _, [] => 0
  | _, .createScript script _ :: rest => startedLoops script.seq.length rest
  | loops, .runCommand _ :: rest => loops + startedLoops loops rest

/-- `load_resource_cpu` does not raise, and starts this number of busy loops. -/
def Starts (resource : Resource) (load loops : Nat) : Prop :=
  ∃ answer log, (loadResourceCpu resource load).run [] = .ok answer log ∧
    startedLoops 0 log = loops

/-- The resource lists these CPUs, at least one, as online. -/
def ListsOnline (resource : Resource) (cpus : Finset Nat) : Prop :=
  resource.lscpuRc = 0 ∧ searchOnlineCpus resource.lscpuOut = some (cpuList cpus) ∧ cpus.Nonempty

section

variable {resource : Resource} {cpus : Finset Nat} {load : Nat}

/-- The outcome for every load from 1 to 100. -/
theorem run_loadResourceCpu (h : ListsOnline resource cpus) (hpos : 0 < load) (hle : load ≤ 100) :
    (loadResourceCpu resource load).run []
      = .ok (resource.loadRc = 0 : Bool)
          [.createScript ⟨cpus.card / (100 / load)⟩ scriptPath, .runCommand loadCommand] := by
  obtain ⟨hrc, hout, hcpus⟩ := h
  have hlist : getListOfOnlineCpusOnResource resource.lscpuRc resource.lscpuOut
      = .ok cpus.sort := by
    rw [hrc]
    exact getListOfOnlineCpusOnResource_of_search hout hcpus
  have hcard : cpus.sort.length ≠ 0 := by
    rw [Finset.length_sort]
    exact Finset.card_ne_zero.mpr hcpus
  have hquotient : 0 < 100 / load := Nat.div_pos hle hpos
  unfold loadResourceCpu
  rw [hlist, floorDiv_of_pos hpos, ← Finset.length_sort (· ≤ ·)]
  change (if _ then _ else _ : EStateM BuiltinError (List ResourceAction) Bool).run [] = _
  rw [if_neg hcard]
  change ((fromExcept (floorDiv _ (100 / load))) >>= _).run [] = _
  rw [floorDiv_of_pos hquotient]
  rfl

variable {loops : Nat}

theorem starts_iff (h : ListsOnline resource cpus) (hpos : 0 < load) (hle : load ≤ 100) :
    Starts resource load loops ↔ loops = cpus.card / (100 / load) := by
  have hrun := run_loadResourceCpu h hpos hle
  have hloops : startedLoops 0
      [.createScript ⟨cpus.card / (100 / load)⟩ scriptPath, .runCommand loadCommand]
      = cpus.card / (100 / load) := by
    simp only [startedLoops, LoadScript.seq, List.length_range', Nat.add_zero]
  constructor
  · rintro ⟨answer, log, hlog, rfl⟩
    rw [hrun] at hlog
    cases hlog
    exact hloops
  · rintro rfl
    exact ⟨_, _, hrun, hloops⟩

/-- The average load in percent that a number of busy loops makes on `n` CPUs. -/
def averageLoad (n loops : Nat) : ℚ := 100 * loops / n

theorem averageLoad_le_iff {n : Nat} (hn : 0 < n) :
    averageLoad n loops ≤ load ↔ 100 * loops ≤ n * load := by
  have hcast : (0 : ℚ) < n := Nat.cast_pos.mpr hn
  rw [averageLoad, div_le_iff₀ hcast, mul_comm (load : ℚ)]
  exact_mod_cast Iff.rfl

theorem lt_averageLoad_iff {n : Nat} (hn : 0 < n) :
    (load : ℚ) - 100 / n < averageLoad n loops ↔ n * load < 100 * (loops + 1) := by
  have hcast : (0 : ℚ) < n := Nat.cast_pos.mpr hn
  have hsum : 100 / (n : ℚ) + averageLoad n loops = 100 * (loops + 1) / n := by
    unfold averageLoad
    ring
  rw [sub_lt_iff_lt_add', hsum, lt_div_iff₀ hcast, mul_comm (load : ℚ)]
  exact_mod_cast Iff.rfl

/-- The number of busy loops is the share of the load rounded down, and the average load right
below the load, exactly if what is left of the CPUs makes up for what the rounded quotient
leaves out; it does not raise, and starts no fewer loops for a higher load. -/
theorem load_rounded_down_iff (h : ListsOnline resource cpus) (hpos : 0 < load)
    (hle : load ≤ 100) :
    (∃ loops, Starts resource load loops) ∧
    (∀ more fewer many, load ≤ more → more ≤ 100 → Starts resource load fewer →
      Starts resource more many → fewer ≤ many) ∧
    (Starts resource load (cpus.card * load / 100) ↔
      cpus.card * (100 % load) ≤ 100 * (cpus.card % (100 / load))) ∧
    (∀ loops, Starts resource load loops →
      ((load : ℚ) - 100 / cpus.card < averageLoad cpus.card loops ∧
          averageLoad cpus.card loops ≤ load ↔
        cpus.card * (100 % load) ≤ 100 * (cpus.card % (100 / load)))) := by
  have hcard : 0 < cpus.card := Finset.card_pos.mpr h.2.2
  refine ⟨⟨_, (starts_iff h hpos hle).mpr rfl⟩, ?_, ?_, ?_⟩
  · intro more fewer many hmore hmax hfewer hmany
    rw [(starts_iff h hpos hle).mp hfewer,
      (starts_iff h (Nat.lt_of_lt_of_le hpos hmore) hmax).mp hmany]
    exact div_quotient_mono hpos hmore hmax
  · rw [starts_iff h hpos hle, eq_comm]
    exact div_quotient_eq_iff hpos hle
  · intro loops hloops
    rw [(starts_iff h hpos hle).mp hloops, lt_averageLoad_iff hcard, averageLoad_le_iff hcard,
      mul_div_quotient_le_iff hpos hle]
    exact and_iff_right (mul_lt_mul_div_quotient_succ hpos hle)

end

/-- A resource with four CPUs. -/
def fourCpus : Resource := ⟨0, "On-line CPU(s) list:   0-3\n".toList, 0⟩

theorem listsOnline_fourCpus : ListsOnline fourCpus (Finset.range 4) := by
  refine ⟨rfl, ?_, ⟨0, by decide⟩⟩
  rw [cpuList, Finset.sort_range]
  decide

theorem load_rounded_down_half : Starts fourCpus 50 2 := by
  apply (load_rounded_down_iff listsOnline_fourCpus (by decide) (by decide)).2.2.1.mpr
  decide

/-- A load of 60 percent starts a loop on every CPU. -/
theorem load_sixty_not_rounded_down : ¬ Starts fourCpus 60 (4 * 60 / 100) := by
  rw [starts_iff listsOnline_fourCpus (by decide) (by decide)]
  decide

end OvirtArt.Compute
