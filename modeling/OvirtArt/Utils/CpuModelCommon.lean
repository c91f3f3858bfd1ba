import Mathlib.Data.List.Perm.Basic
import OvirtArt.Utils.CpuModel

set_option autoImplicit false

/-!
# The CPU model that hosts have in common

`get_common_cpu_model` takes the lowest of the best models of the hosts.  It is the best model
that all of them support exactly where one of the hosts has it as its own best model.

The order of the models of a vendor is that of their levels.  The result about vendors holds for
every order in which the dictionary of counts is gone through.
-/

namespace OvirtArt.Utils.CpuModel

open OvirtArt.CoreApi OvirtArt.Foundation

/-! ## Specification -/

/-- The host supports the model of the CPU. -/
def Supports (host : Host) (cpu : Cpu) : Prop :=
  ∃ hostInfo, fetchHostCaps host = .ok hostInfo ∧ cpu.model ∈ hostInfo.models

/-- The CPU is the first one of its model. -/
def IsFirst (cpus : List Cpu) (cpu : Cpu) : Prop :=
  cpus.find? (fun other => other.model = cpu.model) = some cpu

/-- The host supports a model of the list. -/
def Known (cpus : List Cpu) (host : Host) : Prop := ∃ cpu ∈ cpus, Supports host cpu

/-- The CPU is of the highest level among those that are found for the models of the host. -/
def IsBest (cpus : List Cpu) (host : Host) (best : Cpu) : Prop :=
  Supports host best ∧ IsFirst cpus best ∧
    ∀ other, IsFirst cpus other → Supports host other → other.level ≤ best.level

/-- The hosts are of one vendor. -/
def OneVendor (cpus : List Cpu) (hosts : List Host) : Prop :=
  ∃ vendor, ∀ host ∈ hosts, ∀ cpu ∈ cpus, Supports host cpu → cpu.vendor = vendor

/-- No two CPUs of one vendor have the same level. -/
def DistinctLevels (cpus : List Cpu) : Prop :=
  cpus.Pairwise fun a b => a.vendor = b.vendor → a.level ≠ b.level

/-- The best model of one of the hosts is supported by all of them, and no CPU that repeats a
model of the list at a higher level is. -/
def SharedBest (cpus : List Cpu) (hosts : List Host) : Prop :=
  ∃ host ∈ hosts, ∃ best, IsBest cpus host best ∧ (∀ other ∈ hosts, Supports other best) ∧
    ∀ repeated ∈ cpus, ¬ IsFirst cpus repeated →
      (∀ other ∈ hosts, Supports other repeated) → repeated.level ≤ best.level

namespace CpuModelDenominator

variable (self : CpuModelDenominator) (version : Option Text)

/-- A model that is returned is supported by all hosts, and none of a higher level is; where
there is none, a `CpuModelError` is raised; and the order of the hosts does not matter. -/
def CommonCorrect (cpus : List Cpu) (hosts : List Host) : Prop :=
  (∀ cpu, self.getCommonCpuModel hosts version = .ok (some cpu) →
      (∀ host ∈ hosts, Supports host cpu) ∧
        ∀ other ∈ cpus, cpu.level < other.level → ¬ ∀ host ∈ hosts, Supports host other) ∧
    ((¬ ∃ cpu ∈ cpus, ∀ host ∈ hosts, Supports host cpu) →
      ∃ e, self.getCommonCpuModel hosts version = .error e ∧ e.isCpuModelError = true) ∧
    ∀ permuted, permuted.Perm hosts →
      self.getCommonCpuModel permuted version = self.getCommonCpuModel hosts version

end CpuModelDenominator

instance (cpus : List Cpu) : Decidable (DistinctLevels cpus) :=
  inferInstanceAs (Decidable (cpus.Pairwise _))

local instance lawfulBEqOptionText : LawfulBEq (Option Text) := inferInstance

instance (host : Host) (cpu : Cpu) : Decidable (Supports host cpu) :=
  match hcaps : fetchHostCaps host with
  | .error _ => isFalse fun ⟨_, hok, _⟩ => by rw [hcaps] at hok; cases hok
  | .ok hostInfo =>
    decidable_of_iff (cpu.model ∈ hostInfo.models) (by
      constructor
      · exact fun hmem => ⟨hostInfo, hcaps, hmem⟩
      · rintro ⟨_, hok, hmem⟩
        obtain rfl := Except.ok.inj (hcaps.symm.trans hok)
        exact hmem)

instance (cpus : List Cpu) (host : Host) : Decidable (Known cpus host) :=
  inferInstanceAs (Decidable (∃ cpu ∈ cpus, Supports host cpu))

instance (cpus : List Cpu) (cpu : Cpu) : Decidable (IsFirst cpus cpu) :=
  inferInstanceAs (Decidable (_ = _))

/-! ## The best model of a host -/

namespace CpuModelDenominator

variable {self : CpuModelDenominator} {version : Option Text} {cpus : List Cpu}
  {replaces : Cpu → Cpu → Bool} {host : Host} {best second cpu first : Cpu}

/-- The first CPU with the value is returned. -/
theorem getCpuInfo_of_found {key : Cpu → Option Text} {value : Option Text}
    (hlist : self.getCpuList version = .ok (.cpus cpus))
    (hfind : cpus.find? (fun cpu => key cpu = value) = some cpu) :
    self.getCpuInfo key value version = .ok cpu := by
  rw [← List.head?_filter] at hfind
  unfold getCpuInfo
  rw [hlist]
  obtain ⟨rest, hrest⟩ := List.head?_eq_some_iff.mp hfind
  simp only [items, hrest, bind, Except.bind]

theorem getCpuInfo_of_not_found {key : Cpu → Option Text} {value : Option Text}
    (hlist : self.getCpuList version = .ok (.cpus cpus))
    (hfind : cpus.find? (fun cpu => key cpu = value) = none) :
    self.getCpuInfo key value version =
      .error (.unknownCpuModel (Text.formatted value ++ " for ".toList ++
        Text.formatted version ++ " version".toList)) := by
  rw [← List.head?_filter, List.head?_eq_none_iff] at hfind
  unfold getCpuInfo
  rw [hlist]
  simp only [items, hfind, bind, Except.bind]

/-- The first CPU with the model. -/
def firstOf (cpus : List Cpu) (model : Option Text) : Option Cpu :=
  cpus.find? fun cpu => cpu.model = model

/-- The CPUs that are found for models. -/
def found (cpus : List Cpu) (models : List (Option Text)) : List Cpu :=
  models.filterMap (firstOf cpus)

variable (self version) in
/-- What `list_cpu_info` does with one model. -/
def collectInfo (infoList : List Cpu) (model : Option Text) : Except PyException (List Cpu) :=
  match self.getCpuInfo Cpu.model model version with
  | .ok info => .ok (infoList ++ [info])
  | .error (.unknownCpuModel _) => .ok infoList
  | .error e => .error e

theorem collectInfo_eq (hlist : self.getCpuList version = .ok (.cpus cpus)) (infoList : List Cpu)
    (model : Option Text) :
    self.collectInfo version infoList model = .ok (infoList ++ (firstOf cpus model).toList) := by
  unfold collectInfo
  cases hfind : firstOf cpus model with
  | none =>
    rw [getCpuInfo_of_not_found hlist hfind, Option.toList_none, List.append_nil]
  | some cpu =>
    rw [getCpuInfo_of_found hlist hfind]
    rfl

theorem listCpuInfo_eq (hlist : self.getCpuList version = .ok (.cpus cpus))
    (models : List (Option Text)) :
    self.listCpuInfo models version = .ok (found cpus models) := by
  have hfrom : ∀ infoList, models.foldlM (self.collectInfo version) infoList =
      Except.ok (infoList ++ found cpus models) := by
    unfold found
    induction models with
    | nil =>
      intro infoList
      rw [List.filterMap_nil, List.append_nil]
      rfl
    | cons model rest ih =>
      intro infoList
      rw [List.foldlM_cons, collectInfo_eq hlist]
      refine (ih _).trans ?_
      cases hfind : firstOf cpus model with
      | none => rw [List.filterMap_cons_none hfind, Option.toList_none, List.append_nil]
      | some cpu =>
        rw [List.filterMap_cons_some hfind, Option.toList_some, List.append_assoc,
          List.singleton_append]
  exact hfrom []

theorem mem_found {models : List (Option Text)} :
    cpu ∈ found cpus models ↔ IsFirst cpus cpu ∧ cpu.model ∈ models := by
  unfold found IsFirst
  rw [List.mem_filterMap]
  constructor
  · rintro ⟨model, hmem, hfind⟩
    have hmodel : cpu.model = model := by simpa using List.find?_some hfind
    rw [hmodel]
    exact ⟨hfind, hmem⟩
  · rintro ⟨hfind, hmem⟩
    exact ⟨cpu.model, hmem, hfind⟩

/-- `max` gives one of the highest level. -/
theorem maxByLevel_spec {infos : List Cpu} (hne : infos ≠ []) :
    ∃ best ∈ infos, maxByLevel infos = .ok best ∧ ∀ other ∈ infos, other.level ≤ best.level := by
  have hfold : ∀ (rest : List Cpu) (first : Cpu),
      let best := rest.foldl (fun best info => if best.level < info.level then info else best) first
      best ∈ first :: rest ∧ ∀ other ∈ first :: rest, other.level ≤ best.level := by
    intro rest
    induction rest with
    | nil =>
      intro first
      refine ⟨List.mem_cons_self, fun other hmem => ?_⟩
      rw [List.mem_singleton.mp hmem]
      exact le_refl _
    | cons info rest ih =>
      intro first
      rw [List.foldl_cons]
      obtain ⟨hmem, hmax⟩ := ih (if first.level < info.level then info else first)
      have hnext := hmax _ List.mem_cons_self
      refine ⟨?_, ?_⟩
      · rcases List.mem_cons.mp hmem with heq | hrest
        · rw [heq]
          split
          · exact List.mem_cons_of_mem _ List.mem_cons_self
          · exact List.mem_cons_self
        · exact List.mem_cons_of_mem _ (List.mem_cons_of_mem _ hrest)
      · have hboth : first.level ≤ (if first.level < info.level then info else first).level ∧
            info.level ≤ (if first.level < info.level then info else first).level := by
          split <;> omega
        intro other hother
        rcases List.mem_cons.mp hother with rfl | hother
        · exact hboth.1.trans hnext
        rcases List.mem_cons.mp hother with rfl | hother
        · exact hboth.2.trans hnext
        · exact hmax other (List.mem_cons_of_mem _ hother)
  cases infos with
  | nil => exact absurd rfl hne
  | cons first rest =>
    obtain ⟨hmem, hmax⟩ := hfold rest first
    exact ⟨_, hmem, rfl, hmax⟩

theorem isFirst_of_known (h : Known cpus host) : ∃ cpu, IsFirst cpus cpu ∧ Supports host cpu := by
  obtain ⟨cpu, hmem, hostInfo, hcaps, hmodel⟩ := h
  have hsome : (cpus.find? fun other => other.model = cpu.model).isSome := by
    rw [List.find?_isSome]
    exact ⟨cpu, hmem, by simp⟩
  obtain ⟨first, hfirst⟩ := Option.isSome_iff_exists.mp hsome
  have hsame : first.model = cpu.model := by simpa using List.find?_some hfirst
  refine ⟨first, ?_, hostInfo, hcaps, ?_⟩
  · rw [IsFirst, hsame]
    exact hfirst
  · rw [hsame]
    exact hmodel

theorem mem_of_isFirst (h : IsFirst cpus cpu) : cpu ∈ cpus :=
  List.mem_of_find?_eq_some h

/-- A host that supports a model of the list has a best one. -/
theorem bestCpu_spec (hlist : self.getCpuList version = .ok (.cpus cpus)) (h : Known cpus host) :
    ∃ best, self.bestCpu version host = .ok best ∧ IsBest cpus host best := by
  obtain ⟨cpu, hfirst, hostInfo, hcaps, hmodel⟩ := isFirst_of_known h
  have hne : found cpus hostInfo.models ≠ [] :=
    List.ne_nil_of_mem (mem_found.mpr ⟨hfirst, hmodel⟩)
  obtain ⟨best, hmem, hbest, hmax⟩ := maxByLevel_spec hne
  obtain ⟨hfirst, hmodel⟩ := mem_found.mp hmem
  refine ⟨best, ?_, ⟨hostInfo, hcaps, hmodel⟩, hfirst, ?_⟩
  · unfold bestCpu
    rw [hcaps]
    change (self.listCpuInfo hostInfo.models version).bind maxByLevel = _
    rw [listCpuInfo_eq hlist]
    exact hbest
  · rintro other hother ⟨otherInfo, hok, hin⟩
    obtain rfl := Except.ok.inj (hcaps.symm.trans hok)
    exact hmax other (mem_found.mpr ⟨hother, hin⟩)

theorem isBest_of_bestCpu (hlist : self.getCpuList version = .ok (.cpus cpus)) (h : Known cpus host)
    (hbest : self.bestCpu version host = .ok best) : IsBest cpus host best := by
  obtain ⟨other, hother, hspec⟩ := bestCpu_spec hlist h
  obtain rfl := Except.ok.inj (hbest.symm.trans hother)
  exact hspec

/-! ## The loop over the hosts -/

theorem consider_none (h : self.bestCpu version host = .ok best) :
    self.consider replaces version none host = .ok (some best) := by
  unfold consider
  rw [h]
  rfl

theorem consider_some {selected : Cpu} (h : self.bestCpu version host = .ok best) :
    self.consider replaces version (some selected) host =
      if best.vendor ≠ selected.vendor then .error (mismatch best.vendor selected.vendor)
      else .ok (some (if replaces best selected then best else selected)) := by
  unfold consider
  rw [h]
  rfl

/-- The model so far, or the best one of a host, that is no better than any of them. -/
def Lowest (self : CpuModelDenominator) (version : Option Text) (hosts : List Host)
    (cpu : Cpu) : Prop :=
  ∀ host ∈ hosts, ∀ best, self.bestCpu version host = .ok best → cpu.level ≤ best.level

theorem Lowest.cons {host : Host} {rest : List Host} {cpu best : Cpu}
    (h : Lowest self version rest cpu) (hbest : self.bestCpu version host = .ok best)
    (hle : cpu.level ≤ best.level) : Lowest self version (host :: rest) cpu := by
  intro other hmem found hfound
  rcases List.mem_cons.mp hmem with rfl | hmem
  · obtain rfl := Except.ok.inj (hbest.symm.trans hfound)
    exact hle
  · exact h other hmem found hfound

/-- Among hosts of one vendor the loop finds the lowest of their best models. -/
theorem common_from {vendor : Option Text} {hosts : List Host}
    (hbests : ∀ host ∈ hosts, ∃ best,
      self.bestCpu version host = .ok best ∧ best.vendor = vendor) :
    ∀ {selected : Cpu}, selected.vendor = vendor → ∃ cpu,
      hosts.foldlM (self.consider (fun best selected => best.level < selected.level) version)
        (some selected) = .ok (some cpu) ∧
      (cpu = selected ∨ ∃ host ∈ hosts, self.bestCpu version host = .ok cpu) ∧
      cpu.level ≤ selected.level ∧ Lowest self version hosts cpu := by
  induction hosts with
  | nil =>
    intro selected _
    exact ⟨selected, rfl, Or.inl rfl, le_refl _, fun host hmem => absurd hmem List.not_mem_nil⟩
  | cons host rest ih =>
    intro selected hselected
    obtain ⟨⟨best, hbest, hvendor⟩, hrest⟩ := List.forall_mem_cons.mp hbests
    have hsame : ¬ best.vendor ≠ selected.vendor := not_not_intro (hvendor.trans hselected.symm)
    rw [List.foldlM_cons, consider_some hbest, if_neg hsame]
    -- The next one to go on with is the lower one of the two.
    generalize hnext : (if decide (best.level < selected.level) = true then best
      else selected) = next
    have hlow : next.level ≤ selected.level ∧ next.level ≤ best.level ∧
        next.vendor = vendor ∧ (next = selected ∨ next = best) := by
      rw [← hnext]
      simp only [decide_eq_true_eq]
      split
      · exact ⟨by omega, le_refl _, hvendor, Or.inr rfl⟩
      · exact ⟨le_refl _, by omega, hselected, Or.inl rfl⟩
    obtain ⟨cpu, hfold, hfrom, hle, hlowest⟩ := ih hrest hlow.2.2.1
    refine ⟨cpu, hfold, ?_, hle.trans hlow.1, ?_⟩
    · rcases hfrom with rfl | ⟨other, hmem, hother⟩
      · rcases hlow.2.2.2 with heq | heq
        · exact Or.inl heq
        · exact Or.inr ⟨host, List.mem_cons_self, heq ▸ hbest⟩
      · exact Or.inr ⟨other, List.mem_cons_of_mem _ hmem, hother⟩
    · exact hlowest.cons hbest (hle.trans hlow.2.1)

theorem common_lowest {vendor : Option Text} {hosts : List Host} (hne : hosts ≠ [])
    (hbests : ∀ host ∈ hosts, ∃ best,
      self.bestCpu version host = .ok best ∧ best.vendor = vendor) :
    ∃ cpu, self.getCommonCpuModel hosts version = .ok (some cpu) ∧
      (∃ host ∈ hosts, self.bestCpu version host = .ok cpu) ∧ Lowest self version hosts cpu := by
  cases hosts with
  | nil => exact absurd rfl hne
  | cons host rest =>
    obtain ⟨⟨best, hbest, hvendor⟩, hrest⟩ := List.forall_mem_cons.mp hbests
    obtain ⟨cpu, hfold, hfrom, hle, hlowest⟩ := common_from hrest hvendor
    refine ⟨cpu, ?_, ?_, ?_⟩
    · unfold getCommonCpuModel select
      rw [List.foldlM_cons, consider_none hbest]
      exact hfold
    · rcases hfrom with rfl | ⟨other, hmem, hother⟩
      · exact ⟨host, List.mem_cons_self, hbest⟩
      · exact ⟨other, List.mem_cons_of_mem _ hmem, hother⟩
    · exact hlowest.cons hbest hle

/-- A host of another vendor is told by an exception. -/
theorem mismatch_from {hosts : List Host}
    (hbests : ∀ host ∈ hosts, ∃ best, self.bestCpu version host = .ok best) :
    ∀ {selected : Cpu}, (∃ host ∈ hosts, ∃ best,
        self.bestCpu version host = .ok best ∧ best.vendor ≠ selected.vendor) →
      ∃ message, hosts.foldlM (self.consider replaces version) (some selected) =
        .error (.hostVendorMismatch message) := by
  induction hosts with
  | nil =>
    rintro selected ⟨host, hmem, _⟩
    exact absurd hmem List.not_mem_nil
  | cons host rest ih =>
    rintro selected ⟨other, hmem, foreign, hforeign, hne⟩
    obtain ⟨⟨best, hbest⟩, hrest⟩ := List.forall_mem_cons.mp hbests
    rw [List.foldlM_cons, consider_some hbest]
    by_cases hvendor : best.vendor ≠ selected.vendor
    · rw [if_pos hvendor]
      exact ⟨_, rfl⟩
    rw [if_neg hvendor]
    apply ih hrest
    rcases List.mem_cons.mp hmem with rfl | hmem
    · obtain rfl := Except.ok.inj (hbest.symm.trans hforeign)
      exact absurd hne hvendor
    · refine ⟨other, hmem, foreign, hforeign, ?_⟩
      split
      · rw [not_not.mp hvendor]
        exact hne
      · exact hne

theorem mismatch_of_two_vendors {hosts : List Host}
    (hbests : ∀ host ∈ hosts, ∃ best, self.bestCpu version host = .ok best)
    (htwo : ∃ first ∈ hosts, ∃ second ∈ hosts, ∃ one other,
      self.bestCpu version first = .ok one ∧ self.bestCpu version second = .ok other ∧
        one.vendor ≠ other.vendor) :
    ∃ message, self.getCommonCpuModel hosts version = .error (.hostVendorMismatch message) := by
  cases hosts with
  | nil =>
    obtain ⟨first, hmem, _⟩ := htwo
    exact absurd hmem List.not_mem_nil
  | cons host rest =>
    obtain ⟨⟨best, hbest⟩, hrest⟩ := List.forall_mem_cons.mp hbests
    obtain ⟨first, hfirst, second, hsecond, one, other, hone, hother, hne⟩ := htwo
    unfold getCommonCpuModel select
    rw [List.foldlM_cons, consider_none hbest]
    apply mismatch_from hrest
    -- One of the two is not of the vendor of the first host, and so comes after it.
    by_cases hvendor : one.vendor = best.vendor
    · rcases List.mem_cons.mp hsecond with rfl | hmem
      · obtain rfl := Except.ok.inj (hbest.symm.trans hother)
        exact absurd hvendor hne
      · exact ⟨second, hmem, other, hother, fun heq => hne (hvendor.trans heq.symm)⟩
    · rcases List.mem_cons.mp hfirst with rfl | hmem
      · obtain rfl := Except.ok.inj (hbest.symm.trans hone)
        exact absurd rfl hvendor
      · exact ⟨first, hmem, one, hone, hvendor⟩

/-! ## Hosts of one vendor -/

theorem eq_of_levels (hlevels : DistinctLevels cpus) (hfirst : first ∈ cpus)
    (hsecond : second ∈ cpus) (hvendor : first.vendor = second.vendor)
    (hlevel : first.level = second.level) : first = second := by
  by_contra hne
  have hsymm : Std.Symm fun a b : Cpu => a.vendor = b.vendor → a.level ≠ b.level :=
    ⟨fun a b h heq hlevels => h heq.symm hlevels.symm⟩
  exact List.Pairwise.forall hlevels hfirst hsecond hne hvendor hlevel

/-- What is returned for hosts of one vendor: the lowest of their best models. -/
structure Returned (denominator : CpuModelDenominator) (version : Option Text)
    (cpus : List Cpu) (hosts : List Host) (cpu : Cpu) : Prop where
  ok : denominator.getCommonCpuModel hosts version = .ok (some cpu)
  best : ∃ host ∈ hosts, IsBest cpus host cpu
  lowest : ∀ host ∈ hosts, ∀ best, IsBest cpus host best → cpu.level ≤ best.level

variable {hosts : List Host}

theorem level_eq_of_isBest (hfirst : IsBest cpus host first) (hsecond : IsBest cpus host second) :
    first.level = second.level :=
  le_antisymm (hsecond.2.2 first hfirst.2.1 hfirst.1) (hfirst.2.2 second hsecond.2.1 hsecond.1)

theorem exists_returned (hlist : self.getCpuList version = .ok (.cpus cpus))
    (hknown : ∀ host ∈ hosts, Known cpus host) (hne : hosts ≠ [])
    (hvendor : OneVendor cpus hosts) : ∃ cpu, Returned self version cpus hosts cpu := by
  obtain ⟨vendor, hvendor⟩ := hvendor
  have hbests : ∀ host ∈ hosts, ∃ best,
      self.bestCpu version host = .ok best ∧ best.vendor = vendor := by
    intro host hmem
    obtain ⟨best, hbest, hspec⟩ := bestCpu_spec hlist (hknown host hmem)
    exact ⟨best, hbest, hvendor host hmem best (mem_of_isFirst hspec.2.1) hspec.1⟩
  obtain ⟨cpu, hok, ⟨host, hmem, hbest⟩, hlowest⟩ := common_lowest hne hbests
  refine ⟨cpu, hok, ⟨host, hmem, isBest_of_bestCpu hlist (hknown host hmem) hbest⟩, ?_⟩
  intro other hother best hspec
  obtain ⟨found, hfound, _⟩ := hbests other hother
  rw [level_eq_of_isBest hspec (isBest_of_bestCpu hlist (hknown other hother) hfound)]
  exact hlowest other hother found hfound

/-- What is returned is determined by the hosts, whatever their order. -/
theorem Returned.unique (hlevels : DistinctLevels cpus) (hvendor : OneVendor cpus hosts)
    {permuted : List Host} (hsame : ∀ host, host ∈ permuted ↔ host ∈ hosts)
    (hfirst : Returned self version cpus hosts first)
    (hsecond : Returned self version cpus permuted second) : first = second := by
  obtain ⟨vendor, hvendor⟩ := hvendor
  obtain ⟨host, hmem, hbest⟩ := hfirst.best
  obtain ⟨other, hother, hotherBest⟩ := hsecond.best
  have hin := (hsame other).mp hother
  have hone := hvendor host hmem first (mem_of_isFirst hbest.2.1) hbest.1
  have htwo := hvendor other hin second (mem_of_isFirst hotherBest.2.1) hotherBest.1
  refine eq_of_levels hlevels (mem_of_isFirst hbest.2.1) (mem_of_isFirst hotherBest.2.1)
    (hone.trans htwo.symm) (le_antisymm ?_ ?_)
  · exact hfirst.lowest other hin second hotherBest
  · exact hsecond.lowest host ((hsame host).mpr hmem) first hbest

/-- A shared best model is what is returned. -/
theorem Returned.eq_of_shared (hlevels : DistinctLevels cpus) (hvendor : OneVendor cpus hosts)
    (h : Returned self version cpus hosts cpu) (hmem : host ∈ hosts) (hbest : IsBest cpus host best)
    (hall : ∀ other ∈ hosts, Supports other best) : cpu = best := by
  obtain ⟨vendor, hvendor⟩ := hvendor
  obtain ⟨other, hother, hcpu⟩ := h.best
  have hone := hvendor other hother cpu (mem_of_isFirst hcpu.2.1) hcpu.1
  have htwo := hvendor host hmem best (mem_of_isFirst hbest.2.1) hbest.1
  refine eq_of_levels hlevels (mem_of_isFirst hcpu.2.1) (mem_of_isFirst hbest.2.1)
    (hone.trans htwo.symm) (le_antisymm ?_ ?_)
  · exact h.lowest host hmem best hbest
  · exact hcpu.2.2 best hbest.2.1 (hall other hother)

theorem commonCorrect_iff (hlist : self.getCpuList version = .ok (.cpus cpus))
    (hlevels : DistinctLevels cpus) (hknown : ∀ host ∈ hosts, Known cpus host)
    (hne : hosts ≠ []) (hvendor : OneVendor cpus hosts) :
    self.CommonCorrect version cpus hosts ↔ SharedBest cpus hosts := by
  obtain ⟨cpu, hreturned⟩ := exists_returned hlist hknown hne hvendor
  constructor
  · rintro ⟨hright, _, _⟩
    obtain ⟨hall, hgreatest⟩ := hright cpu hreturned.ok
    obtain ⟨host, hmem, hbest⟩ := hreturned.best
    refine ⟨host, hmem, cpu, hbest, hall, fun repeated hrepeated _ hsupported => ?_⟩
    by_contra hlevel
    exact hgreatest repeated hrepeated (by omega) hsupported
  · rintro ⟨host, hmem, best, hbest, hall, hrepeated⟩
    obtain rfl := hreturned.eq_of_shared hlevels hvendor hmem hbest hall
    refine ⟨fun found hfound => ?_, fun hnone => ?_, fun permuted hperm => ?_⟩
    · obtain rfl := Option.some.inj (Except.ok.inj (hreturned.ok.symm.trans hfound))
      refine ⟨hall, fun other hother hlt hsupported => ?_⟩
      by_cases hfirst : IsFirst cpus other
      · have hle := hbest.2.2 other hfirst (hsupported host hmem)
        omega
      · have hle := hrepeated other hother hfirst hsupported
        omega
    · exact absurd ⟨cpu, mem_of_isFirst hbest.2.1, hall⟩ hnone
    · have hsame : ∀ other, other ∈ permuted ↔ other ∈ hosts := fun other => hperm.mem_iff
      have hother : OneVendor cpus permuted := by
        obtain ⟨vendor, h⟩ := hvendor
        exact ⟨vendor, fun other hother => h other ((hsame other).mp hother)⟩
      have hnonempty : permuted ≠ [] := fun hnil => hne (List.nil_perm.mp (hnil ▸ hperm))
      obtain ⟨found, hfound⟩ := exists_returned hlist
        (fun other hother => hknown other ((hsame other).mp hother)) hnonempty hother
      rw [hfound.ok, hreturned.ok, hreturned.unique hlevels hvendor hsame hfound]

end CpuModelDenominator

/-- Where the CPU list of the version has distinct levels and every host supports one of its
models: for hosts of one vendor, `get_common_cpu_model` is correct exactly if the best model
of one of the hosts is supported by all of them; and where the best models of two hosts are of
different vendors, it says so whatever the order. -/
theorem common_correct_iff (self : CpuModelDenominator) (version : Option Text) (cpus : List Cpu)
    (hosts : List Host) (hlist : self.getCpuList version = .ok (.cpus cpus))
    (hlevels : DistinctLevels cpus) (hknown : ∀ host ∈ hosts, Known cpus host) :
    (hosts ≠ [] → OneVendor cpus hosts →
        (self.CommonCorrect version cpus hosts ↔ SharedBest cpus hosts)) ∧
      ((∃ first ∈ hosts, ∃ second ∈ hosts, ∃ one other,
          self.bestCpu version first = .ok one ∧ self.bestCpu version second = .ok other ∧
            one.vendor ≠ other.vendor) →
        ∀ permuted, permuted.Perm hosts → ∃ message,
          self.getCommonCpuModel permuted version = .error (.hostVendorMismatch message)) := by
  refine ⟨CpuModelDenominator.commonCorrect_iff hlist hlevels hknown, ?_⟩
  rintro ⟨first, hfirst, second, hsecond, htwo⟩ permuted hperm
  refine CpuModelDenominator.mismatch_of_two_vendors (fun host hmem => ?_)
    ⟨first, hperm.mem_iff.mpr hfirst, second, hperm.mem_iff.mpr hsecond, htwo⟩
  obtain ⟨best, hbest, _⟩ :=
    CpuModelDenominator.bestCpu_spec hlist (hknown host (hperm.mem_iff.mp hmem))
  exact ⟨best, hbest⟩

/-! ## Three Intel models -/

/-- CPUs of Intel, with their places as levels. -/
def intelCpus : List Cpu :=
  ["Conroe", "Nehalem", "Haswell"].zipIdx.map fun entry =>
    { cpu := ("Intel " ++ entry.1 ++ " Family").toList
      level := entry.2
      model := some ("model_" ++ entry.1).toList
      vendor := some "Intel".toList }

/-- A table with Intel models only. -/
def intelDenominator : CpuModelDenominator where
  cpus := AList.singleton "4.2".toList { cpus := intelCpus, current := "4.2".toList }

/-- A host with these flags. -/
def intelHost (cpuFlags : String) : Host where
  rc := 0
  out := "GenuineIntel".toList
  err := []
  cpuFlags := some cpuFlags.toList

theorem oneVendor_intel (hosts : List Host) : OneVendor intelCpus hosts :=
  ⟨some "Intel".toList, fun _ _ cpu hmem _ =>
    (show ∀ cpu ∈ intelCpus, cpu.vendor = some "Intel".toList by decide) cpu hmem⟩

/-- The second host supports one model only, which the first one supports too. -/
theorem common_correct_conroe :
    intelDenominator.CommonCorrect (some "4.2".toList) intelCpus
      [intelHost "fpu,model_Nehalem,model_Conroe", intelHost "fpu,model_Conroe"] := by
  refine ((common_correct_iff _ _ _ _ rfl (by decide) (by decide)).1 (by simp)
    (oneVendor_intel _)).mpr ?_
  refine ⟨intelHost "fpu,model_Conroe", by simp, intelCpus[0], ⟨by decide, by decide, ?_⟩,
    by decide, by decide⟩
  intro other hfirst
  exact (show ∀ other ∈ intelCpus, Supports (intelHost "fpu,model_Conroe") other →
    other.level ≤ intelCpus[0].level by decide) other (CpuModelDenominator.mem_of_isFirst hfirst)

/-- Each host has a better model than the one that they share, and one gets a model that it
does not support. -/
theorem common_not_supported :
    ¬ ∀ (self : CpuModelDenominator) (version : Option Text) (cpus : List Cpu)
      (hosts : List Host), self.getCpuList version = .ok (.cpus cpus) → DistinctLevels cpus →
        (∀ host ∈ hosts, Known cpus host) → hosts ≠ [] → OneVendor cpus hosts →
          self.CommonCorrect version cpus hosts := by
  intro hall
  obtain ⟨hright, _, _⟩ := hall intelDenominator (some "4.2".toList) intelCpus
    [intelHost "model_Haswell,model_Conroe", intelHost "model_Nehalem,model_Conroe"] rfl
    (by decide) (by decide) (by simp) (oneVendor_intel _)
  obtain ⟨hsupported, _⟩ := hright intelCpus[1] (by decide)
  exact absurd (hsupported (intelHost "model_Haswell,model_Conroe") (by simp)) (by decide)

end OvirtArt.Utils.CpuModel
