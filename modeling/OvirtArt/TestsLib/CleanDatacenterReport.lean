import Mathlib.Data.List.Nodup
import OvirtArt.TestsLib.CleanDatacenter

set_option autoImplicit false

/-!
# What `clean_datacenter` reports

Which failures of the steps the status tells of that `clean_datacenter` returns, and that it asks
for nothing that belongs to a hosted engine.

Both halves are over every engine.  A masked failure is one whose result is dropped, or is
overwritten by a later step.
-/

namespace OvirtArt.TestsLib.CleanDatacenter

open OvirtArt.CoreApi OvirtArt.Foundation
open OvirtArt.Foundation.Recorded (call ask Avoids)

/-! ## The whole run -/

section

variable {world : World} {dc : DataCenter} {args : CleanArgs} {bad : Entry → Prop}
  {spmHost : Option Text} {first second : Bool}

/-- The phases of a run that returns `True`, with the status after each that sets it. -/
structure Passed (world : World) (dc : DataCenter) (args : CleanArgs) (spmHost : Option Text)
    (first second : Bool) : Prop where
  vms : ∀ cluster ∈ connectedClusters dc, (cleanCluster world dc args cluster).result = .ok ⟨⟩
  selection : (selectSpm world args (collectedAll dc args)).result = .ok ⟨⟩
  spm : world.spmHost = .ok spmHost
  domains : (deactivateDomains world args (collectedAll dc args) (kept world dc args).sds
    true).result = .ok first
  datacenter : (removeDatacenter world (collectedAll dc args) first).result = .ok second
  removal : (removeDomains world args spmHost (kept world dc args).sds second).result = .ok true
  hosts : ∀ host ∈ (kept world dc args).hosts, (removeHost world host).result = .ok ⟨⟩
  clusters : ∀ cluster ∈ (kept world dc args).clusters,
    (removeCluster world cluster).result = .ok true

theorem result_cleanClusters_iff {collected : Collected} :
    (cleanClusters world dc args).result = .ok collected ↔
      (∀ cluster ∈ connectedClusters dc,
        (cleanCluster world dc args cluster).result = .ok ⟨⟩) ∧
      collectedAll dc args = collected := by
  rw [cleanClusters_eq, Recorded.result_bind_eq_ok_iff]
  constructor
  · rintro ⟨_, hloop, hvalue⟩
    exact ⟨Recorded.result_forM_eq_ok_iff.mp hloop, Recorded.result_pure_eq_ok_iff.mp hvalue⟩
  · rintro ⟨hloop, rfl⟩
    exact ⟨⟨⟩, Recorded.result_forM_eq_ok_iff.mpr hloop, rfl⟩

theorem result_eq_ok_true_iff :
    (cleanDatacenter world dc args).result = .ok true ↔
      ∃ spmHost first second, Passed world dc args spmHost first second := by
  unfold cleanDatacenter
  simp only [Recorded.result_bind_eq_ok_iff]
  constructor
  · rintro ⟨collected, hcollected, _, hselection, spmHost, hspm, first, hfirst, second, hsecond,
      third, hthird, _, hhosts, hloop⟩
    obtain ⟨hvms, rfl⟩ := result_cleanClusters_iff.mp hcollected
    obtain ⟨rfl, hclusters⟩ := Recorded.result_status_eq_ok_iff.mp hloop
    exact ⟨spmHost, first, second, hvms, hselection, hspm, hfirst, hsecond, hthird,
      Recorded.result_forM_eq_ok_iff.mp hhosts, hclusters⟩
  · rintro ⟨spmHost, first, second, h⟩
    exact ⟨_, result_cleanClusters_iff.mpr ⟨h.vms, rfl⟩, ⟨⟩, h.selection, spmHost, h.spm, first,
      h.domains, second, h.datacenter, true, h.removal, ⟨⟩,
      Recorded.result_forM_eq_ok_iff.mpr h.hosts,
      Recorded.result_status_eq_ok_iff.mpr ⟨rfl, h.clusters⟩⟩

/-- A run that returns `True` avoids bad entries exactly if its phases do. -/
theorem avoids_iff (h : Passed world dc args spmHost first second) :
    Avoids bad (cleanDatacenter world dc args) ↔
      (∀ cluster ∈ connectedClusters dc, Avoids bad (cleanCluster world dc args cluster)) ∧
      Avoids bad (deactivateDomains world args (collectedAll dc args) (kept world dc args).sds
        true) ∧
      Avoids bad (removeDatacenter world (collectedAll dc args) first) ∧
      Avoids bad (removeDomains world args spmHost (kept world dc args).sds second) ∧
      (∀ host ∈ (kept world dc args).hosts, Avoids bad (removeHost world host)) ∧
      ∀ cluster ∈ (kept world dc args).clusters, Avoids bad (removeCluster world cluster) := by
  have hloop : ((connectedClusters dc).forM (cleanCluster world dc args)).result = .ok ⟨⟩ :=
    Recorded.result_forM_eq_ok_iff.mpr h.vms
  have hspm : (call world.spmHost : Proc (Option Text)).result = .ok spmHost := h.spm
  have hdomains := h.domains
  have hremoval := h.removal
  have hhosts := h.hosts
  have hclusters := h.clusters
  unfold kept at hdomains hremoval hhosts hclusters ⊢
  unfold cleanDatacenter
  rw [Recorded.avoids_bind_iff (result_cleanClusters_iff.mpr ⟨h.vms, rfl⟩),
    Recorded.avoids_bind_iff h.selection, Recorded.avoids_bind_iff hspm,
    Recorded.avoids_bind_iff hdomains, Recorded.avoids_bind_iff h.datacenter,
    Recorded.avoids_bind_iff hremoval,
    Recorded.avoids_bind_iff (Recorded.result_forM_eq_ok_iff.mpr hhosts),
    Recorded.avoids_forM_iff hhosts, Recorded.avoids_status_iff hclusters, cleanClusters_eq,
    Recorded.avoids_bind_iff hloop, Recorded.avoids_forM_iff h.vms,
    and_iff_left Recorded.avoids_pure, and_iff_right avoids_selectSpm,
    and_iff_right Recorded.avoids_call]

/-! ### Entries that a run cannot have -/

/-- None of the entries that a run could make is bad. -/
structure Harmless (world : World) (dc : DataCenter) (args : CleanArgs) (bad : Entry → Prop) :
    Prop where
  vms : ∀ cluster, ¬ bad (.asked (.removeVms (vmsToRemove dc args cluster)))
  templates : ∀ cluster, ¬ bad (.asked (.removeTemplates cluster))
  disks : ∀ disk, ¬ bad (.asked (.deleteDisk disk))
  detached : ∀ domain, ¬ bad (.asked (.detachDomain domain))
  deactivated : ∀ domain, ¬ bad (.asked (.deactivateDomain domain))
  datacenter : hosted dc args = false → ¬ bad (.asked .removeDatacenter)
  domains : ∀ sd ∈ (kept world dc args).sds, ¬ bad (.asked (.removeStorageDomain sd.name))
  hosts : ∀ host ∈ (kept world dc args).hosts, ¬ bad (.asked (.removeHost host))
  clusters : ∀ cluster ∈ (kept world dc args).clusters,
    ¬ bad (.asked (.removeCluster cluster.name))
  ended : ∀ name ok, name ≠ .storageDomains → ¬ bad (.ended name ok)
  removal : ∀ host, world.spmHost = .ok (some host) → ∀ ok, ¬ bad (.ended .storageDomains ok)

theorem avoids_step {name : Step} {function : Proc Bool} (hended : ∀ ok, ¬ bad (.ended name ok))
    (h : Avoids bad function) : Avoids bad (step name function) := by
  refine Recorded.avoids_bind h fun ok => Recorded.avoids_bind ?_ fun _ => Recorded.avoids_pure
  exact Recorded.avoids_ask_iff.mpr (hended ok)

theorem Harmless.avoids_cleanCluster (h : Harmless world dc args bad) (cluster : Cluster) :
    Avoids bad (cleanCluster world dc args cluster) := by
  refine Recorded.avoids_bind (avoids_step (fun ok => h.ended _ ok nofun) ?_) fun _ => ?_
  · exact avoids_safelyRemoveVms (h.vms cluster)
  · exact Recorded.avoids_ask_iff.mpr (h.templates cluster.name)

theorem Harmless.avoids_deactivateDomains (h : Harmless world dc args bad) (collected : Collected)
    (sds : List StorageDomain) (status : Bool) :
    Avoids bad (deactivateDomains world args collected sds status) := by
  refine Recorded.avoids_ite (fun _ => Recorded.avoids_pure) fun _ => ?_
  refine Recorded.avoids_bind (Recorded.avoids_forM fun sd _ => ?_) fun _ => ?_
  · refine Recorded.avoids_bind (avoids_step (fun ok => h.ended _ ok nofun) ?_)
      fun _ => Recorded.avoids_pure
    exact avoids_removeFloatingDisks h.disks sd.name
  refine Recorded.avoids_bind avoids_waitForTasks fun _ => ?_
  refine Recorded.avoids_bind (Recorded.avoids_forM fun sd _ => ?_) fun _ => ?_
  · refine Recorded.avoids_ite (fun _ => Recorded.avoids_pure) fun _ => ?_
    refine Recorded.avoids_bind (avoids_step (fun ok => h.ended _ ok nofun) ?_) fun _ =>
      Recorded.avoids_ite (fun _ => Recorded.avoids_pure) fun _ => Recorded.avoids_call
    exact Recorded.avoids_ask_iff.mpr (h.detached sd.name)
  refine Recorded.avoids_bind avoids_waitForTasks fun _ => ?_
  refine Recorded.avoids_ite (fun _ => Recorded.avoids_pure) fun _ => ?_
  refine Recorded.avoids_bind (avoids_step (fun ok => h.ended _ ok nofun) ?_) fun _ =>
    Recorded.avoids_bind avoids_waitForTasks fun _ => Recorded.avoids_pure
  exact avoids_deactivateMasterStorageDomain h.deactivated

theorem Harmless.avoids_removeDatacenter (h : Harmless world dc args bad) (status : Bool) :
    Avoids bad (removeDatacenter world (collectedAll dc args) status) := by
  refine Recorded.avoids_ite (fun _ => Recorded.avoids_pure) fun hhosted => ?_
  refine Recorded.avoids_bind (avoids_step (fun ok => h.ended _ ok nofun) ?_)
    fun _ => Recorded.avoids_pure
  exact Recorded.avoids_ask_iff.mpr (h.datacenter (Bool.eq_false_iff.mpr hhosted))

theorem Harmless.avoids_removeDomains (h : Harmless world dc args bad)
    (hspm : world.spmHost = .ok spmHost) (status : Bool) :
    Avoids bad (removeDomains world args spmHost (kept world dc args).sds status) := by
  cases spmHost with
  | none => exact Recorded.avoids_pure
  | some host =>
    refine Recorded.avoids_ite (fun _ => Recorded.avoids_pure) fun _ => ?_
    exact avoids_step (h.removal host hspm) (avoids_removeStorageDomains h.domains)

/-- A run makes no entry that is bad if none that it could make is. -/
theorem Harmless.avoids (h : Harmless world dc args bad) :
    Avoids bad (cleanDatacenter world dc args) := by
  refine Recorded.avoids_bind_of_result ?_ fun collected hcollected => ?_
  · rw [cleanClusters_eq]
    exact Recorded.avoids_bind (Recorded.avoids_forM fun cluster _ => h.avoids_cleanCluster cluster)
      fun _ => Recorded.avoids_pure
  obtain ⟨-, rfl⟩ := result_cleanClusters_iff.mp hcollected
  refine Recorded.avoids_bind avoids_selectSpm fun _ => ?_
  refine Recorded.avoids_bind_of_result Recorded.avoids_call fun spmHost hspm => ?_
  refine Recorded.avoids_bind (h.avoids_deactivateDomains _ _ _) fun first => ?_
  refine Recorded.avoids_bind (h.avoids_removeDatacenter first) fun second => ?_
  refine Recorded.avoids_bind (h.avoids_removeDomains hspm second) fun third => ?_
  refine Recorded.avoids_bind (Recorded.avoids_forM fun host hhost => ?_) fun _ =>
    Recorded.avoids_foldlM fun status cluster hcluster => ?_
  · refine Recorded.avoids_bind (avoids_step (fun ok => h.ended _ ok nofun) ?_)
      fun _ => Recorded.avoids_pure
    exact Recorded.avoids_ask_iff.mpr (h.hosts host hhost)
  · refine Recorded.avoids_bind (avoids_step (fun ok => h.ended _ ok nofun) ?_)
      fun _ => Recorded.avoids_pure
    exact Recorded.avoids_ask_iff.mpr (h.clusters cluster hcluster)

/-! ### The status -/

/-- Where the removal of the storage domains is not asked for, the status is the one before. -/
theorem Passed.second_eq (h : Passed world dc args spmHost first second)
    (hskip : (kept world dc args).sds = [] ∨ spmHost = none) : second = true := by
  have hremoval := h.removal
  rcases hskip with hsds | rfl
  · rw [removeDomains_of_nil hsds] at hremoval
    exact Recorded.result_pure_eq_ok_iff.mp hremoval
  · exact Recorded.result_pure_eq_ok_iff.mp hremoval

theorem Passed.datacenter_of (h : Passed world dc args spmHost first second)
    (hhosted : hosted dc args = false) :
    ∃ ok, world.removeDatacenter = .ok ok ∧ (if ok then first else false) = second := by
  have hdatacenter := result_removeDatacenter_iff.mp h.datacenter
  unfold hosted at hhosted
  rwa [hhosted, if_neg nofun] at hdatacenter

theorem Passed.domains_of (h : Passed world dc args spmHost first second)
    (hsds : (kept world dc args).sds ≠ []) :
    DomainsDeactivated world args (collectedAll dc args) (kept world dc args).sds true first :=
  (result_deactivateDomains_iff hsds).mp h.domains

theorem Passed.master_of (h : Passed world dc args spmHost first second)
    (hsds : (kept world dc args).sds ≠ []) (hhosted : hosted dc args = false) :
    (deactivateMasterStorageDomain world).result = .ok first ∧
      Ends (waitForTasks world args 2).result := by
  have hmaster := result_deactivateMaster_iff.mp (h.domains_of hsds).master
  unfold hosted at hhosted
  rwa [hhosted, if_neg nofun] at hmaster

theorem Passed.domainsResult_of (h : Passed world dc args spmHost first second) {host : Text}
    (hspm : world.spmHost = .ok (some host)) (hsds : (kept world dc args).sds ≠ []) :
    domainsResult world dc args host = .ok true := by
  obtain rfl := Except.ok.inj (h.spm.symm.trans hspm)
  have hremoval := h.removal
  rwa [removeDomains_of_ne hsds, result_step] at hremoval

/-- In a run that returns `True` nothing has raised. -/
theorem Passed.everyStepEnds (h : Passed world dc args spmHost first second) :
    EveryStepEnds world dc args where
  vms := fun cluster hcluster => (result_cleanCluster_iff.mp (h.vms cluster hcluster)).1
  templates := fun cluster hcluster => (result_cleanCluster_iff.mp (h.vms cluster hcluster)).2
  selection := result_selectSpm_iff.mp h.selection
  spmHost := ⟨spmHost, h.spm⟩
  floatingDisks := fun sd hsd =>
    (h.domains_of (List.ne_nil_of_mem hsd)).floatingDisks sd hsd
  tasks := fun hsds => (h.domains_of hsds).tasks
  detached := fun sd hsd => (h.domains_of (List.ne_nil_of_mem hsd)).detached sd hsd
  master := fun hsds hhosted =>
    ⟨⟨first, (h.master_of hsds hhosted).1⟩, (h.master_of hsds hhosted).2⟩
  datacenter := fun hhosted => by
    obtain ⟨ok, hok, -⟩ := h.datacenter_of hhosted
    exact ⟨ok, hok⟩
  storageDomains := fun host hspm hsds => ⟨true, h.domainsResult_of hspm hsds⟩
  hosts := fun host hhost => result_removeHost_iff.mp (h.hosts host hhost)
  clusters := fun cluster hcluster =>
    ⟨true, result_removeCluster.symm.trans (h.clusters cluster hcluster)⟩

/-- In a run that returns `True` the steps have succeeded that the status tells of. -/
theorem Passed.decidingStepsSucceed (h : Passed world dc args spmHost first second) :
    DecidingStepsSucceed world dc args where
  clusters := fun cluster hcluster =>
    result_removeCluster.symm.trans (h.clusters cluster hcluster)
  storageDomains := fun host hspm hsds => h.domainsResult_of hspm hsds
  datacenter := fun hskip hhosted => by
    have hsecond := h.second_eq
      (hskip.imp id fun hspm => Except.ok.inj (h.spm.symm.trans hspm))
    obtain ⟨ok, hok, hstatus⟩ := h.datacenter_of hhosted
    cases ok with
    | true => exact hok
    | false => exact nomatch hstatus.trans hsecond
  master := fun hsds hspm hhosted => by
    have hsecond := h.second_eq (.inr (Except.ok.inj (h.spm.symm.trans hspm)))
    obtain ⟨ok, hok, hstatus⟩ := h.datacenter_of hhosted
    cases ok with
    | false => exact nomatch hstatus.trans hsecond
    | true =>
      obtain rfl : first = true := hstatus.trans hsecond
      exact (h.master_of hsds hhosted).1

/-- Where nothing raises, there is a status after the storage domains are deactivated. -/
theorem EveryStepEnds.exists_first (hends : EveryStepEnds world dc args) :
    ∃ first, (deactivateDomains world args (collectedAll dc args) (kept world dc args).sds
      true).result = .ok first ∧
      ((kept world dc args).sds = [] ∨ hosted dc args = true → first = true) ∧
      ((kept world dc args).sds ≠ [] → hosted dc args = false →
        (deactivateMasterStorageDomain world).result = .ok first) := by
  by_cases hsds : (kept world dc args).sds = []
  · refine ⟨true, ?_, fun _ => rfl, fun hne => absurd hsds hne⟩
    rw [hsds]
    rfl
  · have hdomains : ∀ first, (deactivateMaster world args (collectedAll dc args)
        true).result = .ok first → (deactivateDomains world args (collectedAll dc args)
          (kept world dc args).sds true).result = .ok first := by
      intro first hfirst
      exact (result_deactivateDomains_iff hsds).mpr
        ⟨hends.floatingDisks, hends.tasks hsds, hends.detached, hfirst⟩
    cases hhosted : hosted dc args with
    | true =>
      refine ⟨true, hdomains true ?_, fun _ => rfl, nofun⟩
      exact result_deactivateMaster_iff.mpr ((if_pos hhosted).mpr rfl)
    | false =>
      obtain ⟨⟨first, hfirst⟩, hwait⟩ := hends.master hsds hhosted
      refine ⟨first, hdomains first ?_, fun h => ?_, fun _ _ => hfirst⟩
      · exact result_deactivateMaster_iff.mpr
          ((if_neg (Bool.eq_false_iff.mp hhosted)).mpr ⟨hfirst, hwait⟩)
      · exact h.elim (fun h => absurd h hsds) nofun

/-- Where nothing raises, there is a status after the data center is removed, and it tells only of
the storage domains once the deciding steps succeed. -/
theorem EveryStepEnds.exists_second {spmHost : Option Text} {first : Bool}
    (hends : EveryStepEnds world dc args) (hdeciding : DecidingStepsSucceed world dc args)
    (hspm : world.spmHost = .ok spmHost)
    (hsilent : (kept world dc args).sds = [] ∨ hosted dc args = true → first = true)
    (hmaster : (kept world dc args).sds ≠ [] → hosted dc args = false →
      (deactivateMasterStorageDomain world).result = .ok first) :
    ∃ second, (removeDatacenter world (collectedAll dc args) first).result = .ok second ∧
      ((kept world dc args).sds = [] ∨ spmHost = none → second = true) := by
  cases hhosted : hosted dc args with
  | true =>
    refine ⟨first, result_removeDatacenter_iff.mpr ((if_pos hhosted).mpr rfl), fun _ => ?_⟩
    exact hsilent (.inr hhosted)
  | false =>
    obtain ⟨ok, hok⟩ := hends.datacenter hhosted
    refine ⟨if ok then first else false, result_removeDatacenter_iff.mpr
      ((if_neg (Bool.eq_false_iff.mp hhosted)).mpr ⟨ok, hok, rfl⟩), fun hskip => ?_⟩
    have hremoved := hdeciding.datacenter
      (hskip.imp id fun h => hspm.trans (congrArg Except.ok h)) hhosted
    obtain rfl := Except.ok.inj (hok.symm.trans hremoved)
    rw [if_pos rfl]
    by_cases hsds : (kept world dc args).sds = []
    · exact hsilent (.inl hsds)
    · have hnone := hskip.resolve_left hsds
      have hdone := hdeciding.master hsds (hspm.trans (congrArg Except.ok hnone)) hhosted
      exact Except.ok.inj ((hmaster hsds hhosted).symm.trans hdone)

/-- Where nothing raises, and the steps succeed that the status tells of, `True` is returned. -/
theorem exists_passed (hends : EveryStepEnds world dc args)
    (hdeciding : DecidingStepsSucceed world dc args) :
    ∃ spmHost first second, Passed world dc args spmHost first second := by
  obtain ⟨spmHost, hspm⟩ := hends.spmHost
  obtain ⟨first, hfirst, hsilent, hmaster⟩ := hends.exists_first
  obtain ⟨second, hsecond, hskip⟩ := hends.exists_second hdeciding hspm hsilent hmaster
  refine ⟨spmHost, first, second, ?_⟩
  have hremoval : (removeDomains world args spmHost (kept world dc args).sds second).result =
      .ok true := by
    by_cases hsds : (kept world dc args).sds = []
    · rw [removeDomains_of_nil hsds]
      exact congrArg Except.ok (hskip (.inl hsds))
    · cases spmHost with
      | none => exact congrArg Except.ok (hskip (.inr rfl))
      | some host =>
        rw [removeDomains_of_ne hsds, result_step]
        exact hdeciding.storageDomains host hspm hsds
  exact
    { vms := fun cluster hcluster => result_cleanCluster_iff.mpr
        ⟨hends.vms cluster hcluster, hends.templates cluster hcluster⟩
      selection := result_selectSpm_iff.mpr hends.selection
      spm := hspm
      domains := hfirst
      datacenter := hsecond
      removal := hremoval
      hosts := fun host hhost => result_removeHost_iff.mpr (hends.hosts host hhost)
      clusters := fun cluster hcluster =>
        result_removeCluster.trans (hdeciding.clusters cluster hcluster) }

/-! ### The failures -/

/-- A run that returns `True` records no failure exactly if the steps have succeeded whose results
it has not returned. -/
theorem Passed.avoids_failed_iff (h : Passed world dc args spmHost first second) :
    Avoids Failed (cleanDatacenter world dc args) ↔
      (∀ cluster ∈ connectedClusters dc, vmsResult world dc args cluster = .ok true) ∧
      ((∀ sd ∈ (kept world dc args).sds, (removeFloatingDisks world sd.name).result = .ok true) ∧
        ((kept world dc args).sds ≠ [] → hosted dc args = false →
          (deactivateMasterStorageDomain world).result = .ok true)) ∧
      (hosted dc args = false → world.removeDatacenter = .ok true) ∧
      ∀ host ∈ (kept world dc args).hosts, world.removeHost host = .ok true := by
  have hdomains : Avoids Failed (deactivateDomains world args (collectedAll dc args)
        (kept world dc args).sds true) ↔
      (∀ sd ∈ (kept world dc args).sds,
        (removeFloatingDisks world sd.name).result = .ok true) ∧
      ((kept world dc args).sds ≠ [] → hosted dc args = false →
        (deactivateMasterStorageDomain world).result = .ok true) := by
    by_cases hsds : (kept world dc args).sds = []
    · rw [hsds]
      refine iff_of_true Recorded.avoids_pure ⟨fun sd hsd => absurd hsd List.not_mem_nil, ?_⟩
      exact fun hne => absurd rfl hne
    · rw [avoids_deactivateDomains_iff hsds (h.domains_of hsds)]
      exact and_congr_right fun _ => ⟨fun hmaster _ => hmaster, fun hmaster => hmaster hsds⟩
  rw [avoids_iff h, hdomains, avoids_removeDatacenter_iff h.datacenter,
    and_iff_right (avoids_removeDomains h.removal),
    and_iff_left fun cluster hcluster => avoids_removeCluster (h.clusters cluster hcluster)]
  refine and_congr ?_ (and_congr_right fun _ => and_congr_right fun _ => ?_)
  · exact forall₂_congr fun cluster hcluster => avoids_cleanCluster_iff (h.vms cluster hcluster)
  · exact forall₂_congr fun host hhost => avoids_removeHost_iff (h.hosts host hhost)

/-- The end of the removal of the storage domains. -/
def RemovalEnded (entry : Entry) : Prop := ∃ ok, entry = .ended .storageDomains ok

theorem avoids_removalEnded (hspm : world.spmHost = .ok none) :
    Avoids RemovalEnded (cleanDatacenter world dc args) := by
  have hasked : ∀ request, ¬ RemovalEnded (.asked request) := by
    rintro request ⟨ok, h⟩
    exact nomatch h
  exact Harmless.avoids
    { vms := fun _ => hasked _
      templates := fun _ => hasked _
      disks := fun _ => hasked _
      detached := fun _ => hasked _
      deactivated := fun _ => hasked _
      datacenter := fun _ => hasked _
      domains := fun _ _ => hasked _
      hosts := fun _ _ => hasked _
      clusters := fun _ _ => hasked _
      ended := fun name ok hname hended => hname (Entry.ended.inj hended.choose_spec).1
      removal := fun host hhost => nomatch hspm.symm.trans hhost }

/-- The storage domains have been removed exactly if there is a host to remove them with. -/
theorem Passed.removal_iff (h : Passed world dc args spmHost first second)
    (hsds : (kept world dc args).sds ≠ []) :
    (∃ ok, Entry.ended .storageDomains ok ∈ (cleanDatacenter world dc args).entries) ↔
      world.spmHost ≠ .ok none := by
  constructor
  · rintro ⟨ok, hmem⟩ hnone
    exact avoids_removalEnded hnone _ hmem ⟨ok, rfl⟩
  · intro hsome
    cases spmHost with
    | none => exact absurd h.spm hsome
    | some host =>
      by_contra hnone
      have havoids : Avoids RemovalEnded (cleanDatacenter world dc args) := by
        rintro entry hentry ⟨ok, rfl⟩
        exact hnone ⟨ok, hentry⟩
      have hphase := ((avoids_iff h).mp havoids).2.2.2.1
      have hremoval := h.removal
      rw [removeDomains_of_ne hsds, result_step] at hremoval
      rw [removeDomains_of_ne hsds, avoids_step_iff hremoval] at hphase
      exact hphase.2 ⟨true, rfl⟩

/-- Failures are reported exactly if none is masked. -/
theorem reportsFailures_iff : ReportsFailures world dc args ↔ NothingMasked world dc args := by
  constructor
  · intro hreports hends hdeciding
    obtain ⟨spmHost, first, second, hpassed⟩ := exists_passed hends hdeciding
    obtain ⟨havoids, hremoval⟩ := hreports (result_eq_ok_true_iff.mpr ⟨_, _, _, hpassed⟩)
    obtain ⟨hvms, ⟨hfloating, hmaster⟩, hdatacenter, hhosts⟩ :=
      hpassed.avoids_failed_iff.mp havoids
    exact
      { vms := hvms
        floatingDisks := hfloating
        master := hmaster
        datacenter := hdatacenter
        removal := fun hsds => (hpassed.removal_iff hsds).mp (hremoval hsds)
        hosts := hhosts }
  · intro hmasked htrue
    obtain ⟨spmHost, first, second, hpassed⟩ := result_eq_ok_true_iff.mp htrue
    have hrest := hmasked hpassed.everyStepEnds hpassed.decidingStepsSucceed
    refine ⟨hpassed.avoids_failed_iff.mpr ?_, fun hsds => ?_⟩
    · exact ⟨hrest.vms, ⟨hrest.floatingDisks, hrest.master⟩, hrest.datacenter, hrest.hosts⟩
    · exact (hpassed.removal_iff hsds).mpr (hrest.removal hsds)

/-! ### The hosted engine -/

variable {cluster : Cluster} {name : Text}

theorem holdsHostedEngine_iff : holdsHostedEngine dc args cluster = true ↔
    ∃ vm, args.hostedEngineVm = some vm ∧ vm ∈ clVmsNames dc cluster := by
  unfold holdsHostedEngine
  cases args.hostedEngineVm with
  | none =>
    refine iff_of_false nofun ?_
    rintro ⟨vm, h, -⟩
    exact nomatch h
  | some vm =>
    constructor
    · exact fun h => ⟨vm, rfl, List.contains_iff_mem.mp h⟩
    · rintro ⟨other, h, hmem⟩
      obtain rfl := Option.some.inj h
      exact List.contains_iff_mem.mpr hmem

theorem mem_clVmsNames_iff :
    name ∈ clVmsNames dc cluster ↔ ∃ vm ∈ dc.vms, vm.clusterId = cluster.id ∧ vm.name = name := by
  unfold clVmsNames
  simp only [List.mem_map, List.mem_filter, beq_iff_eq, and_assoc]

/-- The VM of the hosted engine is in one cluster only. -/
theorem holdsHostedEngine_unique {other : Cluster} (hmem : cluster ∈ connectedClusters dc)
    (hother : other ∈ connectedClusters dc) (hholds : holdsHostedEngine dc args cluster = true)
    (hotherHolds : holdsHostedEngine dc args other = true) : cluster = other := by
  obtain ⟨name, hname, hin⟩ := holdsHostedEngine_iff.mp hholds
  obtain ⟨otherName, hotherName, hotherIn⟩ := holdsHostedEngine_iff.mp hotherHolds
  obtain rfl := Option.some.inj (hname.symm.trans hotherName)
  obtain ⟨vm, hvm, hid, rfl⟩ := mem_clVmsNames_iff.mp hin
  obtain ⟨otherVm, hotherVm, hotherId, hsame⟩ := mem_clVmsNames_iff.mp hotherIn
  obtain rfl := List.inj_on_of_nodup_map dc.vmNames_nodup hotherVm hvm hsame
  exact List.inj_on_of_nodup_map dc.clusterIds_nodup (List.mem_filter.mp hmem).1
    (List.mem_filter.mp hother).1 (hid.symm.trans hotherId)

/-- The name that is remembered is that of the last cluster with the hosted engine. -/
theorem hostedClName_foldl (clusters : List Cluster) (collected : Collected) :
    (clusters.foldl (Collected.add dc args) collected).hostedClName = collected.hostedClName ∧
        (∀ cluster ∈ clusters, holdsHostedEngine dc args cluster = false) ∨
      ∃ cluster ∈ clusters, holdsHostedEngine dc args cluster = true ∧
        (clusters.foldl (Collected.add dc args) collected).hostedClName = some cluster.name := by
  induction clusters generalizing collected with
  | nil => exact .inl ⟨rfl, nofun⟩
  | cons cluster clusters ih =>
    rw [List.foldl_cons]
    rcases ih (collected.add dc args cluster) with ⟨hname, hnone⟩ | ⟨other, hother, hholds, hname⟩
    · cases hcluster : holdsHostedEngine dc args cluster with
      | false =>
        refine .inl ⟨hname.trans ?_, List.forall_mem_cons.mpr ⟨hcluster, hnone⟩⟩
        exact if_neg (Bool.eq_false_iff.mp hcluster)
      | true =>
        exact .inr ⟨cluster, List.mem_cons_self, hcluster, hname.trans (if_pos hcluster)⟩
    · exact .inr ⟨other, List.mem_cons_of_mem cluster hother, hholds, hname⟩

theorem hostedClName_of_present (hmem : cluster ∈ connectedClusters dc)
    (hholds : holdsHostedEngine dc args cluster = true) :
    (collectedAll dc args).hostedClName = some cluster.name := by
  rcases @hostedClName_foldl dc args (connectedClusters dc) ⟨[], none⟩ with
    ⟨-, hnone⟩ | ⟨other, hother, hotherHolds, hname⟩
  · exact nomatch (hnone cluster hmem).symm.trans hholds
  · rw [holdsHostedEngine_unique hmem hother hholds hotherHolds]
    exact hname

/-- The VM of the hosted engine is not among those that are removed. -/
theorem not_mem_vmsToRemove (hvm : args.hostedEngineVm = some name) (cluster : Cluster) :
    name ∉ vmsToRemove dc args cluster := by
  have hnodup : (clVmsNames dc cluster).Nodup :=
    dc.vmNames_nodup.sublist (List.filter_sublist.map _)
  unfold vmsToRemove
  rw [hvm]
  simp only []
  by_cases hmem : name ∈ clVmsNames dc cluster
  · rw [if_pos (List.contains_iff_mem.mpr hmem)]
    exact hnodup.not_mem_erase
  · rw [if_neg (fun h => hmem (List.contains_iff_mem.mp h))]
    exact hmem

theorem protected_removeStorageDomain (h : Protected world dc args (.removeStorageDomain name)) :
    args.hostedEngineSd = some name ∨
      ∃ sd ∈ dc.storageDomains, sd.master = true ∧ sd.name = name := by
  cases h with
  | domain hdomain => exact .inl hdomain
  | master hmem hmaster => exact .inr ⟨_, hmem, hmaster, rfl⟩

theorem protected_removeCluster (h : Protected world dc args (.removeCluster name)) :
    ∃ cluster ∈ connectedClusters dc, holdsHostedEngine dc args cluster = true ∧
      cluster.name = name := by
  cases h with
  | cluster hmem hholds => exact ⟨_, hmem, hholds, rfl⟩

/-- What is kept to be removed does not belong to the hosted engine. -/
theorem sparesHostedEngine : SparesHostedEngine world dc args := by
  rintro ⟨cluster, hmem, hholds⟩
  have hname := hostedClName_of_present hmem hholds
  have hhosted : hosted dc args = true := by
    rw [hosted, hname]
    rfl
  have hkept : kept world dc args = targets world dc args (collectedAll dc args) := rfl
  unfold targets at hkept
  rw [hname] at hkept
  have hasked : ∀ request, ¬ Protected world dc args request →
      ¬ AskedProtected world dc args (.asked request) :=
    fun request hspared hprotected => hspared (askedProtected_iff.mp hprotected)
  refine Harmless.avoids
    { vms := fun other => hasked _ ?_
      templates := fun _ => hasked _ nofun
      disks := fun _ => hasked _ nofun
      detached := fun _ => hasked _ nofun
      deactivated := fun _ => hasked _ nofun
      datacenter := fun hnot => nomatch hhosted.symm.trans hnot
      domains := fun sd hsd => hasked _ ?_
      hosts := fun host hhost => hasked _ ?_
      clusters := fun other hother => hasked _ ?_
      ended := fun _ _ _ => not_askedProtected_ended
      removal := fun _ _ _ => not_askedProtected_ended }
  · intro hprotected
    cases hprotected with
    | vm hvm hin => exact not_mem_vmsToRemove hvm other hin
  · intro hprotected
    rw [hkept] at hsd
    obtain ⟨hin, hfilter⟩ := List.mem_filter.mp hsd
    obtain ⟨hdomain, hmaster⟩ := Bool.and_eq_true_iff.mp hfilter
    rcases protected_removeStorageDomain hprotected with hsame | ⟨master, hmasterIn, his, hsame⟩
    · exact bne_iff_ne.mp hdomain hsame.symm
    · obtain rfl := List.inj_on_of_nodup_map dc.domainNames_nodup hmasterIn hin hsame
      exact absurd hmaster (by rw [his]; exact nofun)
  · intro hprotected
    rw [hkept] at hhost
    cases hprotected with
    | host hsame => exact bne_iff_ne.mp (List.mem_filter.mp hhost).2 hsame.symm
  · intro hprotected
    rw [hkept] at hother
    obtain ⟨protectedCluster, hin, hprotectedHolds, hsame⟩ := protected_removeCluster hprotected
    rw [holdsHostedEngine_unique hin hmem hprotectedHolds hholds] at hsame
    exact bne_iff_ne.mp (List.mem_filter.mp hother).2 hsame.symm

end

/-- `clean_datacenter` reports every failure and spares a hosted engine exactly if no failure is
masked. -/
theorem cleanDatacenter_reports_iff (world : World) (dc : DataCenter) (args : CleanArgs) :
    (ReportsFailures world dc args ∧ SparesHostedEngine world dc args) ↔
      NothingMasked world dc args :=
  (and_iff_left sparesHostedEngine).trans reportsFailures_iff

/-- A data center with one cluster and one host. -/
def oneHost : DataCenter where
  id := "dc".toList
  clusters := [{ id := "cl".toList, name := "cluster_1".toList, dataCenterId := some "dc".toList }]
  vms := []
  hosts := [{ name := "host_1".toList, clusterId := "cl".toList }]
  storageDomains := []
  clusterIds_nodup := List.nodup_singleton _
  vmNames_nodup := List.nodup_nil
  domainNames_nodup := List.nodup_nil

/-- Everything succeeds but the removal of hosts. -/
def hostsStay : World where
  safelyRemoveVms := fun _ => .ok true
  removeTemplatesConnectedCluster := fun _ => .ok ()
  vmHost := fun _ => none
  selectHostAsSpm := fun _ => .ok true
  spmHost := .ok none
  storageDomainDisks := fun _ => .ok []
  deleteDisk := fun _ => .ok true
  waitForDisksGone := fun _ => .ok true
  waitForTasks := fun _ => .ok ()
  detachAndDeactivateDomain := fun _ => .ok true
  domainsAtDeactivation := []
  masterActive := fun _ => .ok true
  deactivateStorageDomain := fun _ => .ok true
  removeDatacenter := .ok true
  domainFound := fun _ => .ok true
  removeStorageDomain := fun _ _ _ => .ok true
  removeHost := fun _ => .ok false
  removeCluster := fun _ => .ok true

/-- No hosted engine. -/
def plainArgs : CleanArgs where
  engine := false
  formatIsoStorage := "false".toList
  formatExpStorage := "false".toList
  hostedEngineVm := none
  hostedEngineSd := none

/-- The host is not removed, and `True` is returned. -/
theorem failed_host_masked :
    (cleanDatacenter hostsStay oneHost plainArgs).result = .ok true ∧
      Entry.ended (.host "host_1".toList) false ∈
        (cleanDatacenter hostsStay oneHost plainArgs).entries := by
  refine ⟨rfl, ?_⟩
  decide

end OvirtArt.TestsLib.CleanDatacenter
