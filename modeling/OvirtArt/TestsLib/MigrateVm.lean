import OvirtArt.CoreApi.FindEntity
import OvirtArt.CoreApi.WaitForStatus
import OvirtArt.Foundation.Collecting

set_option autoImplicit false

/-!
# `migrateVm` of `low_level/vms.py`

Once the VM has the status that is waited for, its host is compared with the host from before the
migration, and its cluster with that of the VM.  The destination that was asked for is not compared
with anything.

The engine is a history: what it says of the VM at each request.  The texts of the messages are
left out.
-/

namespace OvirtArt.TestsLib.MigrateVm

open OvirtArt.CoreApi OvirtArt.Foundation
open OvirtArt.CoreApi.RestUtil (Report waitOn)

/-- What is read of a host. -/
structure Host where
  id : Text
  name : Text
  cluster : Text
  deriving DecidableEq, Repr

/-- What is read of the VM before it migrates. -/
structure Vm where
  /-- The id of its host. -/
  host : Option Text
  /-- The id of its cluster. -/
  cluster : Text
  deriving DecidableEq, Repr

/-- What is sent with the action. -/
structure ActionParams where
  /-- The id of the destination. -/
  host : Option Text
  force : Option Bool
  deriving DecidableEq, Repr

/-- What the function raises. -/
inductive MigrationException where
  | find (fault : FindFault)
  /-- What the client raises while it waits. -/
  | client (e : PyException)
  /-- An attribute of `None` is asked for. -/
  | attributeError
  deriving DecidableEq, Repr

/-- The hosts of the engine, and what it says of the VM from the request on. -/
structure Engine where
  hosts : List Host
  ids_nodup : (hosts.map Host.id).Nodup
  names_nodup : (hosts.map Host.name).Nodup
  /-- Whether the action ends as expected. -/
  syncAction : ActionParams → Bool → Bool
  /-- What the polls show. -/
  reports : Nat → Report
  /-- The id of the host of the VM after so many polls. -/
  hostAfter : Nat → Option Text

/-- The arguments of `migrateVm`. -/
structure MigrateArgs where
  positive : Bool
  host : Option Text
  wait : Bool
  force : Bool
  timeout : Nat
  waitForStatus : Text

/-! ## The source -/

section

variable (engine : Engine) (vmObj : Vm) (args : MigrateArgs)

/-- `HOST_API.find`. -/
def findHost (attr : Host → Text) (value : Text) : Except MigrationException Host :=
  (findEntity attr value engine.hosts).mapError .find

/-- `host`, if it is a true value. -/
def givenHost : Option Text → Option Text
  | some (c :: name) => some (c :: name)
  | _ => none

/-- `action_params`. -/
def actionParams : Except MigrationException ActionParams :=
  let force := if args.force then some true else none
  match givenHost args.host with
  | none => .ok { host := none, force := force }
  | some host => do
      let destHostObj ← findHost engine Host.name host
      return { host := some destHostObj.id, force := force }

/-- The checks of the host that the VM is on. -/
def checkHost (source : Text) : Option Text → Except MigrationException Bool
  | none => .error .attributeError
  | some realDestHostId => do
      let realDestHostObj ← findHost engine Host.id realDestHostId
      return decide (vmObj.cluster = realDestHostObj.cluster) && decide (source ≠ realDestHostId)

/-- What follows the action; `VM_API.waitForElemStatus` makes of the polls what `waitOn` does. -/
def waitForMigration (source : Text) : Except MigrationException Bool :=
  if !args.wait || !args.positive then .ok true
  else
    match waitOn args.waitForStatus args.timeout engine.reports with
    | (.error e, _) => .error (.client e)
    | (.ok false, _) => .ok false
    | (.ok true, polls) => checkHost engine vmObj source (engine.hostAfter polls)

/-- `migrateVm`, of the VM that is found. -/
def migrateVm : Except MigrationException Bool :=
  match vmObj.host with
  | none => .ok false
  | some source => do
      let params ← actionParams engine args
      if engine.syncAction params args.positive then
        waitForMigration engine vmObj args source
      else return false

end

/-! ## What is asked of it -/

/-- A VM that migrates: it has a host, the request is accepted, and the destination, if one is
given, is known. -/
structure Migration extends Engine where
  source : Text
  cluster : Text
  destination : Option Text
  accepted : ∀ params, syncAction params true = true
  known : ∀ name, givenHost destination = some name → ∃ host ∈ hosts, host.name = name

namespace Migration

variable (migration : Migration) (status : Text) (timeout : Nat)

/-- The VM. -/
def vm : Vm where
  host := some migration.source
  cluster := migration.cluster

/-- A positive call that waits. -/
def args (force : Bool) : MigrateArgs where
  positive := true
  host := migration.destination
  wait := true
  force := force
  timeout := timeout
  waitForStatus := status

/-- The host is another one than before, in the cluster of the VM. -/
def Elsewhere (host : Host) : Prop :=
  host.cluster = migration.cluster ∧ host.id ≠ migration.source

/-- The host is the destination, if one is given. -/
def IsDestination (host : Host) : Prop :=
  ∀ name, givenHost migration.destination = some name → host.name = name

/-- This is the first poll that shows the status that is waited for, and it is in time. -/
def FirstRequested (i : Nat) : Prop :=
  i ≤ timeout / defSleep ∧ (migration.reports i).Requested status ∧
    ∀ j < i, ¬ (migration.reports j).Requested status

/-- The VM gets the status in time, and is then on another host of its cluster, which is the
destination if one was given. -/
def Migrated : Prop :=
  ∃ i host, migration.FirstRequested status timeout i ∧ host ∈ migration.hosts ∧
    migration.hostAfter (i + 1) = some host.id ∧ migration.Elsewhere host ∧
    migration.IsDestination host

/-- `True` if the VM has migrated, and `False` otherwise. -/
def Tells (result : Except MigrationException Bool) : Prop :=
  (result = .ok true ↔ migration.Migrated status timeout) ∧
    (¬ migration.Migrated status timeout → result = .ok false)

/-- The wait comes to this poll. -/
def Reached (i : Nat) : Prop :=
  i ≤ timeout / defSleep ∧ ∀ j < i, (migration.reports j).Waits status false

/-- The polls that the wait comes to can be read.  At one that shows the status, the VM is on a host
that is known, and if this is another one of the cluster, it is the destination.  After one that is
final, it does not migrate any more. -/
structure Straight : Prop where
  readable : ∀ i, migration.Reached status timeout i → ¬ (migration.reports i).Raising
  arrives : ∀ i, migration.Reached status timeout i → (migration.reports i).Requested status →
    ∃ host ∈ migration.hosts, migration.hostAfter (i + 1) = some host.id ∧
      (migration.Elsewhere host → migration.IsDestination host)
  final : ∀ i, migration.Reached status timeout i → (migration.reports i).Final false →
    ¬ (migration.reports i).Requested status → ¬ migration.Migrated status timeout

end Migration

/-! ## The wait -/

section

variable {migration : Migration} {status : Text} {timeout : Nat} {i : Nat}

/-- The verdicts on the polls. -/
theorem waitsUntil_iff :
    WaitsUntil (fun i => (migration.reports i).verdict status false) i ↔
      ∀ j < i, (migration.reports j).Waits status false := by
  unfold WaitsUntil
  simp only [Report.verdict_eq_wait_iff]

theorem reached_iff : migration.Reached status timeout i ↔
    i < timeout / defSleep + 1 ∧
      WaitsUntil (fun i => (migration.reports i).verdict status false) i := by
  rw [waitsUntil_iff, Nat.lt_succ_iff]
  rfl

/-- A poll that is reached and shows the status is the first one that does. -/
theorem Migration.Reached.firstRequested (h : migration.Reached status timeout i)
    (hrequested : (migration.reports i).Requested status) :
    migration.FirstRequested status timeout i :=
  ⟨h.1, hrequested, fun j hj => (h.2 j hj).1⟩

theorem firstRequested_unique {j : Nat} (hi : migration.FirstRequested status timeout i)
    (hj : migration.FirstRequested status timeout j) : i = j := by
  obtain ⟨_, hi, hbefore⟩ := hi
  obtain ⟨_, hj, hbefore'⟩ := hj
  apply Nat.le_antisymm
  · exact Nat.le_of_not_lt fun hlt => hbefore j hlt hj
  · exact Nat.le_of_not_lt fun hlt => hbefore' i hlt hi

/-- Where the status is shown, the migration is decided by the host after it. -/
theorem migrated_iff_of_requested (h : migration.Reached status timeout i)
    (hrequested : (migration.reports i).Requested status) :
    migration.Migrated status timeout ↔
      ∃ host ∈ migration.hosts, migration.hostAfter (i + 1) = some host.id ∧
        migration.Elsewhere host ∧ migration.IsDestination host := by
  constructor
  · intro ⟨j, host, hj, hhost⟩
    obtain rfl := firstRequested_unique (h.firstRequested hrequested) hj
    exact ⟨host, hhost⟩
  · intro ⟨host, hhost⟩
    exact ⟨i, host, h.firstRequested hrequested, hhost⟩

/-! ## The verdict -/

variable {force : Bool}

theorem actionParams_returns : ∃ params,
    actionParams migration.toEngine (migration.args status timeout force) = .ok params := by
  unfold actionParams Migration.args
  cases hgiven : givenHost migration.destination with
  | none => exact ⟨_, rfl⟩
  | some name =>
    obtain ⟨host, hmem, rfl⟩ := migration.known name hgiven
    refine ⟨{ host := some host.id, force := if force then some true else none }, ?_⟩
    unfold findHost
    dsimp only
    rw [findEntity_of_mem migration.names_nodup hmem]
    rfl

theorem migrateVm_eq :
    migrateVm migration.toEngine migration.vm (migration.args status timeout force) =
      match waitOn status timeout migration.reports with
      | (.error e, _) => .error (.client e)
      | (.ok false, _) => .ok false
      | (.ok true, polls) => checkHost migration.toEngine migration.vm migration.source
          (migration.hostAfter polls) := by
  obtain ⟨params, hparams⟩ := @actionParams_returns migration status timeout force
  unfold migrateVm Migration.vm
  dsimp only
  rw [hparams]
  change (if migration.syncAction params true then _ else _) = _
  rw [if_pos (migration.accepted params)]
  rfl

theorem migrateVm_of_requested (h : migration.Reached status timeout i)
    (hrequested : (migration.reports i).Requested status) :
    migrateVm migration.toEngine migration.vm (migration.args status timeout force) =
      checkHost migration.toEngine migration.vm migration.source
        (migration.hostAfter (i + 1)) := by
  obtain ⟨hi, hwaits⟩ := reached_iff.mp h
  rw [migrateVm_eq]
  unfold waitOn
  rw [poll_of_stops hi hwaits (Report.verdict_eq_true_iff.mpr hrequested)]

theorem migrateVm_of_raising (h : migration.Reached status timeout i)
    (hraising : (migration.reports i).Raising) : ∃ e,
    migrateVm migration.toEngine migration.vm (migration.args status timeout force) =
      .error (.client e) := by
  obtain ⟨hi, hwaits⟩ := reached_iff.mp h
  obtain ⟨e, he⟩ := Report.verdict_eq_raise_iff.mpr hraising
  refine ⟨e, ?_⟩
  rw [migrateVm_eq]
  unfold waitOn
  rw [poll_of_raises hi hwaits he]

theorem migrateVm_of_final (h : migration.Reached status timeout i)
    (hfinal : (migration.reports i).Final false)
    (hrequested : ¬ (migration.reports i).Requested status)
    (hraising : ¬ (migration.reports i).Raising) :
    migrateVm migration.toEngine migration.vm (migration.args status timeout force) =
      .ok false := by
  obtain ⟨hi, hwaits⟩ := reached_iff.mp h
  have hstop : (migration.reports i).verdict status false = .stop false := by
    cases hverdict : (migration.reports i).verdict status false with
    | wait => exact absurd hfinal (Report.verdict_eq_wait_iff.mp hverdict).2.1
    | raise e => exact absurd (Report.verdict_eq_raise_iff.mp ⟨e, hverdict⟩) hraising
    | stop found =>
      cases found with
      | true => exact absurd (Report.verdict_eq_true_iff.mp hverdict) hrequested
      | false => rfl
  rw [migrateVm_eq]
  unfold waitOn
  rw [poll_of_stops hi hwaits hstop]

theorem migrateVm_of_waits
    (h : ∀ j ≤ timeout / defSleep, (migration.reports j).Waits status false) :
    migrateVm migration.toEngine migration.vm (migration.args status timeout force) =
      .ok false := by
  have hwaits : WaitsUntil (fun i => (migration.reports i).verdict status false)
      (timeout / defSleep + 1) :=
    waitsUntil_iff.mpr fun j hj => h j (Nat.le_of_lt_succ hj)
  rw [migrateVm_eq]
  unfold waitOn
  rw [poll_of_waitsUntil hwaits]

/-- All polls in time are waited on, or one of them is the first that is not. -/
theorem waits_or_reached (migration : Migration) (status : Text) (timeout : Nat) :
    (∀ j ≤ timeout / defSleep, (migration.reports j).Waits status false) ∨
      ∃ i, migration.Reached status timeout i ∧ ¬ (migration.reports i).Waits status false := by
  cases waitsUntil_or_exists (fun i => (migration.reports i).verdict status false)
    (timeout / defSleep + 1) with
  | inl hwaits => exact Or.inl fun j hj => waitsUntil_iff.mp hwaits j (Nat.lt_succ_of_le hj)
  | inr h =>
    obtain ⟨i, hi, hwaits, hverdict⟩ := h
    refine Or.inr ⟨i, reached_iff.mpr ⟨hi, hwaits⟩, fun hwait => ?_⟩
    exact hverdict (Report.verdict_eq_wait_iff.mpr hwait)

variable {host : Host}

/-- The host that is found is compared with the source, and its cluster with that of the VM. -/
theorem checkHost_of_mem (hmem : host ∈ migration.hosts) :
    checkHost migration.toEngine migration.vm migration.source (some host.id) =
      .ok (decide (migration.cluster = host.cluster) && decide (migration.source ≠ host.id)) := by
  unfold checkHost findHost
  dsimp only
  rw [findEntity_of_mem migration.ids_nodup hmem]
  rfl

theorem checkHost_eq_true_iff (hmem : host ∈ migration.hosts) :
    checkHost migration.toEngine migration.vm migration.source (some host.id) = .ok true ↔
      migration.Elsewhere host := by
  rw [checkHost_of_mem hmem, Except.ok.injEq, Bool.and_eq_true, decide_eq_true_iff,
    decide_eq_true_iff]
  unfold Migration.Elsewhere
  rw [eq_comm, ne_comm]

/-- A check that comes to something has found the host. -/
theorem exists_host_of_checkHost {hostId : Option Text} {answer : Bool}
    (h : checkHost migration.toEngine migration.vm migration.source hostId = .ok answer) :
    ∃ host ∈ migration.hosts, hostId = some host.id := by
  cases hostId with
  | none => exact nomatch h
  | some realDestHostId =>
    obtain ⟨host, hfind, -⟩ := bind_eq_ok_iff.mp h
    unfold findHost findEntity at hfind
    cases hfilter : migration.hosts.filter (Host.id · == realDestHostId) with
    | nil =>
      rw [hfilter] at hfind
      exact nomatch hfind
    | cons first rest =>
      have hfirst : first ∈ migration.hosts.filter (Host.id · == realDestHostId) :=
        hfilter ▸ List.mem_cons_self
      obtain ⟨hmem, hid⟩ := List.mem_filter.mp hfirst
      exact ⟨first, hmem, congrArg some (beq_iff_eq.mp hid).symm⟩

theorem host_unique {other : Host} (h : host ∈ migration.hosts) (hother : other ∈ migration.hosts)
    (hid : some host.id = some other.id) : host = other :=
  List.inj_on_of_nodup_map migration.ids_nodup h hother (Option.some.inj hid)

/-- Where the status is shown, the verdict is right exactly if the host is known and is the
destination if it is another one of the cluster. -/
theorem tells_checkHost_iff (h : migration.Reached status timeout i)
    (hrequested : (migration.reports i).Requested status) :
    migration.Tells status timeout (checkHost migration.toEngine migration.vm migration.source
        (migration.hostAfter (i + 1))) ↔
      ∃ host ∈ migration.hosts, migration.hostAfter (i + 1) = some host.id ∧
        (migration.Elsewhere host → migration.IsDestination host) := by
  have hmigrated := migrated_iff_of_requested h hrequested
  unfold Migration.Tells
  constructor
  · intro ⟨htrue, hfalse⟩
    have hanswer : ∃ answer, checkHost migration.toEngine migration.vm migration.source
        (migration.hostAfter (i + 1)) = .ok answer := by
      by_cases hyes : migration.Migrated status timeout
      · exact ⟨true, htrue.mpr hyes⟩
      · exact ⟨false, hfalse hyes⟩
    obtain ⟨answer, hanswer⟩ := hanswer
    obtain ⟨host, hmem, hhost⟩ := exists_host_of_checkHost hanswer
    refine ⟨host, hmem, hhost, fun helsewhere => ?_⟩
    rw [hhost, checkHost_eq_true_iff hmem] at htrue
    obtain ⟨other, hother, hafter, -, hdestination⟩ := hmigrated.mp (htrue.mp helsewhere)
    rwa [host_unique hmem hother (hhost.symm.trans hafter)]
  · intro ⟨host, hmem, hhost, hdestination⟩
    have hiff : migration.Migrated status timeout ↔ migration.Elsewhere host := by
      rw [hmigrated]
      constructor
      · intro ⟨other, hother, hafter, helsewhere, _⟩
        rwa [host_unique hmem hother (hhost.symm.trans hafter)]
      · intro helsewhere
        exact ⟨host, hmem, hhost, helsewhere, hdestination helsewhere⟩
    rw [hhost, hiff, ← checkHost_eq_true_iff hmem]
    refine ⟨Iff.rfl, fun hnot => ?_⟩
    rw [checkHost_of_mem hmem] at hnot ⊢
    exact congrArg Except.ok (Bool.eq_false_iff.mpr fun htrue => hnot (congrArg Except.ok htrue))

end

/-- The verdict on a migration is right exactly if the polls can be read, the VM is then on a known
host and on no third one, and does not migrate after a status that is final. -/
theorem migration_verdict_iff (migration : Migration) (status : Text) (timeout : Nat)
    (force : Bool) :
    migration.Tells status timeout
        (migrateVm migration.toEngine migration.vm (migration.args status timeout force)) ↔
      migration.Straight status timeout := by
  constructor
  · intro h
    refine ⟨?_, ?_, ?_⟩
    · intro i hreached hraising
      obtain ⟨e, he⟩ := @migrateVm_of_raising migration status timeout i force hreached hraising
      unfold Migration.Tells at h
      rw [he] at h
      obtain ⟨htrue, hfalse⟩ := h
      by_cases hyes : migration.Migrated status timeout
      · exact nomatch htrue.mpr hyes
      · exact nomatch hfalse hyes
    · intro i hreached hrequested
      rw [migrateVm_of_requested hreached hrequested] at h
      exact (tells_checkHost_iff hreached hrequested).mp h
    · intro i hreached hfinal hrequested hmigrated
      have htrue := h.1.mpr hmigrated
      by_cases hraising : (migration.reports i).Raising
      · obtain ⟨e, he⟩ := @migrateVm_of_raising migration status timeout i force hreached hraising
        exact nomatch he.symm.trans htrue
      · exact nomatch (migrateVm_of_final hreached hfinal hrequested hraising).symm.trans htrue
  · intro h
    cases waits_or_reached migration status timeout with
    | inl hwaits =>
      rw [migrateVm_of_waits hwaits]
      refine ⟨iff_of_false nofun ?_, fun _ => rfl⟩
      intro ⟨i, _, ⟨hi, hrequested, _⟩, _⟩
      exact (hwaits i hi).1 hrequested
    | inr hfirst =>
      obtain ⟨i, hreached, hnot⟩ := hfirst
      have hraising := h.readable i hreached
      by_cases hrequested : (migration.reports i).Requested status
      · rw [migrateVm_of_requested hreached hrequested]
        exact (tells_checkHost_iff hreached hrequested).mpr (h.arrives i hreached hrequested)
      · have hfinal : (migration.reports i).Final false := by
          by_contra hfinal
          exact hnot (RestUtil.Report.waits_of_not_raising hraising hrequested hfinal)
        rw [migrateVm_of_final hreached hfinal hrequested hraising]
        have hmigrated := h.final i hreached hfinal hrequested
        exact ⟨iff_of_false nofun hmigrated, fun _ => rfl⟩

/-! ## A third host -/

/-- Three hosts of one cluster. -/
def threeHosts : List Host :=
  [{ id := "h1".toList, name := "host_1".toList, cluster := "c1".toList },
    { id := "h2".toList, name := "host_2".toList, cluster := "c1".toList },
    { id := "h3".toList, name := "host_3".toList, cluster := "c1".toList }]

/-- A VM that is to migrate from the first to the second host, and ends on the third one. -/
def toThirdHost : Migration where
  hosts := threeHosts
  ids_nodup := by decide
  names_nodup := by decide
  syncAction := fun _ positive => positive
  reports := fun _ => .status "up".toList
  hostAfter := fun _ => some "h3".toList
  source := "h1".toList
  cluster := "c1".toList
  destination := some "host_2".toList
  accepted := fun _ => rfl
  known := by
    intro name hname
    obtain rfl := Option.some.inj hname
    exact ⟨_, List.mem_cons_of_mem _ List.mem_cons_self, rfl⟩

/-- The function returns `True` for it. -/
theorem third_host_counts_as_destination :
    migrateVm toThirdHost.toEngine toThirdHost.vm
        (toThirdHost.args "up".toList 300 false) = .ok true ∧
      ¬ toThirdHost.Tells "up".toList 300
        (migrateVm toThirdHost.toEngine toThirdHost.vm
          (toThirdHost.args "up".toList 300 false)) := by
  have htrue : migrateVm toThirdHost.toEngine toThirdHost.vm
      (toThirdHost.args "up".toList 300 false) = .ok true := by decide
  refine ⟨htrue, fun h => ?_⟩
  obtain ⟨_, host, _, hmem, hafter, _, hdestination⟩ := h.1.mp htrue
  have hname := hdestination "host_2".toList rfl
  have hid := Option.some.inj hafter
  change host ∈ threeHosts at hmem
  unfold threeHosts at hmem
  simp only [List.mem_cons, List.not_mem_nil, or_false] at hmem
  obtain rfl | rfl | rfl := hmem
  · exact absurd hid (by decide)
  · exact absurd hid (by decide)
  · exact absurd hname (by decide)

end OvirtArt.TestsLib.MigrateVm
