import OvirtArt.CoreApi.SampledLoops
import OvirtArt.TestsLib.HostStates

set_option autoImplicit false

/-!
# Waiting for the status of disks

`wait_for_disks_status` of `low_level/disks.py` samples all disks of the system and looks for named
ones that are in another status.  `waitForDisksStat` of `low_level/vms.py` waits for the disks of a
VM one after the other.

Of a disk its name, id and status are modelled.  The two functions have nothing in common but
their purpose, and each half of the result is exact.
-/

namespace OvirtArt.TestsLib.DisksStatus

open OvirtArt.CoreApi OvirtArt.Foundation
open OvirtArt.TestsLib.HostStates (TextOrList listNames)

/-- What is read of a disk. -/
structure Disk where
  name : Text
  id : Text
  status : Text
  deriving DecidableEq, Repr

/-! ## `wait_for_disks_status` -/

/-- `disk_to_poll`, unless the key is another one. -/
def diskToPoll (key : Text) (diskObj : Disk) : Option Text :=
  if key = "name".toList then some diskObj.name
  else if key = "id".toList then some diskObj.id
  else none

/-- The loop over a sample, which is left at the first disk if the key is another one. -/
def disksInWrongStatus (disksList : List Text) (key status : Text) : List Disk → List Disk
  | [] => []
  | diskObj :: sample =>
    match diskToPoll key diskObj with
    | none => []
    | some name =>
      if disksList.contains name && diskObj.status != status then
        diskObj :: disksInWrongStatus disksList key status sample
      else disksInWrongStatus disksList key status sample

/-- `if not disks_in_wrong_status: return True`. -/
def statusVerdict (disksList : List Text) (key status : Text) (sample : List Disk) : Option Bool :=
  if (disksInWrongStatus disksList key status sample).isEmpty then some true else none

/-- `wait_for_disks_status`, which begins at `clock`; the sampler calls `DISKS_API.get`, and
`APITimeout` is caught. -/
def waitForDisksStatus (clock : ℚ≥0) (sampler : TimeoutingSampler (List Disk)) (disks : TextOrList)
    (key status : Text) : Bool :=
  match sampler.forLoop clock (stateless (statusVerdict (listNames disks) key status)) ⟨⟩ with
  | some result => result
  | none => false

/-- The keys that disks are named by. -/
inductive Key where
  | name
  | id

/-- The key as the caller writes it. -/
def Key.text : Key → Text
  | .name => "name".toList
  | .id => "id".toList

/-- What the disk is called under the key. -/
def Key.of : Key → Disk → Text
  | .name, diskObj => diskObj.name
  | .id, diskObj => diskObj.id

section

variable (disks : TextOrList) (key : Key) (status : Text) (inventory : List Disk)

/-- No named disk of the inventory has another status. -/
def NoneOther : Prop :=
  ∀ diskObj ∈ inventory, key.of diskObj ∈ listNames disks → diskObj.status = status

/-- Each named disk is in the inventory. -/
def AllThere : Prop := ∀ name ∈ listNames disks, ∃ diskObj ∈ inventory, key.of diskObj = name

end

section

variable {disksList : List Text} {disks : TextOrList} {key : Key} {status : Text}
  {sample : List Disk} {sampler : TimeoutingSampler (List Disk)} {clock : ℚ≥0}

theorem diskToPoll_text (diskObj : Disk) :
    diskToPoll key.text diskObj = some (key.of diskObj) := by
  cases key with
  | name => rfl
  | id => rfl

theorem disksInWrongStatus_eq_nil_iff :
    disksInWrongStatus disksList key.text status sample = [] ↔
      ∀ diskObj ∈ sample, key.of diskObj ∈ disksList → diskObj.status = status := by
  induction sample with
  | nil => exact iff_of_true rfl nofun
  | cons diskObj sample ih =>
    rw [disksInWrongStatus, diskToPoll_text, List.forall_mem_cons]
    simp only []
    by_cases hwrong : key.of diskObj ∈ disksList ∧ diskObj.status ≠ status
    · rw [if_pos (by simpa using hwrong)]
      exact iff_of_false nofun fun h => hwrong.2 (h.1 hwrong.1)
    · rw [if_neg (by simpa using hwrong), ih]
      exact (and_iff_right fun hin => not_not.mp fun hne => hwrong ⟨hin, hne⟩).symm

theorem statusVerdict_eq_some_iff :
    statusVerdict (listNames disks) key.text status sample = some true ↔
      NoneOther disks key status sample := by
  unfold statusVerdict NoneOther
  rw [← disksInWrongStatus_eq_nil_iff, ← List.isEmpty_iff]
  cases (disksInWrongStatus (listNames disks) key.text status sample).isEmpty with
  | true => exact iff_of_true rfl rfl
  | false => exact iff_of_false nofun nofun

/-- The function returns `True` exactly if some inventory in time has no named disk in another
status. -/
theorem waitForDisksStatus_eq_true_iff :
    waitForDisksStatus clock sampler disks key.text status = true ↔
      ∃ n, sampler.InTime clock n ∧ NoneOther disks key status (sampler.resultAt n) := by
  have hconstant : ∀ inventory other,
      statusVerdict (listNames disks) key.text status inventory = some other → other = true := by
    intro inventory other h
    unfold statusVerdict at h
    revert h
    split
    · exact fun h => (Option.some.inj h).symm
    · exact nofun
  simp only [← statusVerdict_eq_some_iff]
  rw [← TimeoutingSampler.forLoop_constant_eq_some_iff hconstant]
  unfold waitForDisksStatus
  cases sampler.forLoop clock (stateless (statusVerdict (listNames disks) key.text status)) ⟨⟩ with
  | none => exact iff_of_false nofun nofun
  | some result => exact Option.some_inj.symm

end

/-! ## `waitForDisksStat` -/

section

variable {ε σ δ : Type}

/-- The loop of `waitForDisksStat`: each wait writes `status` over. -/
def waitEach (wait : δ → EStateM ε σ Bool) : Bool → List δ → EStateM ε σ Bool
  | status, [] => pure status
  | _, disk :: disks => do
      let status ← wait disk
      waitEach wait status disks

/-- `waitForDisksStat`, with the wait for one disk. -/
def waitForDisksStatWith (wait : δ → EStateM ε σ Bool) (disks : List δ) : EStateM ε σ Bool :=
  waitEach wait true disks

/-- If the waits come to these values, `told` returns whether all of them succeeded. -/
def TellsAll (wait : δ → EStateM ε σ Bool) (disks : List δ) (told : EStateM ε σ Bool) : Prop :=
  ∀ s values t, (disks.mapM wait).run s = .ok values t → told.run s = .ok (values.all id) t

/-- The wait for the last disk succeeds only if all do. -/
def LastFails (wait : δ → EStateM ε σ Bool) (disks : List δ) : Prop :=
  ∀ s values t, (disks.mapM wait).run s = .ok values t → values.getLast? = some true →
    values.all id = true

variable {wait : δ → EStateM ε σ Bool} {disks : List δ} {s t : σ} {values : List Bool}

/-- The function returns what the last wait came to. -/
theorem run_waitEach (status : Bool) (h : (disks.mapM wait).run s = .ok values t) :
    (waitEach wait status disks).run s = .ok (values.getLast?.getD status) t := by
  induction disks generalizing s values status with
  | nil =>
    rw [List.mapM_nil] at h
    cases h
    rfl
  | cons disk disks ih =>
    rw [List.mapM_cons] at h
    obtain ⟨value, u, hfirst, h⟩ := run_bind_eq_ok_iff.mp h
    obtain ⟨others, v, hothers, h⟩ := run_bind_eq_ok_iff.mp h
    cases h
    rw [waitEach, EStateM.run_bind, hfirst]
    simp only []
    rw [ih value hothers]
    cases others with
    | nil => rfl
    | cons other others => rw [List.getLast?_cons_cons, List.getLast?_cons, Option.getD_some,
        Option.getD_some]

theorem tellsAll_iff :
    TellsAll wait disks (waitForDisksStatWith wait disks) ↔ LastFails wait disks := by
  constructor
  · intro h s values t hrun hlast
    have hresult := (run_waitEach true hrun).symm.trans (h s values t hrun)
    rw [hlast, Option.getD_some] at hresult
    cases hall : values.all id with
    | true => rfl
    | false =>
      rw [hall] at hresult
      exact nomatch hresult
  · intro h s values t hrun
    refine (run_waitEach true hrun).trans ?_
    cases hlast : values.getLast? with
    | none => rw [List.getLast?_eq_none_iff.mp hlast]; rfl
    | some last =>
      cases last with
      | true => rw [h s values t hrun hlast, Option.getD_some]
      | false =>
        have hfalse : values.all id = false := by
          rw [List.all_eq_false]
          exact ⟨false, List.mem_of_getLast? hlast, nofun⟩
        rw [hfalse, Option.getD_some]

end

/-- `waitForDisksStat` for the disks that `getVmDisks` returns. -/
def waitForDisksStat {Obj : Type} (py : Objects Obj) (api : RestUtil)
    (server : Nat → Except PyException Reply) (stat : Text) (timeout : Nat) (disks : List Obj) :
    EStateM PyException Waiting Bool :=
  waitForDisksStatWith (fun disk => api.waitForElemStatus py server disk stat timeout false) disks

/-- `wait_for_disks_status` is right exactly if some inventory in time has all named disks whenever
some has none of them in another status, and `waitForDisksStat` exactly if the wait for the last
disk succeeds only if all do. -/
theorem disks_status_waiters_iff (clock : ℚ≥0) (sampler : TimeoutingSampler (List Disk))
    (disks : TextOrList) (key : Key) (status : Text) {Obj : Type} (py : Objects Obj)
    (api : RestUtil) (server : Nat → Except PyException Reply) (timeout : Nat)
    (vmDisks : List Obj) :
    ((waitForDisksStatus clock sampler disks key.text status = true ↔
        ∃ n, sampler.InTime clock n ∧ AllThere disks key (sampler.resultAt n) ∧
          NoneOther disks key status (sampler.resultAt n)) ↔
      ((∃ n, sampler.InTime clock n ∧ NoneOther disks key status (sampler.resultAt n)) →
        ∃ n, sampler.InTime clock n ∧ AllThere disks key (sampler.resultAt n) ∧
          NoneOther disks key status (sampler.resultAt n))) ∧
    (TellsAll (fun disk => api.waitForElemStatus py server disk status timeout false) vmDisks
        (waitForDisksStat py api server status timeout vmDisks) ↔
      LastFails (fun disk => api.waitForElemStatus py server disk status timeout false)
        vmDisks) := by
  refine ⟨?_, tellsAll_iff⟩
  rw [waitForDisksStatus_eq_true_iff]
  constructor
  · exact fun h => h.mp
  · intro h
    refine ⟨h, ?_⟩
    rintro ⟨n, htime, -, hnone⟩
    exact ⟨n, htime, hnone⟩

/-- No disk at any poll. -/
def noDisks : TimeoutingSampler (List Disk) where
  timeout := (180 : Nat)
  sleep := (5 : Nat)
  sleep_pos := five_seconds_pos
  func := fun _ => { result := [], duration := 0 }

/-- A server that tells of a failed disk first, and then of one that is `ok`. -/
def failedThenOk : Nat → Except PyException Reply := fun n =>
  .ok { bareReply 200 none with body := if n = 0 then "failed".toList else "ok".toList }

/-- Two disks of a VM. -/
def twoDisks : List RestUtil.Doc := [.element none, .element none]

/-- A disk that is in no inventory counts as one in the status, and a disk that comes to another
status is forgotten if the last one does not. -/
theorem missing_disk_and_failed_wait_pass :
    ¬ (waitForDisksStatus 0 noDisks (.text "data".toList) Key.name.text "ok".toList = true ↔
        ∃ n, noDisks.InTime 0 n ∧
          AllThere (.text "data".toList) .name (noDisks.resultAt n) ∧
          NoneOther (.text "data".toList) .name "ok".toList (noDisks.resultAt n)) ∧
      (∃ t, (waitForDisksStat RestUtil.docObjects hostApi failedThenOk "ok".toList 180
        twoDisks).run ⟨Session.init adminOpts, 0⟩ = .ok true t) ∧
      ¬ TellsAll (fun disk => hostApi.waitForElemStatus RestUtil.docObjects failedThenOk
          disk "ok".toList 180 false) twoDisks
        (waitForDisksStat RestUtil.docObjects hostApi failedThenOk "ok".toList 180
          twoDisks) := by
  have hfirst : (hostApi.waitForElemStatus RestUtil.docObjects failedThenOk
      (.element none) "ok".toList 180 false).run ⟨Session.init adminOpts, 0⟩ = .ok false _ :=
    RestUtil.run_waitForElemStatus_of_stop rfl rfl
  have hok : (RestUtil.report RestUtil.docObjects (.element (some "ok".toList))).verdict "ok".toList
      false = .stop true := rfl
  have hwaits : (twoDisks.mapM fun disk => hostApi.waitForElemStatus RestUtil.docObjects
      failedThenOk disk "ok".toList 180 false).run ⟨Session.init adminOpts, 0⟩ =
        .ok [false, true] _ :=
    run_bind_eq_ok_iff.mpr ⟨_, _, hfirst, run_bind_eq_ok_iff.mpr ⟨_, _,
      RestUtil.run_waitForElemStatus_of_stop rfl hok, rfl⟩⟩
  refine ⟨fun h => ?_, ⟨_, run_waitEach true hwaits⟩, fun h => ?_⟩
  · have htrue : waitForDisksStatus 0 noDisks (.text "data".toList) Key.name.text "ok".toList =
        true :=
      waitForDisksStatus_eq_true_iff.mpr ⟨0, TimeoutingSampler.inTime_zero _ _, nofun⟩
    obtain ⟨n, -, hthere, -⟩ := h.mp htrue
    obtain ⟨diskObj, hdisk, -⟩ := hthere "data".toList (by decide)
    exact nomatch hdisk
  · exact nomatch tellsAll_iff.mp h _ _ _ hwaits rfl

end OvirtArt.TestsLib.DisksStatus
