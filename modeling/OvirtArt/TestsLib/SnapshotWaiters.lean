import OvirtArt.CoreApi.SampledLoops
import OvirtArt.TestsLib.HostStates
import OvirtArt.TestsLib.VmSnapshots

set_option autoImplicit false

/-!
# Waiting for snapshots, and removing them, in `low_level/vms.py`

`wait_for_snapshot_gone`, `wait_for_snapshot_creation` and `wait_for_vm_snapshots` each loop over a
sampler of the snapshots of a VM.  What stands after the loops of the first two is not reached: the
sampler raises `APITimeout` where it ends.  The third looks for a description `in` what it is given,
which in a string is a search for a part of it.

`remove_all_vm_lsm_snapshots`, and `remove_all_vm_snapshots` of `rhevmtests/storage/helpers.py`,
call `removeSnapshot` once for each snapshot with a description.  Each call waits until no snapshot
has that description any more.
-/

namespace OvirtArt.TestsLib.SnapshotWaiters

open OvirtArt.CoreApi OvirtArt.Foundation
open OvirtArt.TestsLib.HostStates (TextOrList contains_text_iff contains_list_iff)
open OvirtArt.TestsLib.VmSnapshots (Snapshot)

/-- What the waiters raise. -/
inductive WaiterException where
  /-- `APITimeout`, which the sampler of `apis_utils` raises. -/
  | apiTimeout
  /-- `None` is looked for in a string. -/
  | typeError
  /-- `None` is to be removed. -/
  | attributeError
  /-- `VMException`. -/
  | vmException
  | assertionError
  /-- What is raised by the waits that are no loops over snapshots. -/
  | other (name : Text)
  deriving DecidableEq, Repr

/-! ## The source -/

/-- `TimeoutingSampler(timeout, SNAPSHOT_SAMPLING_PERIOD, get_vm_snapshots, vm_name)`. -/
def snapshotsSampler (timeout : ℚ≥0) (getVmSnapshots : Nat → Sample (List Snapshot)) :
    TimeoutingSampler (List Snapshot) where
  timeout := timeout
  sleep := (5 : Nat)
  sleep_pos := five_seconds_pos
  func := getVmSnapshots

/-- What comes of a loop: the exception of the sampler passes. -/
def returned {β : Type} : Option (Except WaiterException β) → Except WaiterException β
  | some result => result
  | none => .error .apiTimeout

/-- The body of the loop of `wait_for_snapshot_gone`. -/
def goneVerdict (snapshot : Text) (sample : List Snapshot) :
    Option (Except WaiterException Bool) :=
  if (sample.map Snapshot.description).contains (some snapshot) then none else some (.ok true)

section

variable (clock : ℚ≥0)

/-- `wait_for_snapshot_gone`; no loop ends without an exception, so its `return False` is not
reached. -/
def waitForSnapshotGone (sampler : TimeoutingSampler (List Snapshot)) (snapshot : Text) :
    Except WaiterException Bool :=
  returned (sampler.forLoop clock (stateless (goneVerdict snapshot)) ⟨⟩)

/-- `snapshot.get_description() in description`. -/
def describedIn : TextOrList → Option Text → Except WaiterException Bool
  | .text _, none => .error .typeError
  | .list _, none => .ok false
  | description, some own => .ok (description.contains own)

/-- The snapshots that are looked at. -/
def filterSnapshots : Option TextOrList → List Snapshot → Except WaiterException (List Snapshot)
  | none, snapshots => .ok snapshots
  | some _, [] => .ok []
  | some description, snapshot :: rest => do
      let described ← describedIn description snapshot.description
      let later ← filterSnapshots (some description) rest
      return if described then snapshot :: later else later

/-- `_get_unsatisfying_snapshots`, of the snapshots that the VM has. -/
def getUnsatisfyingSnapshots (statuses : TextOrList) (description : Option TextOrList)
    (snapshots : List Snapshot) : Except WaiterException Bool := do
  let snapshots ← filterSnapshots description snapshots
  return snapshots.any fun snap => !statuses.contains snap.snapshotStatus

/-- The body of the loop of `wait_for_vm_snapshots`; what its function raises passes. -/
def statesVerdict (states : TextOrList) (snapshotsDescription : Option TextOrList)
    (snapshots : List Snapshot) : Option (Except WaiterException Unit) :=
  match getUnsatisfyingSnapshots states snapshotsDescription snapshots with
  | .error e => some (.error e)
  | .ok true => none
  | .ok false => some (.ok ⟨⟩)

/-- `wait_for_vm_snapshots`. -/
def waitForVmSnapshots (sampler : TimeoutingSampler (List Snapshot)) (states : TextOrList)
    (snapshotsDescription : Option TextOrList) : Except WaiterException Unit :=
  returned (sampler.forLoop clock (stateless (statesVerdict states snapshotsDescription)) ⟨⟩)

/-- The optional arguments of `wait_for_snapshot_creation`, and what its loop asks for because of
them. -/
structure CreationOptions where
  includeDiskAlias : Option Text
  waitForStatus : Option TextOrList
  /-- The aliases of `get_snapshot_disks_by_snapshot_obj(snapshot)`. -/
  diskAliases : Snapshot → List Text
  /-- The snapshots while their status is waited for, and when that begins. -/
  statusSampler : TimeoutingSampler (List Snapshot)
  statusClock : ℚ≥0

/-- An option that is given and is a true value. -/
def given {α : Type} (isEmpty : α → Bool) : Option α → Option α
  | none => none
  | some value => if isEmpty value then none else some value

/-- An empty string or list. -/
def isEmptyStates : TextOrList → Bool
  | .text whole => whole.isEmpty
  | .list members => members.isEmpty

/-- What is returned once the snapshot is there: its status may still be waited for. -/
def createdSnapshot (options : CreationOptions) (snapshotDescription : Text) :
    Except WaiterException Bool :=
  match given isEmptyStates options.waitForStatus with
  | none => .ok true
  | some states => do
      waitForVmSnapshots options.statusClock options.statusSampler states
        (some (.text snapshotDescription))
      return true

/-- The snapshot is the one that is waited for. -/
def isCreated (options : CreationOptions) (snapshotDescription : Text) (snapshot : Snapshot) :
    Bool :=
  snapshot.description == some snapshotDescription &&
    match given List.isEmpty options.includeDiskAlias with
    | none => true
    | some diskAlias => (options.diskAliases snapshot).contains diskAlias

/-- The body of the loop of `wait_for_snapshot_creation`. -/
def creationVerdict (options : CreationOptions) (snapshotDescription : Text)
    (sample : List Snapshot) : Option (Except WaiterException Bool) :=
  if sample.any (isCreated options snapshotDescription) then
    some (createdSnapshot options snapshotDescription)
  else none

/-- `wait_for_snapshot_creation`; its `return False` is not reached. -/
def waitForSnapshotCreation (sampler : TimeoutingSampler (List Snapshot))
    (snapshotDescription : Text) (options : CreationOptions) : Except WaiterException Bool :=
  returned (sampler.forLoop clock (stateless (creationVerdict options snapshotDescription)) ⟨⟩)

end

/-! ## What is asked of them -/

/-- No disk alias and no status. -/
def CreationOptions.Plain (options : CreationOptions) : Prop :=
  options.includeDiskAlias = none ∧ options.waitForStatus = none

/-- A snapshot of the list has exactly this description. -/
def Contains (description : Text) (sample : List Snapshot) : Prop :=
  ∃ snapshot ∈ sample, snapshot.description = some description

/-- The description is the one that is given, or an element of the list that is given. -/
def Selected (given : TextOrList) (snapshot : Snapshot) : Prop :=
  ∃ own, snapshot.description = some own ∧
    match given with
    | .text whole => own = whole
    | .list members => own ∈ members

instance (given : TextOrList) : DecidablePred (Selected given) := fun snapshot =>
  match hdescription : snapshot.description with
  | none => isFalse fun ⟨_, h, _⟩ => nomatch hdescription.symm.trans h
  | some own =>
    match given with
    | .text whole => decidable_of_iff (own = whole)
        ⟨fun h => ⟨own, hdescription, h⟩, fun ⟨_, h, hown⟩ =>
          (Option.some.inj (hdescription.symm.trans h)).trans hown⟩
    | .list members => decidable_of_iff (own ∈ members)
        ⟨fun h => ⟨own, hdescription, h⟩, fun ⟨_, h, hown⟩ =>
          Option.some.inj (hdescription.symm.trans h) ▸ hown⟩

/-- The snapshots that are selected are all in the states. -/
def Settled (states given : TextOrList) (sample : List Snapshot) : Prop :=
  ∀ snapshot ∈ sample, Selected given snapshot → states.contains snapshot.snapshotStatus = true

instance (states given : TextOrList) : DecidablePred (Settled states given) := fun sample =>
  inferInstanceAs (Decidable (∀ snapshot ∈ sample, _ → _))

/-- The body of a loop that only the selected snapshots decide. -/
def exactVerdict (states given : TextOrList) (sample : List Snapshot) :
    Option (Except WaiterException Unit) :=
  if Settled states given sample then some (.ok ⟨⟩) else none

section

variable (sampler : TimeoutingSampler (List Snapshot)) (clock : ℚ≥0)

/-- A list that is sampled before the timeout has the property. -/
def Sampled (happens : List Snapshot → Prop) : Prop :=
  ∃ n, sampler.InTime clock n ∧ happens (sampler.resultAt n)

/-- `True` if this happens, and `False` otherwise. -/
def Tells (happens : Prop) (result : Except WaiterException Bool) : Prop :=
  (result = .ok true ↔ happens) ∧ (¬ happens → result = .ok false)

/-- The wait for states ends at the sample, and with the result, that the selected snapshots
decide. -/
def DecidedBySelected (states given : TextOrList) : Prop :=
  ∀ n result, sampler.LeftAt clock (statesVerdict states (some given)) n result ↔
    sampler.LeftAt clock (exactVerdict states given) n result

/-- The three waiters do what they are documented to do. -/
structure WaitersTell (description : Text) (options : CreationOptions)
    (states given : TextOrList) : Prop where
  gone : Tells (Sampled sampler clock fun sample => ¬ Contains description sample)
    (waitForSnapshotGone clock sampler description)
  creation : options.Plain → Tells (Sampled sampler clock (Contains description))
    (waitForSnapshotCreation clock sampler description options)
  states : DecidedBySelected sampler clock states given

/-- A list where the search in a string finds what an exact comparison finds: each snapshot has a
description, and those that are a part of the string are in the states if those that are equal to
it are. -/
structure ReadAlike (states : TextOrList) (whole : Text) (sample : List Snapshot) : Prop where
  described : ∀ snapshot ∈ sample, snapshot.description ≠ none
  parts : Settled states (.text whole) sample → ∀ snapshot ∈ sample, ∀ own,
    snapshot.description = some own → own <:+: whole →
      states.contains snapshot.snapshotStatus = true

/-- Nothing times out, and the search in a string finds what an exact comparison finds in all lists
until the selected snapshots are in the states. -/
structure InTimeAndAlike (description : Text) (options : CreationOptions)
    (states given : TextOrList) : Prop where
  gone : Sampled sampler clock fun sample => ¬ Contains description sample
  creation : options.Plain → Sampled sampler clock (Contains description)
  states : ∀ whole, given = .text whole → ∀ n,
    sampler.Reached clock (exactVerdict states given) n →
      ReadAlike states whole (sampler.resultAt n)

end

/-! ## The loops that end with `True` -/

section

variable {sampler : TimeoutingSampler (List Snapshot)} {clock : ℚ≥0}
  {description : Text} {sample : List Snapshot} {options : CreationOptions}

theorem returned_eq_ok_iff {β : Type} {outcome : Option (Except WaiterException β)} {value : β} :
    returned outcome = .ok value ↔ outcome = some (.ok value) := by
  cases outcome with
  | none => exact iff_of_false nofun nofun
  | some result => exact Option.some_inj.symm

variable {verdict : List Snapshot → Option (Except WaiterException Bool)}
  {result : Except WaiterException Bool} {happens : List Snapshot → Prop}

/-- A loop that is left with `True` only returns `True` exactly if a sample in time has a
verdict. -/
theorem returned_eq_true_iff
    (hverdict : ∀ sample, verdict sample = some (.ok true) ↔ happens sample)
    (honly : ∀ sample result, verdict sample = some result → result = .ok true) :
    returned (sampler.forLoop clock (stateless verdict) ⟨⟩) = .ok true ↔
      Sampled sampler clock happens := by
  rw [returned_eq_ok_iff, TimeoutingSampler.forLoop_constant_eq_some_iff honly]
  simp only [hverdict]
  rfl

/-- Such a waiter tells what it waits for exactly if that happens: it never returns `False`. -/
theorem tells_iff (hverdict : ∀ sample, verdict sample = some (.ok true) ↔ happens sample)
    (honly : ∀ sample result, verdict sample = some result → result = .ok true) :
    Tells (Sampled sampler clock happens)
      (returned (sampler.forLoop clock (stateless verdict) ⟨⟩)) ↔
        Sampled sampler clock happens := by
  constructor
  · intro ⟨_, hfalse⟩
    by_contra hnot
    obtain ⟨n, _, hn⟩ := TimeoutingSampler.forLoop_stateless_eq_some_iff.mp
      (returned_eq_ok_iff.mp (hfalse hnot))
    exact nomatch honly _ _ hn
  · intro hhappens
    exact ⟨returned_eq_true_iff hverdict honly, absurd hhappens⟩

theorem contains_description_iff :
    (sample.map Snapshot.description).contains (some description) = true ↔
      Contains description sample := by
  rw [List.contains_iff_mem, List.mem_map]
  rfl

theorem goneVerdict_eq_true_iff : goneVerdict description sample = some (.ok true) ↔
    ¬ Contains description sample := by
  unfold goneVerdict
  rw [← contains_description_iff]
  split
  · next h => exact iff_of_false nofun (not_not_intro h)
  · next h => exact iff_of_true rfl h

theorem goneVerdict_only (h : goneVerdict description sample = some result) :
    result = .ok true := by
  unfold goneVerdict at h
  split at h
  · exact nomatch h
  · exact (Option.some.inj h).symm

theorem isCreated_of_plain (h : options.Plain) (snapshot : Snapshot) :
    isCreated options description snapshot = (snapshot.description == some description) := by
  unfold isCreated
  rw [h.1]
  exact Bool.and_true _

theorem any_isCreated_iff (h : options.Plain) :
    sample.any (isCreated options description) = true ↔ Contains description sample := by
  simp only [List.any_eq_true, isCreated_of_plain h, beq_iff_eq, Contains]

theorem createdSnapshot_of_plain (h : options.Plain) :
    createdSnapshot options description = .ok true := by
  unfold createdSnapshot
  rw [h.2]
  rfl

theorem creationVerdict_eq_true_iff (h : options.Plain) :
    creationVerdict options description sample = some (.ok true) ↔
      Contains description sample := by
  unfold creationVerdict
  rw [createdSnapshot_of_plain h, ← any_isCreated_iff h]
  split
  · next hany => exact iff_of_true rfl hany
  · next hany => exact iff_of_false nofun hany

theorem creationVerdict_only (h : options.Plain)
    (hresult : creationVerdict options description sample = some result) : result = .ok true := by
  unfold creationVerdict at hresult
  rw [createdSnapshot_of_plain h] at hresult
  split at hresult
  · exact (Option.some.inj hresult).symm
  · exact nomatch hresult

end

/-! ## The search in what is given -/

section

variable {sampler : TimeoutingSampler (List Snapshot)} {clock : ℚ≥0} {states given : TextOrList}
  {snapshot : Snapshot} {sample : List Snapshot}

/-- The description is found in what is given. -/
def Found (given : TextOrList) (snapshot : Snapshot) : Prop :=
  ∃ own, snapshot.description = some own ∧ given.contains own = true

/-- Nothing without a description is looked for in a string. -/
def Searchable (given : TextOrList) (snapshot : Snapshot) : Prop :=
  ∀ whole, given = .text whole → snapshot.description ≠ none

theorem Selected.found (h : Selected given snapshot) : Found given snapshot := by
  obtain ⟨own, hown, hgiven⟩ := h
  refine ⟨own, hown, ?_⟩
  cases given with
  | text whole =>
    rw [contains_text_iff, hgiven]
  | list members => exact contains_list_iff.mpr hgiven

theorem found_list_iff {members : List Text} :
    Found (.list members) snapshot ↔ Selected (.list members) snapshot := by
  constructor
  · intro ⟨own, hown, hmem⟩
    exact ⟨own, hown, contains_list_iff.mp hmem⟩
  · exact Selected.found

theorem describedIn_of_searchable (h : Searchable given snapshot) :
    ∃ described, describedIn given snapshot.description = .ok described ∧
      (described = true ↔ Found given snapshot) := by
  unfold Found
  cases hdescription : snapshot.description with
  | none =>
    cases given with
    | text whole => exact absurd hdescription (h whole rfl)
    | list members =>
      refine ⟨false, rfl, iff_of_false nofun ?_⟩
      intro ⟨own, hown, _⟩
      exact nomatch hown
  | some own =>
    refine ⟨given.contains own, by cases given with | _ => rfl, ?_⟩
    constructor
    · intro hfound
      exact ⟨own, rfl, hfound⟩
    · intro ⟨other, hother, hfound⟩
      rwa [Option.some.inj hother]

theorem describedIn_eq_error_iff : (∃ e, describedIn given snapshot.description = .error e) ↔
    ¬ Searchable given snapshot := by
  constructor
  · intro ⟨e, he⟩ h
    obtain ⟨described, hdescribed, _⟩ := describedIn_of_searchable h
    exact nomatch he.symm.trans hdescribed
  · intro h
    unfold Searchable at h
    push Not at h
    obtain ⟨whole, rfl, hnone⟩ := h
    exact ⟨.typeError, by rw [hnone]; rfl⟩

/-- Of snapshots that can be searched, those that are found remain. -/
theorem filterSnapshots_of_searchable (h : ∀ snapshot ∈ sample, Searchable given snapshot) :
    ∃ found, filterSnapshots (some given) sample = .ok found ∧
      ∀ snapshot, snapshot ∈ found ↔ snapshot ∈ sample ∧ Found given snapshot := by
  induction sample with
  | nil => exact ⟨[], rfl, fun _ => iff_of_false List.not_mem_nil fun h => List.not_mem_nil h.1⟩
  | cons first rest ih =>
    obtain ⟨later, hlater, hmem⟩ := ih fun snapshot hsnapshot =>
      h snapshot (List.mem_cons_of_mem first hsnapshot)
    obtain ⟨described, hdescribed, hfound⟩ :=
      describedIn_of_searchable (h first List.mem_cons_self)
    refine ⟨if described then first :: later else later, ?_, ?_⟩
    · rw [filterSnapshots, hdescribed, hlater]
      rfl
    · intro snapshot
      rw [List.mem_cons]
      cases described with
      | true =>
        rw [if_pos rfl, List.mem_cons, hmem, or_and_right]
        apply or_congr_left
        constructor
        · intro heq
          exact ⟨heq, heq ▸ hfound.mp rfl⟩
        · exact And.left
      | false =>
        rw [if_neg Bool.false_ne_true, hmem, or_and_right]
        refine (or_iff_right ?_).symm
        intro ⟨heq, hsnapshot⟩
        exact nomatch hfound.mpr (heq ▸ hsnapshot)

/-- The search raises at a snapshot without a description. -/
theorem exists_filterSnapshots_error (h : ∃ snapshot ∈ sample, ¬ Searchable given snapshot) :
    ∃ e, filterSnapshots (some given) sample = .error e := by
  induction sample with
  | nil =>
    obtain ⟨snapshot, hmem, -⟩ := h
    exact absurd hmem List.not_mem_nil
  | cons first rest ih =>
    rw [filterSnapshots]
    cases hdescribed : describedIn given first.description with
    | error e => exact ⟨e, rfl⟩
    | ok described =>
      have hrest : ∃ snapshot ∈ rest, ¬ Searchable given snapshot := by
        obtain ⟨snapshot, hmem, hsnapshot⟩ := h
        cases hmem with
        | head =>
          obtain ⟨e, he⟩ := describedIn_eq_error_iff.mpr hsnapshot
          exact nomatch he.symm.trans hdescribed
        | tail _ hmem => exact ⟨snapshot, hmem, hsnapshot⟩
      obtain ⟨e, he⟩ := ih hrest
      exact ⟨e, by rw [he]; rfl⟩

/-- The wait for states goes on exactly while a snapshot that is found is in another state. -/
theorem statesVerdict_of_searchable (h : ∀ snapshot ∈ sample, Searchable given snapshot) :
    statesVerdict states (some given) sample = none ∨
      statesVerdict states (some given) sample = some (.ok ⟨⟩) := by
  obtain ⟨found, hfound, -⟩ := filterSnapshots_of_searchable h
  unfold statesVerdict getUnsatisfyingSnapshots
  rw [hfound]
  dsimp only [bind, Except.bind, pure, Except.pure]
  cases found.any fun snap => !states.contains snap.snapshotStatus with
  | true => exact .inl rfl
  | false => exact .inr rfl

theorem statesVerdict_eq_ok_iff (h : ∀ snapshot ∈ sample, Searchable given snapshot) :
    statesVerdict states (some given) sample = some (.ok ⟨⟩) ↔
      ∀ snapshot ∈ sample, Found given snapshot →
        states.contains snapshot.snapshotStatus = true := by
  obtain ⟨found, hfound, hmem⟩ := filterSnapshots_of_searchable h
  have hall : (found.any fun snap => !states.contains snap.snapshotStatus) = false ↔
      ∀ snapshot ∈ sample, Found given snapshot →
        states.contains snapshot.snapshotStatus = true := by
    simp only [List.any_eq_false, Bool.not_eq_true', Bool.not_eq_false, hmem, and_imp]
  unfold statesVerdict getUnsatisfyingSnapshots
  rw [hfound, ← hall]
  dsimp only [bind, Except.bind, pure, Except.pure]
  cases found.any fun snap => !states.contains snap.snapshotStatus with
  | true => exact iff_of_false nofun nofun
  | false => exact iff_of_true rfl rfl

theorem exactVerdict_eq_ok_iff : exactVerdict states given sample = some (.ok ⟨⟩) ↔
    Settled states given sample := by
  unfold exactVerdict
  split
  · next h => exact iff_of_true rfl h
  · next h => exact iff_of_false nofun h

theorem exactVerdict_cases : exactVerdict states given sample = none ∨
    exactVerdict states given sample = some (.ok ⟨⟩) := by
  unfold exactVerdict
  split
  · exact .inr rfl
  · exact .inl rfl

/-- Two verdicts that are `none` or this value are the same if they are this value together. -/
theorem eq_of_none_or {β : Type} {value : β} {first second : Option β}
    (hfirst : first = none ∨ first = some value) (hsecond : second = none ∨ second = some value)
    (h : first = some value ↔ second = some value) : first = second := by
  cases hfirst with
  | inl hfirst =>
    cases hsecond with
    | inl hsecond => exact hfirst.trans hsecond.symm
    | inr hsecond => exact (h.mpr hsecond).trans hsecond.symm
  | inr hfirst => exact hfirst.trans (h.mp hfirst).symm

/-- At a list the search decides like an exact comparison exactly if it can be made, and what it
finds is settled where the selected snapshots are. -/
theorem statesVerdict_eq_exactVerdict_iff :
    statesVerdict states (some given) sample = exactVerdict states given sample ↔
      (∀ snapshot ∈ sample, Searchable given snapshot) ∧
        (Settled states given sample → ∀ snapshot ∈ sample, Found given snapshot →
          states.contains snapshot.snapshotStatus = true) := by
  by_cases hsearchable : ∀ snapshot ∈ sample, Searchable given snapshot
  · rw [and_iff_right hsearchable, ← statesVerdict_eq_ok_iff hsearchable,
      ← exactVerdict_eq_ok_iff]
    constructor
    · intro heq hexact
      exact heq.trans hexact
    · intro h
      apply eq_of_none_or (statesVerdict_of_searchable hsearchable) exactVerdict_cases
      refine ⟨fun hstates => exactVerdict_eq_ok_iff.mpr ?_, h⟩
      intro snapshot hmem hselected
      exact (statesVerdict_eq_ok_iff hsearchable).mp hstates snapshot hmem hselected.found
  · refine iff_of_false ?_ fun h => hsearchable h.1
    push Not at hsearchable
    obtain ⟨e, he⟩ := exists_filterSnapshots_error hsearchable
    unfold statesVerdict getUnsatisfyingSnapshots
    rw [he]
    intro heq
    cases @exactVerdict_cases states given sample with
    | inl hnone => exact nomatch heq.trans hnone
    | inr hsome => exact nomatch heq.trans hsome

theorem statesVerdict_list (members : List Text) : statesVerdict states (some (.list members)) =
    exactVerdict states (.list members) := by
  funext sample
  rw [statesVerdict_eq_exactVerdict_iff]
  refine ⟨fun _ _ => nofun, fun hsettled snapshot hmem hfound => ?_⟩
  exact hsettled snapshot hmem (found_list_iff.mp hfound)

theorem statesVerdict_text_iff {whole : Text} :
    statesVerdict states (some (.text whole)) sample = exactVerdict states (.text whole) sample ↔
      ReadAlike states whole sample := by
  rw [statesVerdict_eq_exactVerdict_iff]
  constructor
  · intro ⟨hsearchable, hparts⟩
    refine ⟨fun snapshot hmem => hsearchable snapshot hmem whole rfl, ?_⟩
    intro hsettled snapshot hmem own hown hinfix
    exact hparts hsettled snapshot hmem ⟨own, hown, contains_text_iff.mpr hinfix⟩
  · intro h
    refine ⟨fun snapshot hmem _ _ => h.described snapshot hmem, ?_⟩
    intro hsettled snapshot hmem ⟨own, hown, hcontains⟩
    exact h.parts hsettled snapshot hmem own hown (contains_text_iff.mp hcontains)

theorem decidedBySelected_iff : DecidedBySelected sampler clock states given ↔
    ∀ whole, given = .text whole → ∀ n, sampler.Reached clock (exactVerdict states given) n →
      ReadAlike states whole (sampler.resultAt n) := by
  unfold DecidedBySelected
  rw [TimeoutingSampler.leftAt_congr_iff]
  unfold TimeoutingSampler.AgreeOn
  cases given with
  | list members =>
    rw [statesVerdict_list]
    exact iff_of_true (fun _ _ => rfl) nofun
  | text whole =>
    simp only [statesVerdict_text_iff]
    constructor
    · intro h other hother n
      cases hother
      exact h n
    · intro h n
      exact h whole rfl n

end

/-- The waiters do what they are documented to do exactly if nothing times out, and no list until
the end shows a snapshot whose description is a part of the string only and that is not in the
states by itself. -/
theorem snapshot_waiters_iff (sampler : TimeoutingSampler (List Snapshot)) (clock : ℚ≥0)
    (description : Text) (options : CreationOptions) (states given : TextOrList) :
    WaitersTell sampler clock description options states given ↔
      InTimeAndAlike sampler clock description options states given := by
  have hgone : Tells _ (waitForSnapshotGone clock sampler description) ↔ _ :=
    tells_iff (fun _ => goneVerdict_eq_true_iff) fun _ _ => goneVerdict_only
  have hcreation (h : options.Plain) :
      Tells _ (waitForSnapshotCreation clock sampler description options) ↔ _ :=
    tells_iff (fun _ => creationVerdict_eq_true_iff h) fun _ _ => creationVerdict_only h
  constructor
  · intro h
    exact ⟨hgone.mp h.gone, fun hplain => (hcreation hplain).mp (h.creation hplain),
      decidedBySelected_iff.mp h.states⟩
  · intro h
    exact ⟨hgone.mpr h.gone, fun hplain => (hcreation hplain).mpr (h.creation hplain),
      decidedBySelected_iff.mpr h.states⟩

/-! ## A snapshot whose description is a part of another one -/

/-- A snapshot that is locked all the time, and one that is there and whose description begins with
that of the first. -/
def lockedAndOk : List Snapshot :=
  [{ id := "s1".toList, description := some "base".toList, snapshotStatus := "locked".toList },
    { id := "s2".toList, description := some "base_1".toList, snapshotStatus := "ok".toList }]

/-- An engine that shows them at each poll. -/
def alwaysLockedAndOk : TimeoutingSampler (List Snapshot) :=
  snapshotsSampler (900 : Nat) fun _ => { result := lockedAndOk, duration := 0 }

/-- No alias and no status. -/
def noOptions : CreationOptions where
  includeDiskAlias := none
  waitForStatus := none
  diskAliases := fun _ => []
  statusSampler := alwaysLockedAndOk
  statusClock := 0

/-- The waits raise: for a snapshot that is not gone, and for one that is in its state. -/
theorem part_of_description_delays :
    waitForSnapshotGone 0 alwaysLockedAndOk "base".toList = .error .apiTimeout ∧
      exactVerdict (.list ["ok".toList]) (.text "base_1".toList) lockedAndOk = some (.ok ⟨⟩) ∧
      waitForVmSnapshots 0 alwaysLockedAndOk (.list ["ok".toList])
        (some (.text "base_1".toList)) = .error .apiTimeout ∧
      ¬ WaitersTell alwaysLockedAndOk 0 "base".toList noOptions (.list ["ok".toList])
        (.text "base_1".toList) := by
  have hgone : waitForSnapshotGone 0 alwaysLockedAndOk "base".toList = .error .apiTimeout := by
    unfold waitForSnapshotGone
    rw [TimeoutingSampler.forLoop_stateless_eq_none_iff.mpr fun n _ => rfl]
    rfl
  have hstates : statesVerdict (.list ["ok".toList]) (some (.text "base_1".toList)) lockedAndOk =
      none := by decide
  refine ⟨hgone, by decide, ?_, fun h => ?_⟩
  · unfold waitForVmSnapshots
    rw [TimeoutingSampler.forLoop_stateless_eq_none_iff.mpr fun n _ => hstates]
    rfl
  · refine nomatch hgone.symm.trans (h.gone.2 ?_)
    intro ⟨n, _, hnot⟩
    exact hnot ⟨_, List.mem_cons_self, rfl⟩

/-! ## Removing a group of snapshots: the source -/

/-- The snapshots that the VM is to keep, and those whose removal has been requested. -/
structure Removing where
  snapshots : List Snapshot
  requests : List Snapshot
  deriving DecidableEq, Repr

/-- How the engine carries out removals, by the number of requests before, and how the other waits
of the two functions end. -/
structure RemovalEngine where
  /-- The status of `SNAPSHOT_API.delete`. -/
  accepted : Nat → Bool
  /-- Whether the snapshot is still listed at a poll after the request. -/
  listing : Nat → Nat → Sample Bool
  clock : Nat → ℚ≥0
  stopVmsSafely : Except WaiterException Bool
  waitForDisksStat : Except WaiterException Bool
  /-- `wait_for_jobs([ENUMS['job_remove_snapshot']])`, by the number of calls before. -/
  waitForJobs : Nat → Except WaiterException Unit
  /-- The snapshots while the states of all are waited for. -/
  statesSampler : Nat → TimeoutingSampler (List Snapshot)
  statesClock : Nat → ℚ≥0

/-- `LIVE_SNAPSHOT_DESCRIPTION`. -/
def liveSnapshotDescription : Text := "Auto-generated for Live Storage Migration".toList

/-- `VM_REMOVE_SNAPSHOT_TIMEOUT`. -/
def vmRemoveSnapshotTimeout : ℚ≥0 := (2400 : Nat)

/-- `REMOVE_SNAPSHOT_TIMEOUT` of `rhevmtests/storage/helpers.py`. -/
def removeSnapshotTimeout : ℚ≥0 := (25 * 60 : Nat)

/-- `snapshot.get_description() == description`. -/
def isOf (description : Text) (snapshot : Snapshot) : Bool :=
  snapshot.description == some description

/-- The polls after a request. -/
def lingering (timeout : ℚ≥0) (listing : Nat → Sample Bool) : TimeoutingSampler Bool where
  timeout := timeout
  sleep := (5 : Nat)
  sleep_pos := five_seconds_pos
  func := listing

/-- The lists after a request: what was listed before it, or what remains. -/
def removalSampler (timeout : ℚ≥0) (listing : Nat → Sample Bool) (before remaining : List Snapshot) :
    TimeoutingSampler (List Snapshot) :=
  snapshotsSampler timeout fun i =>
    { result := if (listing i).result then before else remaining
      duration := (listing i).duration }

section

variable (engine : RemovalEngine)

/-- `removeSnapshot(True, vm_name, description, timeout)`. -/
def removeSnapshot (description : Text) (timeout : ℚ≥0) :
    EStateM WaiterException Removing Bool := do
  let before ← get
  match VmSnapshots.findDescription description before.snapshots with
  | none => throw .attributeError
  | some snapshot =>
    let number := before.requests.length
    let requests := before.requests ++ [snapshot]
    if engine.accepted number then do
      let remaining := before.snapshots.erase snapshot
      set ({ snapshots := remaining, requests := requests } : Removing)
      fromExcept (waitForSnapshotGone (engine.clock number)
        (removalSampler timeout (engine.listing number) before.snapshots remaining) description)
    else do
      set { before with requests := requests }
      return false

/-- What follows each snapshot of the loop of `remove_all_vm_lsm_snapshots`. -/
def settle (index : Nat) : Except WaiterException Unit := do
  engine.waitForJobs index
  waitForVmSnapshots (engine.statesClock index) (engine.statesSampler index)
    (.text "ok".toList) none

/-- The `if` of that loop: what is appended to `results`. -/
def removeMember (snapshot : Snapshot) : EStateM WaiterException Removing (List Bool) :=
  if isOf liveSnapshotDescription snapshot then do
    let removed ← removeSnapshot engine liveSnapshotDescription vmRemoveSnapshotTimeout
    return [removed]
  else pure []

/-- The loop of `remove_all_vm_lsm_snapshots`, over the snapshots from this index on: its
`results`. -/
def removeLsm : Nat → List Snapshot → EStateM WaiterException Removing (List Bool)
  | _, [] => pure []
  | index, snapshot :: rest => do
      let results ← removeMember engine snapshot
      fromExcept (settle engine index)
      let later ← removeLsm (index + 1) rest
      return results ++ later

/-- `remove_all_vm_lsm_snapshots`. -/
def removeAllVmLsmSnapshots : EStateM WaiterException Removing Unit := do
  let _ ← fromExcept engine.stopVmsSafely
  let _ ← fromExcept engine.waitForDisksStat
  let vm ← get
  let results ← removeLsm engine 0 vm.snapshots
  if results.contains false then throw .vmException

/-- `remove_all_vm_snapshots`. -/
def removeAllVmSnapshots (description : Text) : EStateM WaiterException Removing Unit := do
  let _ ← fromExcept engine.stopVmsSafely
  let vm ← get
  let results ← (vm.snapshots.filter (isOf description)).mapM fun _ =>
    removeSnapshot engine description removeSnapshotTimeout
  fromExcept (engine.waitForJobs 0)
  if results.contains false then throw .assertionError

end

/-! ## What is asked of the removal -/

/-- An engine that accepts all removals, and after each of them lists the snapshot no more at some
poll before the timeout. -/
structure PromptEngine (timeout : ℚ≥0) extends RemovalEngine where
  always_accepted : ∀ number, accepted number = true
  gone : ∀ number, ∃ n, (lingering timeout (listing number)).InTime (clock number) n ∧
    (listing number n).result = false

/-- The function returns, has requested the removal of each snapshot with the description once, and
all others remain. -/
def RemovesGroup (description : Text) (snapshots : List Snapshot)
    (remove : EStateM WaiterException Removing Unit) : Prop :=
  ∃ final, remove.run { snapshots := snapshots, requests := [] } = .ok ⟨⟩ final ∧
    final.requests.Perm (snapshots.filter (isOf description)) ∧
    final.snapshots = snapshots.filter fun snapshot => !isOf description snapshot

/-- The group has one member at most. -/
def AtMostOne (description : Text) (snapshots : List Snapshot) : Prop :=
  (snapshots.filter (isOf description)).length ≤ 1

/-- The other waits of `remove_all_vm_lsm_snapshots` return. -/
structure LsmWaitsReturn (engine : RemovalEngine) (snapshots : List Snapshot) : Prop where
  stopped : ∃ stopped, engine.stopVmsSafely = .ok stopped
  disks : ∃ status, engine.waitForDisksStat = .ok status
  settled : ∀ i < snapshots.length, settle engine i = .ok ⟨⟩

/-- The other waits of `remove_all_vm_snapshots` return. -/
structure WaitsReturn (engine : RemovalEngine) : Prop where
  stopped : ∃ stopped, engine.stopVmsSafely = .ok stopped
  jobs : engine.waitForJobs 0 = .ok ⟨⟩

/-! ## One removal -/

section

variable {timeout : ℚ≥0} {listing : Nat → Sample Bool} {clock : ℚ≥0} {description : Text}
  {before remaining snapshots rest : List Snapshot} {snapshot other : Snapshot}

theorem contains_iff_filter_ne_nil :
    Contains description snapshots ↔ snapshots.filter (isOf description) ≠ [] := by
  unfold Contains isOf
  rw [ne_eq, List.filter_eq_nil_iff]
  push Not
  simp only [beq_iff_eq]

theorem findDescription_eq_head? :
    VmSnapshots.findDescription description snapshots =
      (snapshots.filter (isOf description)).head? :=
  List.head?_filter.symm

/-- The wait ends where the snapshot was the last with its description. -/
theorem waitForSnapshotGone_of_not_contains (h : ¬ Contains description remaining)
    (hgone : ∃ n, (lingering timeout listing).InTime clock n ∧ (listing n).result = false) :
    waitForSnapshotGone clock (removalSampler timeout listing before remaining) description =
      .ok true := by
  obtain ⟨n, htime, hlisted⟩ := hgone
  apply (returned_eq_true_iff (fun _ => goneVerdict_eq_true_iff) fun _ _ => goneVerdict_only).mpr
  refine ⟨n, ?_, ?_⟩
  · apply htime.congr
    · rfl
    · rfl
    · exact fun _ => rfl
  · change ¬ Contains description (if (listing n).result then before else remaining)
    rw [hlisted]
    exact h

/-- The wait raises while others with the description are there. -/
theorem waitForSnapshotGone_of_contains (hbefore : Contains description before)
    (hremaining : Contains description remaining) :
    waitForSnapshotGone clock (removalSampler timeout listing before remaining) description =
      .error .apiTimeout := by
  have hnone (sample : List Snapshot) (h : Contains description sample) :
      goneVerdict description sample = none := by
    unfold goneVerdict
    rw [if_pos (contains_description_iff.mpr h)]
  unfold waitForSnapshotGone
  rw [TimeoutingSampler.forLoop_stateless_eq_none_iff.mpr]
  · rfl
  · intro n _
    apply hnone
    change Contains description (if (listing n).result then before else remaining)
    split
    · exact hbefore
    · exact hremaining

/-- Without the only member of the group, the others remain. -/
theorem erase_of_filter_eq_singleton (h : snapshots.filter (isOf description) = [snapshot]) :
    snapshots.erase snapshot = snapshots.filter fun other => !isOf description other := by
  induction snapshots with
  | nil => exact nomatch h
  | cons first rest ih =>
    rw [List.filter_cons] at h ⊢
    cases hfirst : isOf description first with
    | true =>
      rw [hfirst, if_pos rfl] at h
      obtain ⟨rfl, hrest⟩ := List.cons.inj h
      rw [List.erase_cons_head, Bool.not_true, if_neg Bool.false_ne_true]
      rw [eq_comm, List.filter_eq_self]
      intro other hother
      rw [Bool.not_eq_true']
      exact Bool.eq_false_iff.mpr (List.filter_eq_nil_iff.mp hrest other hother)
    | false =>
      rw [hfirst, if_neg Bool.false_ne_true] at h
      have hne : first ≠ snapshot := by
        intro heq
        have hmem : snapshot ∈ rest.filter (isOf description) := h ▸ List.mem_singleton_self _
        have hsnapshot := (List.mem_filter.mp hmem).2
        rw [← heq, hfirst] at hsnapshot
        exact nomatch hsnapshot
      rw [List.erase_cons_tail (by simpa using hne), ih h, Bool.not_false, if_pos rfl]

theorem filter_filter_not (snapshots : List Snapshot) :
    (snapshots.filter fun other => !isOf description other).filter (isOf description) = [] := by
  rw [List.filter_eq_nil_iff]
  intro other hother
  exact Bool.eq_false_iff.mp ((Bool.not_eq_true' _).mp (List.mem_filter.mp hother).2)

variable {engine : PromptEngine timeout} {vm : Removing}

/-- The state once the group is removed. -/
def Removing.without (vm : Removing) (description : Text) : Removing where
  snapshots := vm.snapshots.filter fun snapshot => !isOf description snapshot
  requests := vm.requests ++ vm.snapshots.filter (isOf description)

theorem without_of_filter_eq_nil (h : vm.snapshots.filter (isOf description) = []) :
    vm.without description = vm := by
  have hself : (vm.snapshots.filter fun snapshot => !isOf description snapshot) =
      vm.snapshots := by
    rw [List.filter_eq_self]
    intro other hother
    rw [Bool.not_eq_true']
    exact Bool.eq_false_iff.mpr (List.filter_eq_nil_iff.mp h other hother)
  unfold Removing.without
  rw [hself, h, List.append_nil]

/-- The only member of the group is removed. -/
theorem run_removeSnapshot_of_singleton
    (h : vm.snapshots.filter (isOf description) = [snapshot]) :
    (removeSnapshot engine.toRemovalEngine description timeout).run vm =
      .ok true (vm.without description) := by
  have hremaining : ¬ Contains description (vm.snapshots.erase snapshot) := by
    rw [contains_iff_filter_ne_nil, erase_of_filter_eq_singleton h, filter_filter_not]
    exact not_not_intro rfl
  have hwait : waitForSnapshotGone (engine.clock vm.requests.length)
      (removalSampler timeout (engine.listing vm.requests.length) vm.snapshots
        (vm.snapshots.erase snapshot)) description = .ok true :=
    waitForSnapshotGone_of_not_contains hremaining (engine.gone vm.requests.length)
  unfold removeSnapshot Removing.without
  rw [EStateM.run_bind]
  change EStateM.run (match VmSnapshots.findDescription description vm.snapshots with
    | none => _ | some snapshot => _) vm = _
  rw [findDescription_eq_head?, h]
  dsimp only [List.head?_cons]
  rw [engine.always_accepted, if_pos rfl, hwait, erase_of_filter_eq_singleton h]
  rfl

/-- One of several members of the group is asked to be removed, and the wait for it raises. -/
theorem run_removeSnapshot_of_several
    (h : vm.snapshots.filter (isOf description) = snapshot :: other :: rest) :
    (removeSnapshot engine.toRemovalEngine description timeout).run vm =
      .error .apiTimeout
        { snapshots := vm.snapshots.erase snapshot, requests := vm.requests ++ [snapshot] } := by
  have hbefore : Contains description vm.snapshots := by
    rw [contains_iff_filter_ne_nil, h]
    exact List.cons_ne_nil _ _
  have hremaining : Contains description (vm.snapshots.erase snapshot) := by
    rw [contains_iff_filter_ne_nil, ← List.erase_filter, h, List.erase_cons_head]
    exact List.cons_ne_nil _ _
  unfold removeSnapshot
  rw [EStateM.run_bind]
  change EStateM.run (match VmSnapshots.findDescription description vm.snapshots with
    | none => _ | some snapshot => _) vm = _
  rw [findDescription_eq_head?, h]
  dsimp only [List.head?_cons]
  rw [engine.always_accepted, if_pos rfl, waitForSnapshotGone_of_contains hbefore hremaining]
  rfl

end

/-! ## The loops -/

section

variable {engine : PromptEngine vmRemoveSnapshotTimeout} {vm : Removing} {snapshots : List Snapshot}
  {index : Nat}

theorem run_settle_bind {α : Type} {next : EStateM WaiterException Removing α} {final : Removing}
    {result : α} : ((do fromExcept (settle engine.toRemovalEngine index); next).run vm =
      .ok result final) ↔
        settle engine.toRemovalEngine index = .ok ⟨⟩ ∧ next.run vm = .ok result final := by
  rw [run_bind_eq_ok_iff]
  constructor
  · intro ⟨_, _, hrun, hnext⟩
    obtain ⟨hsettle, rfl⟩ := run_fromExcept_eq_ok_iff.mp hrun
    exact ⟨hsettle, hnext⟩
  · intro ⟨hsettle, hnext⟩
    exact ⟨⟨⟩, vm, run_fromExcept_eq_ok_iff.mpr ⟨hsettle, rfl⟩, hnext⟩

/-- A loop that returns has met no second member of the group, and all its waits have returned. -/
theorem of_run_removeLsm {results : List Bool} {final : Removing}
    (hgroup : snapshots.filter (isOf liveSnapshotDescription) =
      vm.snapshots.filter (isOf liveSnapshotDescription))
    (hrun : (removeLsm engine.toRemovalEngine index snapshots).run vm = .ok results final) :
    AtMostOne liveSnapshotDescription snapshots ∧
      ∀ i < snapshots.length, settle engine.toRemovalEngine (index + i) = .ok ⟨⟩ := by
  induction snapshots generalizing index vm results final with
  | nil => exact ⟨Nat.zero_le 1, nofun⟩
  | cons snapshot rest ih =>
    rw [removeLsm, run_bind_eq_ok_iff] at hrun
    obtain ⟨own, between, hown, hrun⟩ := hrun
    obtain ⟨hsettle, hrun⟩ := run_settle_bind.mp hrun
    obtain ⟨later, last, hlater, -⟩ := run_bind_eq_ok_iff.mp hrun
    unfold removeMember at hown
    unfold AtMostOne
    rw [List.filter_cons] at hgroup ⊢
    have hmember : (if isOf liveSnapshotDescription snapshot then
          snapshot :: rest.filter (isOf liveSnapshotDescription)
        else rest.filter (isOf liveSnapshotDescription)).length ≤ 1 ∧
        rest.filter (isOf liveSnapshotDescription) =
          between.snapshots.filter (isOf liveSnapshotDescription) := by
      cases hsnapshot : isOf liveSnapshotDescription snapshot with
      | true =>
        rw [hsnapshot, if_pos rfl] at hgroup
        rw [hsnapshot, if_pos rfl] at hown
        rw [if_pos rfl]
        obtain ⟨removed, after, hremoved, hown⟩ := run_bind_eq_ok_iff.mp hown
        cases hown
        cases hrest : rest.filter (isOf liveSnapshotDescription) with
        | nil =>
          rw [hrest] at hgroup
          rw [run_removeSnapshot_of_singleton hgroup.symm] at hremoved
          cases hremoved
          exact ⟨le_rfl, (filter_filter_not vm.snapshots).symm⟩
        | cons other more =>
          rw [hrest] at hgroup
          rw [run_removeSnapshot_of_several hgroup.symm] at hremoved
          exact nomatch hremoved
      | false =>
        rw [hsnapshot, if_neg Bool.false_ne_true] at hgroup hown
        cases hown
        rw [if_neg Bool.false_ne_true]
        exact ⟨(ih hgroup hlater).1, hgroup⟩
    refine ⟨hmember.1, fun i hi => ?_⟩
    cases i with
    | zero => exact hsettle
    | succ i =>
      rw [← Nat.succ_add_eq_add_succ]
      exact (ih hmember.2 hlater).2 i (Nat.lt_of_succ_lt_succ hi)

/-- Where the group has one member at most and all waits return, the loop removes it. -/
theorem run_removeLsm_of (hone : AtMostOne liveSnapshotDescription snapshots)
    (hgroup : snapshots.filter (isOf liveSnapshotDescription) =
      vm.snapshots.filter (isOf liveSnapshotDescription))
    (hsettle : ∀ i < snapshots.length, settle engine.toRemovalEngine (index + i) = .ok ⟨⟩) :
    ∃ results, (removeLsm engine.toRemovalEngine index snapshots).run vm =
        .ok results (vm.without liveSnapshotDescription) ∧ results.contains false = false := by
  induction snapshots generalizing index vm with
  | nil =>
    rw [without_of_filter_eq_nil hgroup.symm]
    exact ⟨[], rfl, rfl⟩
  | cons snapshot rest ih =>
    unfold AtMostOne at hone
    rw [List.filter_cons] at hgroup hone
    have hfirst : settle engine.toRemovalEngine index = .ok ⟨⟩ :=
      hsettle 0 (Nat.zero_lt_succ _)
    have hrest (i : Nat) (hi : i < rest.length) :
        settle engine.toRemovalEngine (index + 1 + i) = .ok ⟨⟩ := by
      rw [Nat.succ_add_eq_add_succ]
      exact hsettle (i + 1) (Nat.succ_lt_succ hi)
    rw [removeLsm]
    cases hsnapshot : isOf liveSnapshotDescription snapshot with
    | true =>
      rw [hsnapshot, if_pos rfl] at hgroup hone
      have hnil : rest.filter (isOf liveSnapshotDescription) = [] :=
        List.eq_nil_of_length_eq_zero (Nat.le_zero.mp (Nat.le_of_succ_le_succ hone))
      rw [hnil] at hgroup
      have hafter := @filter_filter_not liveSnapshotDescription vm.snapshots
      obtain ⟨later, hlater, hnone⟩ := @ih (vm.without liveSnapshotDescription) (index + 1)
        (by unfold AtMostOne; rw [hnil]; exact Nat.zero_le 1) (hnil.trans hafter.symm) hrest
      refine ⟨true :: later, ?_, hnone⟩
      apply run_bind_eq_ok_iff.mpr
      refine ⟨[true], vm.without liveSnapshotDescription, ?_, ?_⟩
      · unfold removeMember
        rw [hsnapshot, if_pos rfl, EStateM.run_bind,
          run_removeSnapshot_of_singleton hgroup.symm]
        rfl
      · apply run_settle_bind.mpr
        refine ⟨hfirst, ?_⟩
        rw [EStateM.run_bind, hlater, without_of_filter_eq_nil hafter]
        rfl
    | false =>
      rw [hsnapshot, if_neg Bool.false_ne_true] at hgroup hone
      obtain ⟨later, hlater, hnone⟩ := @ih vm (index + 1) hone hgroup hrest
      refine ⟨later, ?_, hnone⟩
      apply run_bind_eq_ok_iff.mpr
      refine ⟨[], vm, ?_, ?_⟩
      · unfold removeMember
        rw [hsnapshot, if_neg Bool.false_ne_true]
        rfl
      · apply run_settle_bind.mpr
        refine ⟨hfirst, ?_⟩
        rw [EStateM.run_bind, hlater]
        rfl

theorem removesGroup_removeAllVmLsmSnapshots_iff :
    RemovesGroup liveSnapshotDescription snapshots
        (removeAllVmLsmSnapshots engine.toRemovalEngine) ↔
      AtMostOne liveSnapshotDescription snapshots ∧
        LsmWaitsReturn engine.toRemovalEngine snapshots := by
  unfold RemovesGroup removeAllVmLsmSnapshots
  constructor
  · intro ⟨final, hrun, _, _⟩
    obtain ⟨stopped, _, hstop, hrun⟩ := run_bind_eq_ok_iff.mp hrun
    obtain ⟨hstopped, rfl⟩ := run_fromExcept_eq_ok_iff.mp hstop
    obtain ⟨status, _, hstat, hrun⟩ := run_bind_eq_ok_iff.mp hrun
    obtain ⟨hdisks, rfl⟩ := run_fromExcept_eq_ok_iff.mp hstat
    obtain ⟨vm, _, hget, hrun⟩ := run_bind_eq_ok_iff.mp hrun
    cases hget
    obtain ⟨results, _, hresults, _⟩ := run_bind_eq_ok_iff.mp hrun
    obtain ⟨hone, hsettle⟩ := of_run_removeLsm rfl hresults
    refine ⟨hone, ⟨stopped, hstopped⟩, ⟨status, hdisks⟩, ?_⟩
    simpa only [Nat.zero_add] using hsettle
  · intro ⟨hone, hwaits⟩
    obtain ⟨stopped, hstopped⟩ := hwaits.stopped
    obtain ⟨status, hdisks⟩ := hwaits.disks
    obtain ⟨results, hresults, hnone⟩ :=
      @run_removeLsm_of engine { snapshots := snapshots, requests := [] } snapshots 0 hone rfl
        (by simpa only [Nat.zero_add] using hwaits.settled)
    refine ⟨Removing.without ⟨snapshots, []⟩ liveSnapshotDescription, ?_, .refl _, rfl⟩
    rw [hstopped, hdisks]
    apply run_bind_eq_ok_iff.mpr ⟨_, _, rfl, ?_⟩
    apply run_bind_eq_ok_iff.mpr ⟨_, _, rfl, ?_⟩
    apply run_bind_eq_ok_iff.mpr ⟨_, _, rfl, ?_⟩
    apply run_bind_eq_ok_iff.mpr ⟨_, _, hresults, ?_⟩
    rw [hnone]
    rfl

end

section

variable {engine : PromptEngine removeSnapshotTimeout} {description : Text}
  {snapshots : List Snapshot}

/-- A second member of the group ends the function at the first. -/
theorem run_removeAllVmSnapshots_of_several {stopped : Bool} {snapshot other : Snapshot}
    {rest : List Snapshot} (hstopped : engine.stopVmsSafely = .ok stopped)
    (hgroup : snapshots.filter (isOf description) = snapshot :: other :: rest) :
    (removeAllVmSnapshots engine.toRemovalEngine description).run
        { snapshots := snapshots, requests := [] } =
      .error .apiTimeout { snapshots := snapshots.erase snapshot, requests := [snapshot] } := by
  unfold removeAllVmSnapshots
  rw [hstopped]
  change EStateM.run ((snapshots.filter (isOf description)).mapM _ >>= _) _ = _
  rw [hgroup, List.mapM_cons, EStateM.run_bind, EStateM.run_bind,
    run_removeSnapshot_of_several hgroup]
  rfl

theorem removesGroup_removeAllVmSnapshots_iff :
    RemovesGroup description snapshots (removeAllVmSnapshots engine.toRemovalEngine description) ↔
      AtMostOne description snapshots ∧ WaitsReturn engine.toRemovalEngine := by
  unfold RemovesGroup removeAllVmSnapshots AtMostOne
  constructor
  · intro ⟨final, hrun, _, _⟩
    obtain ⟨stopped, _, hstop, hrun⟩ := run_bind_eq_ok_iff.mp hrun
    obtain ⟨hstopped, rfl⟩ := run_fromExcept_eq_ok_iff.mp hstop
    obtain ⟨vm, _, hget, hrun⟩ := run_bind_eq_ok_iff.mp hrun
    cases hget
    obtain ⟨results, _, hresults, hrun⟩ := run_bind_eq_ok_iff.mp hrun
    obtain ⟨_, _, hwait, _⟩ := run_bind_eq_ok_iff.mp hrun
    obtain ⟨hjobs, rfl⟩ := run_fromExcept_eq_ok_iff.mp hwait
    refine ⟨?_, ⟨stopped, hstopped⟩, hjobs⟩
    cases hgroup : snapshots.filter (isOf description) with
    | nil => exact Nat.zero_le 1
    | cons snapshot rest =>
      cases rest with
      | nil => exact le_rfl
      | cons other rest =>
        rw [hgroup, List.mapM_cons] at hresults
        obtain ⟨_, _, hremoved, _⟩ := run_bind_eq_ok_iff.mp hresults
        rw [run_removeSnapshot_of_several hgroup] at hremoved
        exact nomatch hremoved
  · intro ⟨hone, ⟨stopped, hstopped⟩, hjobs⟩
    have hresults : ∃ results,
        ((snapshots.filter (isOf description)).mapM fun _ =>
          removeSnapshot engine.toRemovalEngine description removeSnapshotTimeout).run
            { snapshots := snapshots, requests := [] } =
          .ok results (Removing.without { snapshots := snapshots, requests := [] } description) ∧
        results.contains false = false := by
      cases hgroup : snapshots.filter (isOf description) with
      | nil =>
        rw [without_of_filter_eq_nil hgroup]
        exact ⟨[], rfl, rfl⟩
      | cons snapshot rest =>
        rw [hgroup, List.length_cons] at hone
        obtain rfl := List.eq_nil_of_length_eq_zero
          (Nat.le_zero.mp (Nat.le_of_succ_le_succ hone))
        refine ⟨[true], ?_, rfl⟩
        rw [List.mapM_cons]
        apply run_bind_eq_ok_iff.mpr
        exact ⟨true, _, run_removeSnapshot_of_singleton hgroup, rfl⟩
    obtain ⟨results, hresults, hnone⟩ := hresults
    refine ⟨Removing.without ⟨snapshots, []⟩ description, ?_, .refl _, rfl⟩
    rw [hstopped, hjobs]
    apply run_bind_eq_ok_iff.mpr ⟨_, _, rfl, ?_⟩
    apply run_bind_eq_ok_iff.mpr ⟨_, _, rfl, ?_⟩
    apply run_bind_eq_ok_iff.mpr ⟨_, _, hresults, ?_⟩
    apply run_bind_eq_ok_iff.mpr ⟨_, _, rfl, ?_⟩
    rw [hnone]
    rfl

end

/-- The two functions remove the group exactly if it has one member at most and the other waits
return. -/
theorem group_removal_iff (lsmEngine : PromptEngine vmRemoveSnapshotTimeout)
    (engine : PromptEngine removeSnapshotTimeout) (description : Text)
    (snapshots : List Snapshot) :
    (RemovesGroup liveSnapshotDescription snapshots
        (removeAllVmLsmSnapshots lsmEngine.toRemovalEngine) ↔
      AtMostOne liveSnapshotDescription snapshots ∧
        LsmWaitsReturn lsmEngine.toRemovalEngine snapshots) ∧
    (RemovesGroup description snapshots
        (removeAllVmSnapshots engine.toRemovalEngine description) ↔
      AtMostOne description snapshots ∧ WaitsReturn engine.toRemovalEngine) :=
  ⟨removesGroup_removeAllVmLsmSnapshots_iff, removesGroup_removeAllVmSnapshots_iff⟩

/-! ## A group of two -/

/-- Two snapshots of a live migration. -/
def firstLive : Snapshot where
  id := "s1".toList
  description := some liveSnapshotDescription
  snapshotStatus := "ok".toList

/-- A live snapshot with another id. -/
def secondLive : Snapshot := { firstLive with id := "s2".toList }

/-- An engine where removals are over at the first poll and no other wait takes long. -/
def promptEngine (timeout : ℚ≥0) : PromptEngine timeout where
  accepted := fun _ => true
  listing := fun _ _ => { result := false, duration := 0 }
  clock := fun _ => 0
  stopVmsSafely := .ok true
  waitForDisksStat := .ok true
  waitForJobs := fun _ => .ok ⟨⟩
  statesSampler := fun _ => alwaysLockedAndOk
  statesClock := fun _ => 0
  always_accepted := fun _ => rfl
  gone := fun _ => ⟨0, TimeoutingSampler.inTime_zero _ _, rfl⟩

/-- The first removal of two raises, and the second is not requested. -/
theorem second_of_group_not_removed :
    (removeAllVmSnapshots (promptEngine removeSnapshotTimeout).toRemovalEngine
        liveSnapshotDescription).run { snapshots := [firstLive, secondLive], requests := [] } =
      .error .apiTimeout { snapshots := [secondLive], requests := [firstLive] } ∧
    ¬ RemovesGroup liveSnapshotDescription [firstLive, secondLive]
      (removeAllVmSnapshots (promptEngine removeSnapshotTimeout).toRemovalEngine
        liveSnapshotDescription) ∧
    ¬ RemovesGroup liveSnapshotDescription [firstLive, secondLive]
      (removeAllVmLsmSnapshots (promptEngine vmRemoveSnapshotTimeout).toRemovalEngine) := by
  have hgroup : [firstLive, secondLive].filter (isOf liveSnapshotDescription) =
      [firstLive, secondLive] := by
    simp only [firstLive, secondLive, isOf, List.filter_cons, beq_self_eq_true, if_true,
      List.filter_nil]
  have hseveral : ¬ AtMostOne liveSnapshotDescription [firstLive, secondLive] := by
    unfold AtMostOne
    rw [hgroup]
    exact Nat.not_succ_le_self 1
  refine ⟨?_, fun h => ?_, fun h => ?_⟩
  · rw [run_removeAllVmSnapshots_of_several rfl hgroup, List.erase_cons_head]
  · exact hseveral (removesGroup_removeAllVmSnapshots_iff.mp h).1
  · exact hseveral (removesGroup_removeAllVmLsmSnapshots_iff.mp h).1

end OvirtArt.TestsLib.SnapshotWaiters
