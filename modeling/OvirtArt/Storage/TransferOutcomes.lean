import OvirtArt.Foundation.Collecting
import OvirtArt.Storage.TransferDisks

set_option autoImplicit false

/-!
# When the transfer of several disks raises

How the outcome of one transfer gets through `transfer_image`, the future and
`transfer_results`, and when `transfer_multiple_disks` raises as it should.

The lemmas follow the source from the inside out: one transfer, one future, all of them.  No
assumption is made of how many disks there are, or which of them have a snapshot.
-/

namespace OvirtArt.Storage

open OvirtArt.Foundation

/-- The computation raises. -/
def Raises {α : Type} (x : Except Fault α) : Prop := ∃ e, x = .error e

section

variable {α β : Type} {x : Except Fault α}

theorem raises_iff : Raises x ↔ ∀ a, x ≠ .ok a := by
  unfold Raises
  cases x with
  | ok a => simp
  | error e => simp

theorem not_raises_ok (a : α) : ¬ Raises (.ok a : Except Fault α) := by
  rintro ⟨e, h⟩
  cases h

theorem raises_error (e : Fault) : Raises (.error e : Except Fault α) := ⟨e, rfl⟩

theorem exists_ok_of_not_raises (h : ¬ Raises x) : ∃ a, x = .ok a := by
  cases x with
  | ok a => exact ⟨a, rfl⟩
  | error e => exact absurd (raises_error e) h

theorem raises_bind_iff {f : α → Except Fault β} :
    Raises (x >>= f) ↔ Raises x ∨ ∃ a, x = .ok a ∧ Raises (f a) := by
  cases x with
  | ok a =>
    have hx : ¬ Raises (.ok a : Except Fault α) := not_raises_ok a
    constructor
    · intro h
      exact Or.inr ⟨a, rfl, h⟩
    · rintro (h | ⟨b, hb, h⟩)
      · exact absurd h hx
      · obtain rfl := Except.ok.inj hb
        exact h
  | error e => exact iff_of_true (raises_error e) (Or.inl (raises_error e))

end

/-! ## One transfer -/

section

variable {engine : Engine} {direction : Direction}

/-- A transfer raises unless its outcome is the expected one and everything around it
goes well. -/
theorem transferImage_ok_iff {place : Nat} {args : TransferArgs} :
    transferImage engine direction place args = .ok () ↔
      ¬ Raises (engine.prepareForTransfer place) ∧
        moveImage engine direction args.snapshot args.positive place = .ok args.positive ∧
          ¬ Raises (engine.waitForDisksStatus place) := by
  unfold transferImage assertThat Raises
  simp only [Bind.bind, Pure.pure]
  cases engine.prepareForTransfer place with
  | error e => simp [Except.bind]
  | ok u =>
    cases moveImage engine direction args.snapshot args.positive place with
    | error e => simp [Except.bind]
    | ok done =>
      cases engine.waitForDisksStatus place with
      | error e => cases args.positive <;> cases done <;> simp [Except.bind]
      | ok b => cases args.positive <;> cases done <;> simp [Except.bind, Except.pure]

theorem exception_ne_none_iff {result : Future} :
    result.exception ≠ none ↔ result.outcome ≠ .ok () := by
  unfold Future.exception
  cases result.outcome with
  | ok u => simp
  | error e => simp

/-! ## The results -/

theorem logDisk_eq_ok {diskIds : List String} {index : Nat} (hindex : index < diskIds.length) :
    logDisk diskIds index = .ok () := by
  unfold logDisk diskIdAt
  rw [List.getElem?_eq_getElem hindex]
  rfl

theorem raises_checkException_iff {positive : Bool} {diskIds : List String} {index : Nat}
    {result : Future} (hindex : index < diskIds.length) :
    Raises (checkException positive diskIds index result) ↔
      positive = true ∧ result.outcome ≠ .ok () := by
  rw [← exception_ne_none_iff]
  unfold checkException
  cases result.exception with
  | none => simp [not_raises_ok]
  | some e =>
    cases positive with
    | true => simp [raises_error]
    | false => simp [logDisk_eq_ok hindex, not_raises_ok]

/-- Going through a result raises only if it is an exception where success was expected. -/
theorem raises_transferResult_iff {positive : Bool} {diskIds : List String} {index : Nat}
    {result : Future} (hindex : index < diskIds.length) :
    Raises (transferResult direction positive diskIds index result) ↔
      positive = true ∧ result.outcome ≠ .ok () := by
  have hresult : checkResult direction positive diskIds index result = .ok () := rfl
  have hlast : logSuccess direction diskIds index = .ok () := by
    cases direction with
    | download => exact logDisk_eq_ok hindex
    | upload => rfl
  unfold transferResult
  rw [raises_bind_iff, raises_checkException_iff hindex]
  refine or_iff_left ?_
  rintro ⟨_, _, hraises⟩
  rw [hresult, hlast] at hraises
  exact not_raises_ok () hraises

theorem raises_transferResultsFrom_iff {positive : Bool} {diskIds : List String} :
    ∀ {results : List Future} {index : Nat}, index + results.length ≤ diskIds.length →
      (Raises (transferResultsFrom direction positive diskIds index results) ↔
        positive = true ∧ ∃ result ∈ results, result.outcome ≠ .ok ())
  | [], index, _ => by simp [transferResultsFrom, not_raises_ok]
  | result :: results, index, hlength => by
      rw [List.length_cons] at hlength
      have hfirst := @raises_transferResult_iff direction positive diskIds index result (by omega)
      have hrest := @raises_transferResultsFrom_iff positive diskIds results (index + 1) (by omega)
      unfold transferResultsFrom
      rw [raises_bind_iff, hfirst]
      constructor
      · rintro (⟨hpositive, hresult⟩ | ⟨_, _, hraises⟩)
        · exact ⟨hpositive, result, List.mem_cons_self, hresult⟩
        · obtain ⟨hpositive, other, hother, hoften⟩ := hrest.mp hraises
          exact ⟨hpositive, other, List.mem_cons_of_mem _ hother, hoften⟩
      · rintro ⟨hpositive, other, hother, houtcome⟩
        by_cases hresult : result.outcome = .ok ()
        · have hok : ¬ Raises (transferResult direction positive diskIds index result) :=
            fun h => (hfirst.mp h).2 hresult
          obtain ⟨u, hu⟩ := exists_ok_of_not_raises hok
          refine Or.inr ⟨u, hu, hrest.mpr ⟨hpositive, other, ?_, houtcome⟩⟩
          rcases List.mem_cons.mp hother with rfl | hmem
          · exact absurd hresult houtcome
          · exact hmem
        · exact Or.inl ⟨hpositive, hresult⟩

/-! ## The transfers that are started -/

/-- The transfers that the calls lead to, counted from this place on. -/
def futures (engine : Engine) (direction : Direction) (place : Nat)
    (calls : List TransferArgs) : List Future :=
  calls.mapIdx fun i args => ⟨transferImage engine direction (place + i) args⟩

/-- The loop comes to its end exactly if nothing raises on the way to a transfer, and has
then started one for each disk. -/
theorem startTransfers_ok_iff :
    ∀ {calls : List (Except Fault TransferArgs)} {place : Nat} {started last : Started},
      startTransfers engine direction place calls started = .ok last ↔
        ∃ all : List TransferArgs, calls = all.map .ok ∧
          last = { diskIds := started.diskIds ++ all.map (·.imageId)
                   outputPath := started.outputPath ++ all.map (·.imagePath)
                   results := started.results ++ futures engine direction place all }
  | [], place, started, last => by
      unfold startTransfers futures
      constructor
      · intro h
        obtain rfl := Except.ok.inj h
        exact ⟨[], rfl, by simp⟩
      · rintro ⟨all, hall, rfl⟩
        obtain rfl := List.map_eq_nil_iff.mp hall.symm
        simp
  | .error e :: calls, place, started, last => by
      unfold startTransfers
      refine iff_of_false (fun h => by cases h) ?_
      rintro ⟨all, hall, _⟩
      cases all with
      | nil => cases hall
      | cons args all => cases hall
  | .ok args :: calls, place, started, last => by
      unfold startTransfers
      refine Iff.trans startTransfers_ok_iff ?_
      have hfutures : ∀ all, futures engine direction place (args :: all) =
          ⟨transferImage engine direction place args⟩ ::
            futures engine direction (place + 1) all := by
        intro all
        unfold futures
        rw [List.mapIdx_cons]
        congr 2
        funext i other
        rw [Nat.add_right_comm, Nat.add_assoc]
      constructor
      · rintro ⟨all, rfl, rfl⟩
        exact ⟨args :: all, rfl, by simp [hfutures]⟩
      · rintro ⟨all, hall, rfl⟩
        cases all with
        | nil => cases hall
        | cons other all =>
          obtain ⟨hother, hrest⟩ := List.cons.inj hall
          obtain rfl := Except.ok.inj hother
          exact ⟨all, hrest, by simp [hfutures]⟩

end

/-! ## All transfers -/

section

variable (engine : Engine) (direction : Direction) (args : MultipleArgs)

/-- The disks of a snapshot are downloaded. -/
def snapshotDownload : Bool :=
  match direction with
  | .download => args.snapshot
  | .upload => false

/-- The call to `transfer_image` for each disk, or what is raised on the way to it. -/
def transferCalls : List (Except Fault TransferArgs) :=
  match direction, args.snapshot with
  | .download, true => args.sdiskObjs.mapIdx (snapshotCall engine args)
  | .download, false => args.diskNames.mapIdx (downloadCall engine args)
  | .upload, _ => args.diskNames.mapIdx (uploadCall engine args)

/-- How many disks there are to transfer. -/
def diskCount : Nat :=
  if snapshotDownload direction args then args.sdiskObjs.length else args.diskNames.length

/-- What the download or the upload of the disk at this place gives. -/
def moved (place : Nat) : Except Fault Bool :=
  moveImage engine direction (snapshotDownload direction args) args.positive place

/-- Something raises on the way to a transfer. -/
def Refused : Prop :=
  Raises (engine.executor (diskCount direction args)) ∨
    ∃ call ∈ transferCalls engine direction args, Raises call

/-- The transfer of the disk at this place is started, and its download or upload
returns true. -/
def Succeeds (place : Nat) : Prop :=
  ¬ Raises (engine.executor (diskCount direction args)) ∧
    (∀ i ≤ place, ∀ call, (transferCalls engine direction args)[i]? = some call →
      ¬ Raises call) ∧
    ¬ Raises (engine.prepareForTransfer place) ∧ moved engine direction args place = .ok true

/-- The outcomes of the transfers call for an exception. -/
def ShouldRaise : Prop :=
  if args.positive then ∃ i < diskCount direction args, ¬ Succeeds engine direction args i
  else ∃ i < diskCount direction args, Succeeds engine direction args i

/-- Where the outcomes decide.  With success expected, the executor for no disks must not
raise; once all transfers are started, those of a snapshot have to succeed all, and
others must not raise after they have succeeded.  With failure expected, a transfer
succeeds exactly where something raises on the way to another. -/
def OutcomesDecide : Prop :=
  if args.positive then
    (Refused engine direction args → 0 < diskCount direction args) ∧
      (¬ Refused engine direction args →
        if snapshotDownload direction args then
          ∀ i < diskCount direction args, Succeeds engine direction args i
        else
          (∀ i < diskCount direction args, Succeeds engine direction args i) →
            ∀ i < diskCount direction args, ¬ Raises (engine.waitForDisksStatus i))
  else
    Refused engine direction args ↔
      ∃ i < diskCount direction args, Succeeds engine direction args i

end

section

variable {engine : Engine} {direction : Direction} {args : MultipleArgs}

theorem length_transferCalls :
    (transferCalls engine direction args).length = diskCount direction args := by
  unfold transferCalls diskCount snapshotDownload
  cases direction with
  | download => cases args.snapshot <;> simp
  | upload => simp

/-- Every transfer is told whether the disks are those of a snapshot, and what is expected. -/
theorem flags_of_mem_transferCalls {call : TransferArgs}
    (hcall : .ok call ∈ transferCalls engine direction args) :
    call.snapshot = snapshotDownload direction args ∧ call.positive = args.positive := by
  unfold transferCalls at hcall
  cases direction with
  | download =>
    cases hsnapshot : args.snapshot with
    | true =>
      simp only [hsnapshot, List.mem_mapIdx] at hcall
      obtain ⟨i, hi, h⟩ := hcall
      obtain ⟨_, _, h⟩ := bind_eq_ok_iff.mp h
      obtain ⟨_, _, h⟩ := bind_eq_ok_iff.mp h
      obtain rfl := Except.ok.inj h
      exact ⟨hsnapshot.symm, rfl⟩
    | false =>
      simp only [hsnapshot, List.mem_mapIdx] at hcall
      obtain ⟨i, hi, h⟩ := hcall
      obtain ⟨_, _, h⟩ := bind_eq_ok_iff.mp h
      obtain ⟨_, _, h⟩ := bind_eq_ok_iff.mp h
      obtain ⟨_, _, h⟩ := bind_eq_ok_iff.mp h
      obtain rfl := Except.ok.inj h
      exact ⟨hsnapshot.symm, rfl⟩
  | upload =>
    simp only [List.mem_mapIdx] at hcall
    obtain ⟨i, hi, h⟩ := hcall
    obtain ⟨_, _, h⟩ := bind_eq_ok_iff.mp h
    obtain ⟨_, _, h⟩ := bind_eq_ok_iff.mp h
    obtain ⟨_, _, h⟩ := bind_eq_ok_iff.mp h
    obtain rfl := Except.ok.inj h
    exact ⟨rfl, rfl⟩

theorem exists_map_ok_of_not_raises {calls : List (Except Fault TransferArgs)}
    (h : ¬ ∃ call ∈ calls, Raises call) : ∃ all : List TransferArgs, calls = all.map .ok := by
  induction calls with
  | nil => exact ⟨[], rfl⟩
  | cons call calls ih =>
    obtain ⟨all, hall⟩ := ih fun ⟨other, hother, hraises⟩ =>
      h ⟨other, List.mem_cons_of_mem _ hother, hraises⟩
    obtain ⟨args, hargs⟩ := exists_ok_of_not_raises fun hraises =>
      h ⟨call, List.mem_cons_self, hraises⟩
    exact ⟨args :: all, by rw [hall, hargs, List.map_cons]⟩

/-- One of the transfers raises: in terms of what it depends on. -/
theorem raises_futures_iff {all : List TransferArgs}
    (hall : transferCalls engine direction args = all.map .ok) :
    (∃ result ∈ futures engine direction 0 all, result.outcome ≠ .ok ()) ↔
      ∃ i < diskCount direction args,
        Raises (engine.prepareForTransfer i) ∨
          moved engine direction args i ≠ .ok args.positive ∨
            Raises (engine.waitForDisksStatus i) := by
  have hlength : all.length = diskCount direction args := by
    rw [← length_transferCalls, hall, List.length_map]
  have houtcome : ∀ i (hi : i < all.length),
      transferImage engine direction i all[i] ≠ .ok () ↔
        Raises (engine.prepareForTransfer i) ∨
          moved engine direction args i ≠ .ok args.positive ∨
            Raises (engine.waitForDisksStatus i) := by
    intro i hi
    obtain ⟨hsnapshot, hpositive⟩ := @flags_of_mem_transferCalls engine direction args all[i]
      (hall ▸ List.mem_map_of_mem (List.getElem_mem hi))
    rw [ne_eq, transferImage_ok_iff, hsnapshot, hpositive, not_and_or, not_and_or, not_not, not_not]
    rfl
  unfold futures
  simp only [List.mem_mapIdx, Nat.zero_add, ← hlength]
  constructor
  · rintro ⟨_, ⟨i, hi, rfl⟩, hresult⟩
    exact ⟨i, hi, (houtcome i hi).mp hresult⟩
  · rintro ⟨i, hi, hraises⟩
    exact ⟨_, ⟨i, hi, rfl⟩, (houtcome i hi).mpr hraises⟩

/-- What is done with the results of the transfers. -/
def lookAtResults (direction : Direction) (args : MultipleArgs) (started : Started) :
    Except Fault Unit :=
  if snapshotDownload direction args then .ok ()
  else transferResults direction args.positive started.results started.diskIds

/-- The same for the three loops over the disks. -/
theorem transferMultipleDisks_eq :
    transferMultipleDisks engine direction args =
      (do
        engine.executor (diskCount direction args)
        let started ← startTransfers engine direction 0 (transferCalls engine direction args) {}
        lookAtResults direction args started
        pure started.outputPath) := by
  unfold transferMultipleDisks transferCalls diskCount lookAtResults snapshotDownload
  cases direction with
  | download => cases args.snapshot <;> rfl
  | upload => rfl

/-- What is refused raises. -/
theorem raises_of_refused (h : Refused engine direction args) :
    Raises (transferMultipleDisks engine direction args) := by
  rw [transferMultipleDisks_eq, raises_bind_iff]
  by_cases hexecutor : Raises (engine.executor (diskCount direction args))
  · exact Or.inl hexecutor
  · obtain ⟨u, hu⟩ := exists_ok_of_not_raises hexecutor
    refine Or.inr ⟨u, hu, raises_bind_iff.mpr (Or.inl ?_)⟩
    obtain ⟨call, hcall, hraises⟩ := h.resolve_left hexecutor
    rw [raises_iff]
    intro last hlast
    obtain ⟨all, hall, _⟩ := startTransfers_ok_iff.mp hlast
    rw [hall] at hcall
    obtain ⟨args, _, rfl⟩ := List.mem_map.mp hcall
    exact not_raises_ok args hraises

/-- Once all transfers are started, the call raises exactly if the results are looked at,
success was expected, and one of the transfers raises. -/
theorem raises_iff_of_not_refused (h : ¬ Refused engine direction args) :
    Raises (transferMultipleDisks engine direction args) ↔
      snapshotDownload direction args = false ∧ args.positive = true ∧
        ∃ i < diskCount direction args,
          Raises (engine.prepareForTransfer i) ∨ moved engine direction args i ≠ .ok true ∨
            Raises (engine.waitForDisksStatus i) := by
  obtain ⟨hexecutor, hcalls⟩ := not_or.mp h
  obtain ⟨u, hu⟩ := exists_ok_of_not_raises hexecutor
  obtain ⟨all, hall⟩ := exists_map_ok_of_not_raises hcalls
  obtain ⟨last, hlast⟩ : ∃ last : Started, last =
      { diskIds := [] ++ all.map (·.imageId)
        outputPath := [] ++ all.map (·.imagePath)
        results := [] ++ futures engine direction 0 all } := ⟨_, rfl⟩
  have hstart : startTransfers engine direction 0 (transferCalls engine direction args) {} =
      .ok last := startTransfers_ok_iff.mpr ⟨all, hall, hlast⟩
  have hlook : Raises (transferMultipleDisks engine direction args) ↔
      Raises (lookAtResults direction args last) := by
    rw [transferMultipleDisks_eq, hu]
    change Raises (startTransfers engine direction 0 (transferCalls engine direction args) {} >>=
      fun started => lookAtResults direction args started >>= fun _ => .ok started.outputPath) ↔ _
    rw [hstart]
    change Raises (lookAtResults direction args last >>= fun _ => .ok last.outputPath) ↔ _
    refine raises_bind_iff.trans (or_iff_left ?_)
    rintro ⟨_, _, hraises⟩
    exact not_raises_ok _ hraises
  have hresults : last.results = futures engine direction 0 all := by
    rw [hlast]
    rfl
  have hids : last.results.length ≤ last.diskIds.length := by
    simp [hlast, futures]
  rw [hlook]
  unfold lookAtResults
  cases hsnapshot : snapshotDownload direction args with
  | true => simp [not_raises_ok]
  | false =>
    simp only [Bool.false_eq_true, if_false, true_and]
    unfold transferResults
    rw [raises_transferResultsFrom_iff (by omega)]
    refine and_congr_right fun hpositive => ?_
    rw [hresults, raises_futures_iff hall, hpositive]

/-- In terms of the outcomes, once all transfers are started. -/
theorem succeeds_iff_of_not_refused (h : ¬ Refused engine direction args) (place : Nat) :
    Succeeds engine direction args place ↔
      ¬ Raises (engine.prepareForTransfer place) ∧
        moved engine direction args place = .ok true := by
  obtain ⟨hexecutor, hcalls⟩ := not_or.mp h
  unfold Succeeds
  rw [and_iff_right hexecutor, and_iff_right]
  intro i _ call hcall hraises
  exact hcalls ⟨call, List.mem_of_getElem? hcall, hraises⟩

/-- A transfer that was not started has not succeeded, where there is one at all. -/
theorem exists_not_succeeds_of_refused (h : Refused engine direction args)
    (hcount : 0 < diskCount direction args) :
    ∃ i < diskCount direction args, ¬ Succeeds engine direction args i := by
  rcases h with hexecutor | ⟨call, hcall, hraises⟩
  · exact ⟨0, hcount, fun hsucceeds => hsucceeds.1 hexecutor⟩
  · obtain ⟨i, hi, rfl⟩ := List.getElem_of_mem hcall
    rw [length_transferCalls] at hi
    refine ⟨i, hi, fun hsucceeds => ?_⟩
    exact hsucceeds.2.1 i (Nat.le_refl _) _ (List.getElem?_eq_getElem _) hraises

end

/-- An exception for every transfer that does not succeed, and for no other. -/
theorem raises_as_expected_iff {count : Nat} {around succeeds late : Nat → Prop} :
    ((∃ i < count, around i ∨ ¬ succeeds i ∨ late i) ↔
        ∃ i < count, ¬ (¬ around i ∧ succeeds i)) ↔
      ((∀ i < count, ¬ around i ∧ succeeds i) → ∀ i < count, ¬ late i) := by
  constructor
  · intro h hall i hi hlate
    obtain ⟨j, hj, hnot⟩ := h.mp ⟨i, hi, Or.inr (Or.inr hlate)⟩
    exact hnot (hall j hj)
  · intro h
    constructor
    · rintro ⟨i, hi, hraises⟩
      by_contra hnone
      have hall : ∀ j < count, ¬ around j ∧ succeeds j := fun j hj =>
        not_not.mp fun hnot => hnone ⟨j, hj, hnot⟩
      rcases hraises with haround | hfails | hlate
      · exact (hall i hi).1 haround
      · exact hfails (hall i hi).2
      · exact h hall i hi hlate
    · rintro ⟨i, hi, hnot⟩
      refine ⟨i, hi, ?_⟩
      by_cases haround : around i
      · exact Or.inl haround
      · exact Or.inr (Or.inl fun hsucceeds => hnot ⟨haround, hsucceeds⟩)

/-- `transfer_multiple_disks` raises as the outcomes of its transfers call for exactly
where they decide. -/
theorem raises_iff_shouldRaise_iff (engine : Engine) (direction : Direction)
    (args : MultipleArgs) :
    (Raises (transferMultipleDisks engine direction args) ↔ ShouldRaise engine direction args) ↔
      OutcomesDecide engine direction args := by
  unfold ShouldRaise OutcomesDecide
  by_cases hrefused : Refused engine direction args
  · -- Whatever was started before, the call raises.
    have hraises := raises_of_refused hrefused
    cases hpositive : args.positive with
    | false => simp [hraises, hrefused]
    | true =>
      simp only [hraises, hrefused, if_true, true_iff, not_true, false_imp_iff, and_true,
        true_imp_iff]
      constructor
      · rintro ⟨i, hi, _⟩
        omega
      · exact exists_not_succeeds_of_refused hrefused
  · rw [raises_iff_of_not_refused hrefused]
    have hsucceeds := succeeds_iff_of_not_refused hrefused
    cases hpositive : args.positive with
    | false => simp [hrefused]
    | true =>
      simp only [hrefused, if_true, false_imp_iff, true_and, not_false_iff, true_imp_iff]
      cases hsnapshot : snapshotDownload direction args with
      | true => simp [hsucceeds]
      | false =>
        simp only [hsucceeds, Bool.false_eq_true, if_false, true_and]
        exact raises_as_expected_iff

/-- One disk, whose download returns true. -/
def oneDownload : Engine where
  executor _ := .ok ()
  diskId _ := .ok "disk"
  diskSpace _ := .ok ()
  prepareForTransfer _ := .ok ()
  downloadDisk _ := .ok true
  downloadDiskSnapshot _ := .ok false
  uploadDisk _ := .ok true
  waitForDisksStatus _ := .ok true

/-- A download that succeeds where it was expected to fail goes unnoticed. -/
theorem unexpected_success_unnoticed :
    ¬ ∀ (engine : Engine) (direction : Direction) (args : MultipleArgs),
      (Raises (transferMultipleDisks engine direction args) ↔
        ShouldRaise engine direction args) := by
  intro hall
  have h := hall oneDownload .download
    { diskNames := ["disk"], sizesBefore := some [1], positive := false }
  refine not_raises_ok _ (h.mpr ⟨0, by decide, not_raises_ok (), ?_, not_raises_ok (), rfl⟩)
  intro i hi call hcall
  obtain rfl : i = 0 := by omega
  obtain rfl := Option.some.inj hcall
  exact not_raises_ok _

end OvirtArt.Storage
