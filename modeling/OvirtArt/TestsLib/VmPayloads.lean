import OvirtArt.Foundation.Collecting
import OvirtArt.TestsLib.BuiltVm

set_option autoImplicit false

/-!
# The payloads of a VM

The builder makes one `Files` object before its loop over the payloads, and gives it to each of
them.  So each payload has the files of all of them at the end.

Only the sharing is at stake here: the files themselves are any lists of names with contents.
-/

namespace OvirtArt.TestsLib.VmBuilder

open OvirtArt.CoreApi OvirtArt.Foundation

/-- One payload for each entry, in their order, which holds the file of the entry and no
other. -/
def HoldsOwnFiles (payloads : List PayloadArg) (vm : Vm (List File)) : Prop :=
  vm.payloads.getD []
    = payloads.map fun payload => { type := payload.type, files := [payload.file] }

variable {engine : Engine} {kwargs : VmKwargs} {payloads : List PayloadArg} {s t : Session}

theorem payloads_of_builtVm {given : List Value} {vm : Vm (List File)}
    (h : builtVm engine kwargs given = .ok vm) : vm.payloads = sharedPayloads kwargs := by
  unfold builtVm at h
  obtain ⟨first, -, h⟩ := bind_eq_ok_iff.mp h
  obtain ⟨policy, -, h⟩ := bind_eq_ok_iff.mp h
  obtain ⟨middle, -, h⟩ := bind_eq_ok_iff.mp h
  obtain ⟨last, -, h⟩ := bind_eq_ok_iff.mp h
  rw [← Except.ok.inj h]

theorem getD_sharedPayloads (h : kwargs.payloads = some payloads) :
    (sharedPayloads kwargs).getD [] = payloads.map fun payload =>
      { type := payload.type, files := payloads.map PayloadArg.file } := by
  unfold sharedPayloads
  rw [h]
  cases payloads with
  | nil => rfl
  | cons payload rest => rfl

/-- Each payload of the VM holds the files of all the entries. -/
theorem payloads_hold_all_files {vm : Vm Nat} (hpayloads : kwargs.payloads = some payloads)
    (h : (prepareVmObject engine kwargs).run s = .ok vm t) :
    (vm.resolve t.files).payloads.getD [] = payloads.map fun payload =>
      { type := payload.type, files := payloads.map PayloadArg.file } := by
  obtain ⟨result, u, hruns, hbuilt, -⟩ := runs_prepareVmObject engine kwargs s
  obtain ⟨rfl, rfl⟩ := hruns.eq_of_ok h
  rw [payloads_of_builtVm hbuilt.symm, getD_sharedPayloads hpayloads]

/-- The payloads hold their own files exactly if there is at most one of them. -/
theorem payloads_hold_own_files_iff {vm : Vm Nat} (hpayloads : kwargs.payloads = some payloads)
    (h : (prepareVmObject engine kwargs).run s = .ok vm t) :
    HoldsOwnFiles payloads (vm.resolve t.files) ↔ payloads.length ≤ 1 := by
  unfold HoldsOwnFiles
  rw [payloads_hold_all_files hpayloads h]
  cases payloads with
  | nil => exact iff_of_true rfl (Nat.zero_le 1)
  | cons payload rest =>
    cases rest with
    | nil => exact iff_of_true rfl (Nat.le_refl 1)
    | cons other rest =>
      refine iff_of_false (fun hsame => ?_) (by simp)
      have hfirst := (List.cons.inj hsame).1
      have hfiles := congrArg (fun payload => payload.files.length) hfirst
      simp at hfiles

/-! ## Two VMs -/

/-- An engine that finds nothing. -/
def emptyEngine : Engine where
  printer := { floatStr := fun _ => [], floatRepr := fun _ => [], objectStr := fun _ => [] }
  enums := fun _ => none
  vms := .ok []
  vmSnapshot := fun _ _ => .error .entityNotFound
  findTemplate := fun _ => .error .entityNotFound
  templateObj := fun _ _ => .ok .none
  findCluster := fun _ _ => .error .entityNotFound
  findInstanceType := fun _ => .error .entityNotFound
  storageDomainObj := fun _ => .error .entityNotFound
  findHost := fun _ => .error .entityNotFound
  findStorageDomain := fun _ => .error .entityNotFound

/-- A session without objects. -/
def newSession : Session where
  lists := { next := 0, items := fun _ => [] }
  files := { next := 0, items := fun _ => [] }
  sent := []

/-- A payload on a floppy. -/
def floppy (fname content : String) : PayloadArg where
  type := str "floppy"
  fname := str fname
  fileContent := str content

/-- The arguments with these payloads alone. -/
def withPayloads (payloads : List PayloadArg) : VmKwargs where
  options := fun _ => none
  payloads := some payloads

theorem one_payload_holds_own_file :
    ∃ vm t, (prepareVmObject emptyEngine (withPayloads [floppy "a.txt" "a"])).run newSession
        = .ok vm t
      ∧ HoldsOwnFiles [floppy "a.txt" "a"] (vm.resolve t.files) := by
  have hreturns : ∃ vm t,
      (prepareVmObject emptyEngine (withPayloads [floppy "a.txt" "a"])).run newSession
        = .ok vm t := ⟨_, _, rfl⟩
  obtain ⟨vm, t, hrun⟩ := hreturns
  exact ⟨vm, t, hrun, (payloads_hold_own_files_iff rfl hrun).mpr (by decide)⟩

/-- Of two payloads the first holds the file of the second as well. -/
theorem two_payloads_share_files :
    ∃ vm t, (prepareVmObject emptyEngine
          (withPayloads [floppy "a.txt" "a", floppy "b.txt" "b"])).run newSession = .ok vm t
      ∧ ¬ HoldsOwnFiles [floppy "a.txt" "a", floppy "b.txt" "b"] (vm.resolve t.files) := by
  refine ⟨_, _, rfl, fun h => ?_⟩
  have hfirst := (List.cons.inj h).1
  have hfiles := congrArg (fun payload => payload.files.length) hfirst
  exact absurd hfiles (by decide)

end OvirtArt.TestsLib.VmBuilder
