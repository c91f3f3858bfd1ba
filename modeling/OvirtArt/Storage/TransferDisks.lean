import Mathlib.Init

set_option autoImplicit false

/-!
# `tests_lib/high_level/streaming_api.py`: the transfer of several disks

`transfer_multiple_disks` starts one transfer in a thread for each disk, and
`transfer_results` goes through what came of them.  What the engine answers, for
each disk in its place in the list, is a world.

The order in which the threads run is left out, since `transfer_results` looks at each future by
its place.  The percentage of bad transfers is a predicate that stands for the floating point
test.
-/

namespace OvirtArt.Storage

/-! ## What a transfer depends on -/

/-- The exceptions of the transfer of several disks. -/
inductive Fault where
  | assertionError (message : String)
  /-- `exceptions.DiskException(message, disk_id)`. -/
  | diskException (message diskId : String)
  | indexError
  | typeError
  /-- What any other call raises. -/
  | raised (description : String)
  deriving DecidableEq

/-- Which way a disk is transferred. -/
inductive Direction where
  | download
  | upload
  deriving DecidableEq

/-- The answers to the calls for the disk at each place in the list. -/
structure Engine where
  /-- `ThreadPoolExecutor(max_workers)`. -/
  executor : Nat → Except Fault Unit
  /-- `ll_disks.get_disk_obj(disk).get_id()`. -/
  diskId : Nat → Except Fault String
  /-- `check_disk_space_before_download_image`. -/
  diskSpace : Nat → Except Fault Unit
  prepareForTransfer : Nat → Except Fault Unit
  downloadDisk : Nat → Except Fault Bool
  downloadDiskSnapshot : Nat → Except Fault Bool
  uploadDisk : Nat → Except Fault Bool
  /-- `ll_disks.wait_for_disks_status`, whose value nobody looks at. -/
  waitForDisksStatus : Nat → Except Fault Bool

/-- The arguments of `transfer_image` that it passes on or depends on. -/
structure TransferArgs where
  imageId : String
  imagePath : String
  transferSize : Nat
  positive : Bool
  snapshot : Bool := false
  pause : Bool := false
  interrupt : Bool := false
  vmName : Option String := none
  diskName : Option String := none

/-- The disk of a snapshot. -/
structure SnapshotDisk where
  imageId : String
  getAlias : String

/-- The arguments of `transfer_multiple_disks`. -/
structure MultipleArgs where
  diskNames : List String := []
  sizesBefore : Option (List Nat) := none
  positive : Bool := true
  snapshot : Bool := false
  sdiskObjs : List SnapshotDisk := []
  pause : Bool := false
  interrupt : Bool := false
  vmName : Option String := none

/-! ## One transfer -/

/-- `assert`. -/
def assertThat (condition : Bool) (message : String) : Except Fault Unit :=
  if condition then .ok () else .error (.assertionError message)

/-- The download or the upload itself. -/
def moveImage (engine : Engine) (direction : Direction) (snapshot positive : Bool)
    (place : Nat) : Except Fault Bool :=
  match direction with
  | .download =>
    if snapshot && positive then engine.downloadDiskSnapshot place
    else engine.downloadDisk place
  | .upload => engine.uploadDisk place

/-- What the assertion of `transfer_image` says when it fails. -/
def transferMessage (direction : Direction) (args : TransferArgs) : String :=
  match direction with
  | .download =>
    if args.snapshot && args.positive then
      "Download disk snapshot id " ++ args.imageId ++ " failed"
    else if args.positive then "Download disk " ++ args.imageId ++ " failed"
    else "Download disk " ++ args.imageId ++ " succeeded"
  | .upload =>
    if args.positive then "Upload disk " ++ args.imagePath ++ " failed"
    else "Upload disk " ++ args.imagePath ++ " succeeded"

/-- `transfer_image`. -/
def transferImage (engine : Engine) (direction : Direction) (place : Nat)
    (args : TransferArgs) : Except Fault Unit := do
  engine.prepareForTransfer place
  let done ← moveImage engine direction args.snapshot args.positive place
  assertThat (if args.positive then done else !done) (transferMessage direction args)
  let _ ← engine.waitForDisksStatus place
  pure ()

/-- What `executor.submit` returns for a transfer: its end. -/
structure Future where
  outcome : Except Fault Unit

namespace Future

/-- `result.exception()`. -/
def exception (result : Future) : Option Fault :=
  match result.outcome with
  | .ok _ => none
  | .error e => some e

/-- The attribute `result.result`: a bound method, which is true whatever came of the
transfer. -/
def result (_ : Future) : Bool := true

end Future

/-! ## The results -/

/-- `disk_ids[index]`. -/
def diskIdAt (diskIds : List String) (index : Nat) : Except Fault String :=
  match diskIds[index]? with
  | some diskId => .ok diskId
  | none => .error .indexError

/-- A message to the log that names the disk. -/
def logDisk (diskIds : List String) (index : Nat) : Except Fault Unit :=
  (diskIdAt diskIds index).map fun _ => ()

/-- What `transfer_results` says about a result that is not true. -/
def resultMessage : Direction → String
  | .download => "Download disk id %s failed"
  | .upload => "Upload image id %s failed"

/-- The first part of a turn: what the exception of a transfer leads to. -/
def checkException (positive : Bool) (diskIds : List String) (index : Nat)
    (result : Future) : Except Fault Unit :=
  match result.exception with
  | some e => if positive then .error e else logDisk diskIds index
  | none => .ok ()

/-- The second part: what a result that is not true leads to. -/
def checkResult (direction : Direction) (positive : Bool) (diskIds : List String) (index : Nat)
    (result : Future) : Except Fault Unit :=
  if result.result then .ok ()
  else if positive then
    (diskIdAt diskIds index).bind fun diskId =>
      .error (.diskException (resultMessage direction) diskId)
  else logDisk diskIds index

/-- The last part, of downloads only. -/
def logSuccess (direction : Direction) (diskIds : List String) (index : Nat) :
    Except Fault Unit :=
  match direction with
  | .download => logDisk diskIds index
  | .upload => .ok ()

/-- One turn of the loop of `transfer_results`. -/
def transferResult (direction : Direction) (positive : Bool) (diskIds : List String)
    (index : Nat) (result : Future) : Except Fault Unit := do
  checkException positive diskIds index result
  checkResult direction positive diskIds index result
  logSuccess direction diskIds index

/-- `transfer_results`, from this index on. -/
def transferResultsFrom (direction : Direction) (positive : Bool) (diskIds : List String) :
    Nat → List Future → Except Fault Unit
  | _, [] => .ok ()
  | index, result :: results => do
      transferResult direction positive diskIds index result
      transferResultsFrom direction positive diskIds (index + 1) results

/-- `transfer_results`. -/
def transferResults (direction : Direction) (positive : Bool) (results : List Future)
    (diskIds : List String) : Except Fault Unit :=
  transferResultsFrom direction positive diskIds 0 results

/-! ## Several disks -/

/-- `FILE_PATH`, with the home directory as it is written. -/
def filePath : String := "~/download/"

/-- `UPLOAD_FILES_LOCALHOST`. -/
def uploadFilesLocalhost : List String :=
  [ "~/upload/qcow2_v2_rhel7.4_ovirt4.2_guest_disk_1G"
  , "~/upload/qcow2_v3_cow_sparse_disk_1G"
  , "~/upload/test_raw_to_delete"
  , "~/upload/1G_Fedora-Workstation-Live-x86_64-25-1.3.iso" ]

/-- `UPLOAD_FILES_LOCALHOST[index]`. -/
def uploadFileAt (index : Nat) : Except Fault String :=
  match uploadFilesLocalhost[index]? with
  | some path => .ok path
  | none => .error .indexError

/-- `sizes_before[index]`. -/
def sizeBefore (sizesBefore : Option (List Nat)) (index : Nat) : Except Fault Nat :=
  match sizesBefore with
  | none => .error .typeError
  | some sizes =>
    match sizes[index]? with
    | some size => .ok size
    | none => .error .indexError

section

variable (engine : Engine) (args : MultipleArgs)

/-- What is done for the disk of a snapshot on the way to its transfer. -/
def snapshotCall (index : Nat) (sdiskObj : SnapshotDisk) : Except Fault TransferArgs := do
  engine.diskSpace index
  let transferSize ← sizeBefore args.sizesBefore index
  pure
    { imageId := sdiskObj.imageId
      imagePath := filePath ++ "/" ++ sdiskObj.getAlias
      transferSize
      positive := args.positive
      snapshot := true }

/-- What is done for a disk on the way to its download. -/
def downloadCall (index : Nat) (disk : String) : Except Fault TransferArgs := do
  let imageId ← engine.diskId index
  engine.diskSpace index
  let transferSize ← sizeBefore args.sizesBefore index
  pure
    { imageId
      imagePath := filePath ++ "/" ++ disk
      transferSize
      positive := args.positive
      pause := args.pause
      interrupt := args.interrupt
      vmName := args.vmName
      diskName := some disk }

/-- What is done for a disk on the way to its upload. -/
def uploadCall (index : Nat) (_disk : String) : Except Fault TransferArgs := do
  let imageId ← engine.diskId index
  let imagePath ← uploadFileAt index
  let transferSize ← sizeBefore args.sizesBefore index
  pure { imageId, imagePath, transferSize, positive := args.positive, pause := args.pause }

end

/-- What the loops over the disks collect. -/
structure Started where
  diskIds : List String := []
  outputPath : List String := []
  results : List Future := []

/-- The loop over the disks: one transfer after the other is submitted, up to the first
disk for which something raises. -/
def startTransfers (engine : Engine) (direction : Direction) :
    Nat → List (Except Fault TransferArgs) → Started → Except Fault Started
  | _, [], started => .ok started
  | index, call :: calls, started => do
      let args ← call
      startTransfers engine direction (index + 1) calls
        { diskIds := started.diskIds ++ [args.imageId]
          outputPath := started.outputPath ++ [args.imagePath]
          results := started.results ++ [⟨transferImage engine direction index args⟩] }

/-- `transfer_multiple_disks`. -/
def transferMultipleDisks (engine : Engine) (direction : Direction) (args : MultipleArgs) :
    Except Fault (List String) :=
  match direction, args.snapshot with
  | .download, true => do
      engine.executor args.sdiskObjs.length
      let started ← startTransfers engine .download 0
        (args.sdiskObjs.mapIdx (snapshotCall engine args)) {}
      pure started.outputPath
  | .download, false => do
      engine.executor args.diskNames.length
      let started ← startTransfers engine .download 0
        (args.diskNames.mapIdx (downloadCall engine args)) {}
      transferResults .download args.positive started.results started.diskIds
      pure started.outputPath
  | .upload, _ => do
      engine.executor args.diskNames.length
      let started ← startTransfers engine .upload 0
        (args.diskNames.mapIdx (uploadCall engine args)) {}
      transferResults .upload args.positive started.results started.diskIds
      pure started.outputPath

end OvirtArt.Storage
