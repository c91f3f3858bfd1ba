import Mathlib.Data.Rat.Defs
import OvirtArt.Foundation.Effects

set_option autoImplicit false

/-!
# `tests_lib/low_level/streaming_api.py`: the transfer of an image

The three procedures that move the bytes of an image.  Everything outside them is
a world: which of the calls raises, what the server replies, what is read from a
file or a socket, what time it is.  A procedure records the calls that it makes.

Times and sizes are natural numbers, and the bytes of an image are a list.  What is logged of the
progress is left out.
-/

namespace OvirtArt.Storage

open OvirtArt.Foundation

/-- Contents of an image. -/
abbrev Bytes := List UInt8

/-- The exceptions that end a transfer. -/
inductive Failure where
  | assertionError
  | valueError
  | zeroDivisionError
  /-- What the transfer service, a connection or a file raises. -/
  | raised (description : String)
  deriving DecidableEq

/-- The calls of the transfer service, the connections and the local file. -/
inductive Call where
  /-- `transfer_service.get()`. -/
  | getTransfer
  | extend
  /-- `transfer_service.pause()`. -/
  | pauseTransfer
  /-- `transfer_service.resume()`. -/
  | resumeTransfer
  /-- Waiting for a phase of the transfer, which ends or times out. -/
  | waitForPhase
  | finalize
  /-- `connection.close()`. -/
  | closeConnection
  | openFile
  | closeFile
  | readFile (bytes : Nat)
  | writeFile
  /-- `proxy_connection.request`, with the first and the last byte of its range. -/
  | request (range : Option (Nat × Nat))
  | getresponse
  /-- `r.read()`. -/
  | readBody
  /-- `r.read(to_read)`. -/
  | readSocket (bytes : Nat)
  | putrequest
  | putheader (name : String)
  | endheaders
  | send
  | attachDisk
  deriving DecidableEq

/-- What `getresponse` returns. -/
structure Reply where
  status : Nat
  /-- The bytes of `r.read()`. -/
  body : Bytes
  /-- `int(r.getheader('Content-Length'))`. -/
  contentLength : Except Failure Nat

/-- What a transfer depends on.  Calls are counted from the first one of the
procedure. -/
structure World where
  /-- The exception that the call of this number raises. -/
  raises : Nat → Option Failure
  /-- The replies, one after the other. -/
  reply : Nat → Reply
  /-- What the call of this number reads. -/
  chunk : Nat → Bytes
  /-- What the call of this number to attach a disk returns. -/
  attached : Nat → Bool
  /-- `time.time()` after so many calls. -/
  clock : Nat → ℚ
  /-- `completed_transfer_per == PAUSE_TRANSFER_PER` for a position and a size. -/
  isPausePer : Nat → Nat → Bool
  /-- `int(completed_transfer_per) == 50` for a position and a size. -/
  isHalf : Nat → Nat → Bool

/-- The calls made so far, and the contents of the local file. -/
structure Transfer where
  log : List Call := []
  file : Bytes := []

/-- A procedure that transfers an image, and may raise. -/
abbrev Streaming := EStateM Failure Transfer

/-- `chunk_size`. -/
def chunkSize : Nat := 64 * 1024 * 1024

/-- `buf_size`. -/
def bufSize : Nat := 128 * 1024

section

variable (world : World)

/-- Make a call: it is recorded, and may raise. -/
def call (c : Call) : Streaming Unit := do
  let s ← get
  modify fun s => { s with log := s.log ++ [c] }
  match world.raises s.log.length with
  | none => pure ()
  | some e => throw e

/-- What is done under a condition only. -/
def onlyIf (c : Prop) [Decidable c] (m : Streaming Unit) : Streaming Unit :=
  if c then m else pure ()

/-- A call that reads bytes. -/
def readChunk (c : Call) : Streaming Bytes := do
  let s ← get
  call world c
  pure (world.chunk s.log.length)

/-- `proxy_connection.getresponse()`. -/
def getresponse : Streaming Reply := do
  let s ← get
  call world .getresponse
  pure (world.reply (s.log.count .getresponse))

/-- `mydisk.write(chunk)`. -/
def writeFile (chunk : Bytes) : Streaming Unit := do
  call world .writeFile
  modify fun s => { s with file := s.file ++ chunk }

/-- `with open(path, "wb") as mydisk`. -/
def withOpenToWrite {α : Type} (body : Streaming α) : Streaming α := do
  call world .openFile
  modify fun s => { s with file := [] }
  tryFinally body (call world .closeFile)

/-- `with open(path, "rb") as disk`. -/
def withOpenToRead {α : Type} (body : Streaming α) : Streaming α := do
  call world .openFile
  tryFinally body (call world .closeFile)

/-- `pause`. -/
def pause : Streaming Unit := do
  call world .pauseTransfer
  call world .getTransfer
  call world .waitForPhase

/-- `resume`. -/
def resume : Streaming Unit := do
  call world .getTransfer
  call world .resumeTransfer
  call world .waitForPhase

/-- The pause in the middle of a transfer. -/
def pauseAndResume : Streaming Unit := do
  pause world
  resume world

/-- `assert ll_disks.attachDisk(...)` in the middle of a download. -/
def interruptTransfer : Streaming Unit := do
  let s ← get
  call world .attachDisk
  if world.attached s.log.length then pure () else throw .assertionError

/-- The end of a transfer session. -/
def cleanUp : Streaming Unit := do
  call world .finalize
  call world .closeConnection

/-! ## Downloads -/

/-- The arguments of `download_disk`. -/
structure DownloadArgs where
  transferSize : Nat
  pause : Bool := false
  interrupt : Bool := false

/-- The loop of `download_disk`. -/
def downloadLoop (args : DownloadArgs) (pos : Nat) : Streaming Bool :=
  if pos < args.transferSize then do
    call world .extend
    call world (.request (some (pos, min args.transferSize (pos + chunkSize) - 1)))
    let r ← getresponse world
    if 300 ≤ r.status then do
      call world .readBody
      pure false
    else do
      call world .readBody
      writeFile world r.body
      onlyIf (args.pause ∧ world.isPausePer pos args.transferSize) (pauseAndResume world)
      onlyIf (args.interrupt ∧ world.isHalf pos args.transferSize) (interruptTransfer world)
      downloadLoop args (pos + chunkSize)
  else pure true
termination_by args.transferSize - pos
decreasing_by
  unfold chunkSize
  omega

/-- `download_disk`. -/
def downloadDisk (args : DownloadArgs) : Streaming Bool :=
  tryFinally (withOpenToWrite world (downloadLoop world args 0)) (cleanUp world)

/-- The loop of `download_disk_snapshot`. -/
def snapshotLoop (bytesToRead : Nat) : Streaming Bool :=
  if 0 < bytesToRead then do
    let chunk ← readChunk world (.readSocket (min bytesToRead chunkSize))
    if _hempty : chunk = [] then pure false
    else do
      writeFile world chunk
      snapshotLoop (bytesToRead - chunk.length)
  else pure true
termination_by bytesToRead
decreasing_by
  have := List.length_pos_iff.mpr _hempty
  omega

/-- `download_disk_snapshot`. -/
def downloadDiskSnapshot : Streaming Bool :=
  tryFinally
    (do
      call world .getTransfer
      withOpenToWrite world do
        call world (.request none)
        let r ← getresponse world
        onlyIf (300 ≤ r.status) (call world .readBody)
        let bytesToRead ← fromExcept r.contentLength
        let status ← snapshotLoop world bytesToRead
        pure (status && decide (r.status < 300)))
    (cleanUp world)

/-! ## Upload -/

/-- The arguments of `upload_disk`. -/
structure UploadArgs where
  transferSize : Nat
  pause : Bool := false

/-- The loop of `upload_disk`: false when the local file ends before its time. -/
def uploadLoop (args : UploadArgs) (pos : Nat) (lastExtend : ℚ) : Streaming Bool :=
  if pos < args.transferSize then do
    let now := world.clock (← get).log.length
    onlyIf (60 < now - lastExtend) (call world .extend)
    let lastExtend := if 60 < now - lastExtend then now else lastExtend
    let chunk ← readChunk world (.readFile (min (args.transferSize - pos) bufSize))
    if _hempty : chunk = [] then do
      call world .pauseTransfer
      pure false
    else do
      call world .send
      onlyIf (args.pause ∧ world.isPausePer pos args.transferSize) (pauseAndResume world)
      uploadLoop args (pos + chunk.length) lastExtend
  else pure true
termination_by args.transferSize - pos
decreasing_by
  have := List.length_pos_iff.mpr _hempty
  omega

/-- `upload_disk`. -/
def uploadDisk (args : UploadArgs) : Streaming Bool := do
  let start := world.clock (← get).log.length
  call world .putrequest
  call world (.putheader "Authorization")
  call world (.putheader "Content-Range")
  call world (.putheader "Content-Length")
  call world .endheaders
  let finished ← withOpenToRead world (uploadLoop world args 0 start)
  if finished then do
    let response ← getresponse world
    onlyIf (response.status ≠ 200) (call world .pauseTransfer)
    cleanUp world
    let elapsed := world.clock (← get).log.length - start
    onlyIf (elapsed = 0) (throw .zeroDivisionError)
    pure (decide (response.status = 200))
  else pure false

end

/-! ## One call -/

section

variable {world : World}

theorem run_call (c : Call) (s : Transfer) :
    (call world c).run s =
      match world.raises s.log.length with
      | none => .ok ⟨⟩ { s with log := s.log ++ [c] }
      | some e => .error e { s with log := s.log ++ [c] } := by
  unfold call
  rw [EStateM.run_bind, EStateM.run_get]
  cases hraises : world.raises s.log.length with
  | none => simp only [hraises]; rfl
  | some e => simp only [hraises]; rfl

theorem after_call (c : Call) (s : Transfer) :
    after (call world c) s = { s with log := s.log ++ [c] } := by
  unfold after
  rw [run_call]
  cases world.raises s.log.length with
  | none => rfl
  | some e => rfl

variable {γ : Type} {view : Transfer → γ}

theorem keeps_onlyIf {p : Prop} [Decidable p] {m : Streaming Unit} (hm : Keeps view m) :
    Keeps view (onlyIf p m) :=
  Moves.ite (fun _ => hm) fun _ => keeps_pure _

theorem keeps_pauseAndResume (hpause : Keeps view (call world .pauseTransfer))
    (hget : Keeps view (call world .getTransfer)) (hwait : Keeps view (call world .waitForPhase))
    (hresume : Keeps view (call world .resumeTransfer)) :
    Keeps view (pauseAndResume world) := by
  refine Moves.bind_keeps ?_ fun _ => ?_
  · exact hpause.bind_keeps fun _ => hget.bind_keeps fun _ => hwait
  · exact hget.bind_keeps fun _ => hresume.bind_keeps fun _ => hwait

theorem keeps_interruptTransfer (hattach : Keeps view (call world .attachDisk)) :
    Keeps view (interruptTransfer world) := by
  refine moves_get_bind fun s => hattach.bind_keeps fun _ => ?_
  exact Moves.ite (fun _ => keeps_pure _) fun _ => keeps_throw _

end

end OvirtArt.Storage
