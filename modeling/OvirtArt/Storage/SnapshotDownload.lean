import OvirtArt.Storage.StreamingApi

set_option autoImplicit false

/-!
# The bytes of the download of a snapshot

What `download_disk_snapshot` writes and returns, however the socket cuts the body into reads.

The reads are any pieces of the body, in order.  The body comes in one reply, so that there are no
ranges to put together.
-/

namespace OvirtArt.Storage

open OvirtArt.Foundation

/-- The reads of these calls, made from the call of this number on, deliver what is left of a body
in order: `r.read()` all of it, and `r.read(to_read)` at most as many bytes, and none only at the
end. -/
def Delivers (world : World) : Nat → Bytes → List Call → Prop
  | _, _, [] => True
  | n, _, .readBody :: calls => Delivers world (n + 1) [] calls
  | n, left, .readSocket bytes :: calls =>
    world.chunk n <+: left ∧ (world.chunk n).length ≤ bytes ∧
      (world.chunk n = [] → left = []) ∧
        Delivers world (n + 1) (left.drop (world.chunk n).length) calls
  | n, left, _ :: calls => Delivers world (n + 1) left calls

/-- The calls of a procedure in a new transfer. -/
def callsOf {α : Type} (m : Streaming α) : List Call := (after m {}).log

section

variable (world : World)

/-- The body of the reply is delivered to the download, and no call raises. -/
structure BodyDelivered : Prop where
  calm : ∀ n, world.raises n = none
  delivers : Delivers world 0 (world.reply 0).body (callsOf (downloadDiskSnapshot world))

/-- The download ends; this is what is in the file, and what it returns. -/
def DownloadsSnapshot (written : Bytes) (result : Bool) : Prop :=
  ∃ t, (downloadDiskSnapshot world).run {} = .ok result t ∧ t.file = written

end

section

variable {world : World} {s : Transfer} {left : Bytes}

theorem Delivers.of_append {first second : List Call} {n : Nat}
    (h : Delivers world n left (first ++ second)) : Delivers world n left first := by
  induction first generalizing n left with
  | nil => exact trivial
  | cons c first ih =>
    cases c with
    | readBody => exact ih h
    | readSocket bytes => exact ⟨h.1, h.2.1, h.2.2.1, ih h.2.2.2⟩
    | _ => exact ih h

theorem run_call_of_calm (hcalm : ∀ n, world.raises n = none) (c : Call) (s : Transfer) :
    (call world c).run s = .ok ⟨⟩ { s with log := s.log ++ [c] } := by
  rw [run_call, hcalm]

theorem run_readChunk_of_calm (hcalm : ∀ n, world.raises n = none) (c : Call) (s : Transfer) :
    (readChunk world c).run s =
      .ok (world.chunk s.log.length) { s with log := s.log ++ [c] } := by
  unfold readChunk
  rw [EStateM.run_bind, EStateM.run_get]
  dsimp only
  rw [EStateM.run_bind, run_call_of_calm hcalm]
  rfl

theorem run_writeFile_of_calm (hcalm : ∀ n, world.raises n = none) (chunk : Bytes)
    (s : Transfer) :
    (writeFile world chunk).run s =
      .ok ⟨⟩ { log := s.log ++ [.writeFile], file := s.file ++ chunk } := by
  unfold writeFile
  rw [EStateM.run_bind, run_call_of_calm hcalm]
  rfl

theorem run_snapshotLoop_zero (s : Transfer) : (snapshotLoop world 0).run s = .ok true s := by
  rw [snapshotLoop, if_neg (Nat.lt_irrefl 0)]
  rfl

/-- The socket is at its end before all is read. -/
theorem run_snapshotLoop_of_empty (hcalm : ∀ n, world.raises n = none) {bytesToRead : Nat}
    (hpos : 0 < bytesToRead) (hempty : world.chunk s.log.length = []) :
    (snapshotLoop world bytesToRead).run s =
      .ok false { s with log := s.log ++ [.readSocket (min bytesToRead chunkSize)] } := by
  rw [snapshotLoop, if_pos hpos, EStateM.run_bind, run_readChunk_of_calm hcalm]
  dsimp only
  rw [dif_pos hempty]
  rfl

/-- A round of the loop. -/
theorem run_snapshotLoop_of_chunk (hcalm : ∀ n, world.raises n = none) {bytesToRead : Nat}
    (hpos : 0 < bytesToRead) (hchunk : world.chunk s.log.length ≠ []) :
    (snapshotLoop world bytesToRead).run s =
      (snapshotLoop world (bytesToRead - (world.chunk s.log.length).length)).run
        { log := s.log ++ [.readSocket (min bytesToRead chunkSize), .writeFile],
          file := s.file ++ world.chunk s.log.length } := by
  rw [snapshotLoop, if_pos hpos, EStateM.run_bind, run_readChunk_of_calm hcalm]
  dsimp only
  rw [dif_neg hchunk, EStateM.run_bind, run_writeFile_of_calm hcalm]
  dsimp only
  rw [List.append_assoc]
  rfl

/-- The loop writes what is delivered, up to the bytes to read, and succeeds if these are
delivered. -/
theorem run_snapshotLoop (hcalm : ∀ n, world.raises n = none) (bytesToRead : Nat) (s : Transfer) :
    ∃ status t calls, (snapshotLoop world bytesToRead).run s = .ok status t ∧
      t.log = s.log ++ calls ∧ ∀ left, Delivers world s.log.length left calls →
        t.file = s.file ++ left.take bytesToRead ∧ (status = true ↔ bytesToRead ≤ left.length) := by
  induction bytesToRead using Nat.strong_induction_on generalizing s with
  | _ bytesToRead ih =>
    rcases Nat.eq_zero_or_pos bytesToRead with rfl | hpos
    · refine ⟨true, s, [], run_snapshotLoop_zero s, (List.append_nil _).symm, ?_⟩
      intro left _
      rw [List.take_zero, List.append_nil]
      exact ⟨rfl, by simp⟩
    by_cases hchunk : world.chunk s.log.length = []
    · refine ⟨false, _, [.readSocket (min bytesToRead chunkSize)],
        run_snapshotLoop_of_empty hcalm hpos hchunk, rfl, ?_⟩
      rintro left ⟨-, -, hnone, -⟩
      rw [hnone hchunk, List.take_nil, List.append_nil]
      exact ⟨rfl, iff_of_false Bool.false_ne_true (Nat.not_le_of_lt hpos)⟩
    · have hread := List.length_pos_iff.mpr hchunk
      obtain ⟨status, t, calls, hrun, hlog, hdone⟩ := ih _ (Nat.sub_lt hpos hread)
        { log := s.log ++ [.readSocket (min bytesToRead chunkSize), .writeFile],
          file := s.file ++ world.chunk s.log.length }
      refine ⟨status, t, .readSocket (min bytesToRead chunkSize) :: .writeFile :: calls,
        (run_snapshotLoop_of_chunk hcalm hpos hchunk).trans hrun, ?_, ?_⟩
      · rw [hlog]
        simp only [List.append_assoc, List.cons_append, List.nil_append]
      · rintro left ⟨⟨rest, rfl⟩, hle, -, hdelivers⟩
        have hasked : (world.chunk s.log.length).length ≤ bytesToRead :=
          Nat.le_trans hle (Nat.min_le_left _ _)
        rw [List.drop_left] at hdelivers
        rw [List.length_append] at hdone
        obtain ⟨hfile, hstatus⟩ := hdone rest hdelivers
        refine ⟨?_, ?_⟩
        · rw [hfile, List.take_append, List.take_of_length_le hasked, List.append_assoc]
        · rw [hstatus, List.length_append]
          omega

/-- The calls after the reply, up to the loop. -/
def errorRead (r : Reply) : List Call := if 300 ≤ r.status then [.readBody] else []

theorem run_onlyIf_readBody (hcalm : ∀ n, world.raises n = none) (r : Reply) (s : Transfer) :
    (onlyIf (300 ≤ r.status) (call world .readBody)).run s =
      .ok ⟨⟩ { s with log := s.log ++ errorRead r } := by
  unfold onlyIf errorRead
  split
  case isTrue => exact run_call_of_calm hcalm _ s
  case isFalse => rw [List.append_nil]; rfl

/-- The calls before the loop, when the reply has no error. -/
def snapshotHead : List Call := [.getTransfer, .openFile, .request none, .getresponse]

/-- The run of the whole download, from that of its loop. -/
theorem run_downloadDiskSnapshot_of_loop (hcalm : ∀ n, world.raises n = none) {length : Nat}
    (hlength : (world.reply 0).contentLength = .ok length) {status : Bool} {t : Transfer}
    (hrun : (snapshotLoop world length).run
      { log := snapshotHead ++ errorRead (world.reply 0), file := [] } = .ok status t) :
    (downloadDiskSnapshot world).run {} =
      .ok (status && decide ((world.reply 0).status < 300))
        { t with log := t.log ++ [.closeFile, .finalize, .closeConnection] } := by
  have hreply : ∀ file, (getresponse world).run
      { log := [.getTransfer, .openFile, .request none], file := file } =
        .ok (world.reply 0) { log := snapshotHead, file := file } := by
    intro file
    unfold getresponse
    rw [EStateM.run_bind, EStateM.run_get]
    dsimp only
    rw [EStateM.run_bind, run_call_of_calm hcalm]
    rfl
  unfold downloadDiskSnapshot withOpenToWrite cleanUp
  simp only [run_tryFinally, EStateM.run_bind, run_call_of_calm hcalm, EStateM.run_modify,
    List.nil_append, List.cons_append, hreply, run_onlyIf_readBody hcalm, run_fromExcept,
    hlength]
  simp only [hrun, EStateM.run_pure, List.append_assoc, List.cons_append, List.nil_append]

/-- What is left of the body for the loop: nothing, if it was read for the log. -/
theorem delivers_loop {body : Bytes} {r : Reply} {calls rest : List Call}
    (h : Delivers world 0 body (snapshotHead ++ errorRead r ++ calls ++ rest)) :
    Delivers world (snapshotHead ++ errorRead r).length (if r.status < 300 then body else [])
      calls := by
  have hbegin : Delivers world snapshotHead.length body (errorRead r ++ calls) := by
    have hfirst := h.of_append
    rw [List.append_assoc] at hfirst
    exact hfirst
  unfold errorRead at hbegin ⊢
  by_cases hstatus : r.status < 300
  · rw [if_neg (Nat.not_le_of_lt hstatus)] at hbegin ⊢
    rw [if_pos hstatus]
    exact hbegin
  · rw [if_pos (Nat.le_of_not_lt hstatus)] at hbegin ⊢
    rw [if_neg hstatus]
    exact hbegin

end

/-- However the body is delivered, the download ends.  Below status 300 the file holds the first
bytes of the body, as many as the reply says or all there are; from 300 on the body has been read
for the log, and the file stays empty.  The result tells whether the status is below 300 and the
body is long enough. -/
theorem snapshot_download_exact (world : World) (length : Nat) (hdelivered : BodyDelivered world)
    (hlength : (world.reply 0).contentLength = .ok length) :
    ∃ result, DownloadsSnapshot world
        (if (world.reply 0).status < 300 then (world.reply 0).body.take length else []) result ∧
      (result = true ↔ (world.reply 0).status < 300 ∧ length ≤ (world.reply 0).body.length) := by
  obtain ⟨status, t, calls, hloop, hlog, hdone⟩ := run_snapshotLoop hdelivered.calm length
    { log := snapshotHead ++ errorRead (world.reply 0), file := [] }
  have hrun := run_downloadDiskSnapshot_of_loop hdelivered.calm hlength hloop
  have hdelivers := hdelivered.delivers
  rw [callsOf, after_eq_of_ok hrun, hlog] at hdelivers
  obtain ⟨hfile, hstatus⟩ := hdone _ (delivers_loop hdelivers)
  refine ⟨_, ⟨_, hrun, ?_⟩, ?_⟩
  · rw [hfile, List.nil_append]
    split
    · rfl
    · exact List.take_nil
  · rw [Bool.and_eq_true, decide_eq_true_iff, hstatus, and_comm]
    refine and_congr_right fun hbelow => ?_
    rw [if_pos hbelow]

/-- A reply of three bytes, which come in two reads. -/
def twoReads : World where
  raises _ := none
  reply _ := { status := 200, body := [1, 2, 3], contentLength := .ok 3 }
  chunk n := if n = 4 then [1, 2] else if n = 6 then [3] else []
  attached _ := true
  clock n := n
  isPausePer _ _ := false
  isHalf _ _ := false

theorem bodyDelivered_twoReads : BodyDelivered twoReads := by
  have hcalm : ∀ n, twoReads.raises n = none := fun _ => rfl
  have hloop : (snapshotLoop twoReads 3).run { log := snapshotHead, file := [] } =
      .ok true
        { log := snapshotHead ++ [.readSocket 3, .writeFile, .readSocket 1, .writeFile],
          file := [1, 2, 3] } := by
    refine (run_snapshotLoop_of_chunk hcalm (by decide) (by decide)).trans ?_
    refine (run_snapshotLoop_of_chunk hcalm (by decide) (by decide)).trans ?_
    exact run_snapshotLoop_zero _
  refine ⟨hcalm, ?_⟩
  rw [callsOf, after_eq_of_ok (run_downloadDiskSnapshot_of_loop hcalm rfl hloop)]
  exact ⟨⟨[3], rfl⟩, by decide, nofun, ⟨[], rfl⟩, by decide, nofun, trivial⟩

theorem two_reads_downloaded : ∃ result,
    DownloadsSnapshot twoReads [1, 2, 3] result ∧ (result = true ↔ 200 < 300 ∧ 3 ≤ 3) :=
  snapshot_download_exact twoReads 3 bodyDelivered_twoReads rfl

/-- A reply of three bytes with an error status; after the log has them there is nothing left. -/
def notFound : World where
  raises _ := none
  reply _ := { status := 404, body := [1, 2, 3], contentLength := .ok 3 }
  chunk _ := []
  attached _ := true
  clock n := n
  isPausePer _ _ := false
  isHalf _ _ := false

theorem run_notFound : (downloadDiskSnapshot notFound).run {} = .ok false
    { log := snapshotHead ++ [.readBody, .readSocket 3, .closeFile, .finalize, .closeConnection],
      file := [] } := by
  have hcalm : ∀ n, notFound.raises n = none := fun _ => rfl
  have hloop : (snapshotLoop notFound 3).run
      { log := snapshotHead ++ [.readBody], file := [] } = _ :=
    run_snapshotLoop_of_empty hcalm (by decide) rfl
  exact run_downloadDiskSnapshot_of_loop hcalm rfl hloop

/-- The file does not hold the body of a reply with an error status. -/
theorem error_body_not_written : BodyDelivered notFound ∧
    (notFound.reply 0).contentLength = .ok 3 ∧
    ¬ ∃ result, DownloadsSnapshot notFound ((notFound.reply 0).body.take 3) result := by
  refine ⟨⟨fun _ => rfl, ?_⟩, rfl, ?_⟩
  · rw [callsOf, after_eq_of_ok run_notFound]
    exact ⟨⟨[], rfl⟩, by decide, fun _ => rfl, trivial⟩
  · rintro ⟨result, t, hrun, hfile⟩
    obtain ⟨rfl, rfl⟩ := EStateM.Result.ok.inj (run_notFound.symm.trans hrun)
    exact nomatch hfile

end OvirtArt.Storage
