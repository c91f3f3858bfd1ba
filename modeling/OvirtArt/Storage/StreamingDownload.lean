import Mathlib.Data.List.Forall2
import OvirtArt.Foundation.CallLog
import OvirtArt.Storage.StreamingApi

set_option autoImplicit false

/-!
# The bytes of a download

Which ranges `download_disk` asks for, what it writes, and when a download that
says that it succeeded has written the image.

That the file is the bodies in their order is the invariant of the loop, and holds for every
world.  Whether the bodies are the image is a matter of what the server sends.
-/

namespace OvirtArt.Storage

open OvirtArt.Foundation

/-! ## Ranges -/

/-- The ranges, in order, tile the bytes from `start` to `stop`. -/
inductive Tiles : Nat → Nat → List (Nat × Nat) → Prop where
  | nil (stop : Nat) : Tiles stop stop []
  | cons {start last stop : Nat} {rest : List (Nat × Nat)} (hfirst : start ≤ last)
      (hlast : last < stop) (hrest : Tiles (last + 1) stop rest) :
      Tiles start stop ((start, last) :: rest)

/-- The ranges of the loop from this position on. -/
def chunkRanges (size pos : Nat) : List (Nat × Nat) :=
  if pos < size then
    (pos, min size (pos + chunkSize) - 1) :: chunkRanges size (pos + chunkSize)
  else []
termination_by size - pos
decreasing_by
  unfold chunkSize
  omega

theorem tiles_chunkRanges {size pos : Nat} (hpos : pos ≤ size) :
    Tiles pos size (chunkRanges size pos) := by
  induction hleft : size - pos using Nat.strong_induction_on generalizing pos with
  | _ left ih =>
    have hchunk : 0 < chunkSize := by decide
    rw [chunkRanges]
    split
    case isFalse hend =>
      obtain rfl : pos = size := by omega
      exact Tiles.nil _
    case isTrue hlt =>
      refine Tiles.cons (by omega) (by omega) ?_
      by_cases hlast : pos + chunkSize ≤ size
      · have hnext : min size (pos + chunkSize) - 1 + 1 = pos + chunkSize := by omega
        rw [hnext]
        exact ih _ (by omega) hlast rfl
      · have hnext : min size (pos + chunkSize) - 1 + 1 = size := by omega
        rw [hnext, chunkRanges, if_neg (by omega)]
        exact Tiles.nil _

/-- The ranges that were asked for. -/
def ranges (log : List Call) : List (Nat × Nat) :=
  log.filterMap fun c =>
    match c with
    | .request range => range
    | _ => none

/-! ## Replies -/

/-- A reply of status 206 with as many bytes as were asked for has those of the image. -/
def Honest (world : World) (image : Bytes) : Prop :=
  ∀ i first last, (chunkRanges image.length 0)[i]? = some (first, last) →
    (world.reply i).status = 206 → (world.reply i).body.length = last + 1 - first →
      (world.reply i).body = (image.drop first).take (last + 1 - first)

/-- The pieces, one after the other, are the bytes of the image from `pos` on. -/
def Continues (image : Bytes) : Nat → List Bytes → Prop
  | pos, [] => pos = image.length
  | pos, body :: rest =>
    body = (image.drop pos).take body.length ∧ Continues image (pos + body.length) rest

theorem continues_iff {image : Bytes} :
    ∀ {bodies : List Bytes} {pos : Nat}, pos ≤ image.length →
      (Continues image pos bodies ↔ bodies.flatten = image.drop pos)
  | [], pos, hpos => by
      unfold Continues
      rw [List.flatten_nil, eq_comm (a := []), List.drop_eq_nil_iff]
      omega
  | body :: rest, pos, hpos => by
      unfold Continues
      rw [List.flatten_cons]
      constructor
      · rintro ⟨hbody, hrest⟩
        have hlength : pos + body.length ≤ image.length := by
          have := congrArg List.length hbody
          rw [List.length_take, List.length_drop] at this
          omega
        have hsplit := List.take_append_drop body.length (image.drop pos)
        rw [← hbody, List.drop_drop] at hsplit
        rw [(continues_iff hlength).mp hrest, hsplit]
      · intro hall
        have hbody : body = (image.drop pos).take body.length := by
          rw [← hall, List.take_left]
        have hlength : pos + body.length ≤ image.length := by
          have := congrArg List.length hall
          rw [List.length_append, List.length_drop] at this
          omega
        refine ⟨hbody, (continues_iff hlength).mpr ?_⟩
        rw [← List.drop_drop, ← hall, List.drop_left]

/-- The bodies of the first `n` replies. -/
def bodies (world : World) (n : Nat) : List Bytes :=
  (List.range n).map fun i => (world.reply i).body

theorem bodies_succ (world : World) (n : Nat) :
    (bodies world (n + 1)).flatten = (bodies world n).flatten ++ (world.reply n).body := by
  simp [bodies, List.range_succ]

/-! ## The loop -/

/-- The loop is at this position: what it has asked for and what it will are all the
ranges, each request has got its reply, and the bodies are in the file. -/
structure At (world : World) (size pos : Nat) (s : Transfer) : Prop where
  ranges : ranges s.log ++ chunkRanges size pos = chunkRanges size 0
  replies : s.log.count .getresponse = (Storage.ranges s.log).length
  file : s.file = (bodies world (Storage.ranges s.log).length).flatten

/-- What was asked for is the beginning of all the ranges. -/
def Begun (size : Nat) (s : Transfer) : Prop := ranges s.log <+: chunkRanges size 0

/-- How a download comes to its end. -/
structure Ended (world : World) (size : Nat) (status : Bool) (s : Transfer) : Prop where
  begun : Begun size s
  whole : status = true → ranges s.log = chunkRanges size 0 ∧
    s.file = (bodies world (chunkRanges size 0).length).flatten
  stopped : status = false →
    ∃ i, i + 1 = (ranges s.log).length ∧ 300 ≤ (world.reply i).status

/-- A request was made, and has not been answered. -/
structure Asked (world : World) (size pos : Nat) (s : Transfer) : Prop where
  ranges : ranges s.log ++ chunkRanges size (pos + chunkSize) = chunkRanges size 0
  pending : (Storage.ranges s.log).length = s.log.count .getresponse + 1
  file : s.file = (bodies world (s.log.count .getresponse)).flatten

/-- The request was answered by this reply, whose body is not in the file yet. -/
structure Answered (world : World) (size pos : Nat) (r : Reply) (s : Transfer) : Prop where
  ranges : ranges s.log ++ chunkRanges size (pos + chunkSize) = chunkRanges size 0
  reply : ∃ i, (Storage.ranges s.log).length = i + 1 ∧ s.log.count .getresponse = i + 1 ∧
    s.file = (bodies world i).flatten ∧ r = world.reply i

theorem begun_of_append {size : Nat} {s : Transfer} {rest : List (Nat × Nat)}
    (h : ranges s.log ++ rest = chunkRanges size 0) : Begun size s := ⟨rest, h⟩

/-- What the loop depends on. -/
def Transfer.seen (s : Transfer) : List (Nat × Nat) × Nat × Bytes :=
  (ranges s.log, s.log.count .getresponse, s.file)

section

variable {world : World} {size pos : Nat} {r : Reply} {s t : Transfer}

theorem At.congr (h : s.seen = t.seen) (hs : At world size pos s) : At world size pos t := by
  obtain ⟨hranges, hreplies, hfile⟩ := hs
  simp only [Transfer.seen, Prod.mk.injEq] at h
  obtain ⟨h1, h2, h3⟩ := h
  exact ⟨h1 ▸ hranges, by rw [← h1, ← h2, hreplies], by rw [← h1, ← h3, hfile]⟩

theorem Answered.congr (h : s.seen = t.seen) (hs : Answered world size pos r s) :
    Answered world size pos r t := by
  obtain ⟨hranges, i, hlength, hcount, hfile, hreply⟩ := hs
  simp only [Transfer.seen, Prod.mk.injEq] at h
  obtain ⟨h1, h2, h3⟩ := h
  exact ⟨h1 ▸ hranges, i, by rw [← h1, hlength], by rw [← h2, hcount], by rw [← h3, hfile], hreply⟩

theorem Begun.congr (h : s.seen = t.seen) (hs : Begun size s) : Begun size t := by
  have h1 : ranges s.log = ranges t.log := congrArg Prod.fst h
  unfold Begun
  rw [← h1]
  exact hs

/-- The call asks for no range and gets no reply. -/
def Silent (c : Call) : Prop := ranges [c] = [] ∧ c ≠ .getresponse

theorem keeps_seen_call {c : Call} (h : Silent c) : Keeps Transfer.seen (call world c) := by
  intro s
  rw [after_call]
  have hranges : ranges (s.log ++ [c]) = ranges s.log := by
    rw [ranges, List.filterMap_append]
    exact (congrArg (_ ++ ·) h.1).trans (List.append_nil _)
  simp [Transfer.seen, hranges, List.count_append, h.2]

theorem triple_call_request (range : Nat × Nat)
    (hrange : chunkRanges size pos = range :: chunkRanges size (pos + chunkSize)) :
    Triple (At world size pos) (call world (.request (some range)))
      (fun _ => Asked world size pos) (Begun size) := by
  intro s hs
  have hasked : Asked world size pos { s with log := s.log ++ [.request (some range)] } := by
    have hranges : ranges (s.log ++ [.request (some range)]) = ranges s.log ++ [range] :=
      List.filterMap_append
    have hcount : (s.log ++ [Call.request (some range)]).count Call.getresponse =
        s.log.count Call.getresponse := by simp [List.count_append]
    refine ⟨?_, ?_, ?_⟩
    · rw [hranges, List.append_assoc, List.singleton_append, ← hrange]
      exact hs.ranges
    · rw [hranges, hcount, List.length_append, List.length_singleton, hs.replies]
    · rw [hcount, hs.replies]
      exact hs.file
  rw [run_call]
  cases world.raises s.log.length with
  | none => exact hasked
  | some e => exact begun_of_append hasked.ranges

theorem triple_getresponse :
    Triple (Asked world size pos) (getresponse world)
      (fun r => Answered world size pos r) (Begun size) := by
  intro s hs
  have hranges : ranges (s.log ++ [.getresponse]) = ranges s.log :=
    List.filterMap_append.trans (List.append_nil _)
  have hanswered : Answered world size pos (world.reply (s.log.count .getresponse))
      { s with log := s.log ++ [.getresponse] } := by
    refine ⟨?_, s.log.count .getresponse, ?_, ?_, hs.file, rfl⟩
    · rw [hranges]
      exact hs.ranges
    · rw [hranges]
      exact hs.pending
    · simp [List.count_append]
  unfold getresponse
  rw [EStateM.run_bind, EStateM.run_get]
  simp only
  rw [EStateM.run_bind, run_call]
  cases world.raises s.log.length with
  | none => exact hanswered
  | some e => exact begun_of_append hanswered.ranges

/-- Writing the body brings the loop to its next position. -/
theorem triple_writeFile (r : Reply) :
    Triple (Answered world size pos r) (writeFile world r.body)
      (fun _ => At world size (pos + chunkSize)) (Begun size) := by
  refine Triple.bind (Q := fun _ => Answered world size pos r) ?_ fun _ => triple_modify ?_
  · exact (triple_of_keeps (keeps_seen_call ⟨rfl, by simp⟩) fun _ _ h => Answered.congr h).imp
      (fun _ h => h) (fun _ _ h => h) fun _ h => begun_of_append h.ranges
  · rintro s ⟨hranges, i, hlength, hcount, hfile, rfl⟩
    refine ⟨hranges, hcount.trans hlength.symm, ?_⟩
    simp only
    rw [hlength, bodies_succ, hfile]

/-- What is done beside the requests keeps what the loop depends on. -/
theorem triple_silent {m : Streaming Unit} (hm : Keeps Transfer.seen m) :
    Triple (At world size pos) m (fun _ => At world size pos) (Begun size) :=
  (triple_of_keeps hm fun _ _ h => At.congr h).imp (fun _ h => h) (fun _ _ h => h)
    fun _ h => begun_of_append h.ranges

theorem triple_readBody (r : Reply) :
    Triple (Answered world size pos r) (call world .readBody)
      (fun _ => Answered world size pos r) (Begun size) :=
  (triple_of_keeps (keeps_seen_call ⟨rfl, by simp⟩) fun _ _ h => Answered.congr h).imp
    (fun _ h => h) (fun _ _ h => h) fun _ h => begun_of_append h.ranges

/-- By induction on what is left of the image. -/
theorem triple_downloadLoop (args : DownloadArgs) (pos : Nat) :
    Triple (At world args.transferSize pos) (downloadLoop world args pos)
      (fun status => Ended world args.transferSize status) (Begun args.transferSize) := by
  have hsilent : ∀ {c : Call}, Silent c → Keeps Transfer.seen (call world c) := keeps_seen_call
  induction hleft : args.transferSize - pos using Nat.strong_induction_on generalizing pos with
  | _ left ih =>
    rw [downloadLoop]
    split
    case isFalse hend =>
      refine triple_pure fun s hs => ?_
      have hall : ranges s.log = chunkRanges args.transferSize 0 := by
        have h := hs.ranges
        rwa [chunkRanges, if_neg hend, List.append_nil] at h
      exact ⟨begun_of_append hs.ranges, fun _ => ⟨hall, hall ▸ hs.file⟩, by simp⟩
    case isTrue hpos =>
      refine (triple_silent (hsilent ⟨rfl, by simp⟩)).bind fun _ => ?_
      refine (triple_call_request _ ?_).bind fun _ => triple_getresponse.bind fun r => ?_
      · conv => lhs; rw [chunkRanges, if_pos hpos]
      split
      case isTrue herror =>
        refine (triple_readBody r).bind fun _ => triple_pure fun s hs => ?_
        obtain ⟨hranges, i, hlength, _, _, rfl⟩ := hs
        exact ⟨begun_of_append hranges, by simp, fun _ => ⟨i, hlength.symm, herror⟩⟩
      case isFalse hfine =>
        refine (triple_readBody r).bind fun _ => (triple_writeFile r).bind fun _ => ?_
        refine (triple_silent (keeps_onlyIf (keeps_pauseAndResume (hsilent ⟨rfl, by simp⟩)
          (hsilent ⟨rfl, by simp⟩) (hsilent ⟨rfl, by simp⟩) (hsilent ⟨rfl, by simp⟩)))).bind
            fun _ => ?_
        refine (triple_silent (keeps_onlyIf (keeps_interruptTransfer
          (hsilent ⟨rfl, by simp⟩)))).bind fun _ => ?_
        exact ih _ (by unfold chunkSize; omega) _ rfl

theorem Ended.congr {status : Bool} (h : s.seen = t.seen) (hs : Ended world size status s) :
    Ended world size status t := by
  obtain ⟨hbegun, hwhole, hstopped⟩ := hs
  have hbegun' := hbegun.congr h
  simp only [Transfer.seen, Prod.mk.injEq] at h
  obtain ⟨h1, _, h3⟩ := h
  rw [h1, h3] at hwhole
  rw [h1] at hstopped
  exact ⟨hbegun', hwhole, hstopped⟩

/-- Closing keeps how the loop has ended. -/
theorem triple_closing {m : Streaming Bool} {fin : Streaming Unit} {P : Transfer → Prop}
    (hm : Triple P m (fun status => Ended world size status) (Begun size))
    (hfin : Keeps Transfer.seen fin) :
    Triple P (tryFinally m fin) (fun status => Ended world size status) (Begun size) := by
  refine hm.tryFinally (fun status => ?_) ?_
  · exact (triple_of_keeps hfin fun _ _ h => Ended.congr h).imp
      (fun _ h => h) (fun _ _ h => h) fun _ h => h.begun
  · exact triple_of_keeps hfin fun _ _ h => Begun.congr h

theorem triple_downloadDisk (args : DownloadArgs) :
    Triple (· = {}) (downloadDisk world args)
      (fun status => Ended world args.transferSize status) (Begun args.transferSize) := by
  have hsilent : ∀ {c : Call}, Silent c → Keeps Transfer.seen (call world c) := keeps_seen_call
  have hstart : ∀ s : Transfer, ranges s.log = [] ∧ s.log.count .getresponse = 0 →
      At world args.transferSize 0 { s with file := [] } := by
    rintro s ⟨hranges, hcount⟩
    exact ⟨by rw [hranges]; rfl, by rw [hranges, hcount]; rfl, by rw [hranges]; rfl⟩
  refine triple_closing ?_ ((hsilent ⟨rfl, by simp⟩).bind_keeps fun _ => hsilent ⟨rfl, by simp⟩)
  refine Triple.bind (Q := fun _ s => ranges s.log = [] ∧ s.log.count .getresponse = 0) ?_ ?_
  · refine (triple_of_keeps (hsilent ⟨rfl, by simp⟩) (P := fun s => ranges s.log = [] ∧
      s.log.count .getresponse = 0) ?_).imp ?_ (fun _ _ h => h) ?_
    · intro s t h
      simp only [Transfer.seen, Prod.mk.injEq] at h
      obtain ⟨h1, h2, _⟩ := h
      rw [h1, h2]
      exact id
    · rintro s rfl
      exact ⟨rfl, rfl⟩
    · rintro s ⟨hranges, _⟩
      exact ⟨_, by rw [hranges]; rfl⟩
  · intro _
    refine Triple.bind (Q := fun _ => At world args.transferSize 0) (triple_modify hstart) ?_
    intro _
    exact triple_closing (triple_downloadLoop args 0) (hsilent ⟨rfl, by simp⟩)

end

/-! ## The calls of a download that is not disturbed -/

/-- The calls of a pause. -/
def pauseCalls : List Call :=
  [.pauseTransfer, .getTransfer, .waitForPhase, .getTransfer, .resumeTransfer, .waitForPhase]

/-- The calls of the loop from this position to the end. -/
def loopCalls (world : World) (args : DownloadArgs) (pos : Nat) : List Call :=
  if pos < args.transferSize then
    [.extend, .request (some (pos, min args.transferSize (pos + chunkSize) - 1)),
        .getresponse, .readBody, .writeFile] ++
      (if args.pause ∧ world.isPausePer pos args.transferSize then pauseCalls else []) ++
      (if args.interrupt ∧ world.isHalf pos args.transferSize then [.attachDisk] else []) ++
      loopCalls world args (pos + chunkSize)
  else []
termination_by args.transferSize - pos
decreasing_by
  unfold chunkSize
  omega

/-- The calls of the whole download. -/
def downloadCalls (world : World) (args : DownloadArgs) : List Call :=
  [.openFile] ++ (loopCalls world args 0 ++ [.closeFile]) ++ [.finalize, .closeConnection]

/-- The call does not raise, the reply is below 300, the disk is not attached. -/
def Passes (world : World) (before : List Call) (c : Call) : Prop :=
  world.raises before.length = none ∧
    (c = .getresponse → (world.reply (before.count .getresponse)).status < 300) ∧
    (c = .attachDisk → world.attached before.length = true)

section

variable {world : World}

/-- What a procedure logs in this world if it returns. -/
abbrev Plays {α : Type} (world : World) (m : Streaming α) (script : List Call)
    (ok : α → Prop) : Prop :=
  Follows Transfer.log (Passes world) m script ok

theorem plays_call {c : Call} (hreply : c ≠ .getresponse) (hattach : c ≠ .attachDisk) :
    Plays world (call world c) [c] fun _ => True := by
  intro s
  have hpasses : Passes world s.log c ↔ world.raises s.log.length = none :=
    and_iff_left ⟨fun h => absurd h hreply, fun h => absurd h hattach⟩
  simp only [ServedAfter, and_true, hpasses]
  unfold Returns
  rw [run_call]
  cases world.raises s.log.length with
  | none => simp
  | some e => simp

theorem plays_getresponse :
    Plays world (getresponse world) [.getresponse] fun r => r.status < 300 := by
  intro s
  have hpasses : Passes world s.log .getresponse ↔ world.raises s.log.length = none ∧
      (world.reply (s.log.count .getresponse)).status < 300 := by simp [Passes]
  simp only [ServedAfter, and_true, hpasses]
  unfold Returns getresponse
  rw [EStateM.run_bind, EStateM.run_get]
  simp only
  rw [EStateM.run_bind, run_call]
  cases world.raises s.log.length with
  | none => simp
  | some e => simp

theorem plays_interruptTransfer :
    Plays world (interruptTransfer world) [.attachDisk] fun _ => True := by
  intro s
  have hpasses : Passes world s.log .attachDisk ↔ world.raises s.log.length = none ∧
      world.attached s.log.length = true := by simp [Passes]
  simp only [ServedAfter, and_true, hpasses]
  unfold Returns interruptTransfer
  rw [EStateM.run_bind, EStateM.run_get]
  simp only
  rw [EStateM.run_bind, run_call]
  cases world.raises s.log.length with
  | none => cases world.attached s.log.length <;> simp
  | some e => simp

variable {script : List Call}

theorem plays_onlyIf {p : Prop} [Decidable p] {m : Streaming Unit}
    (hm : Plays world m script fun _ => True) :
    Plays world (onlyIf p m) (if p then script else []) fun _ => True := by
  unfold onlyIf
  by_cases hp : p
  · simpa only [hp, if_true] using hm
  · simpa only [hp, if_false] using follows_pure trivial

theorem plays_pauseAndResume :
    Plays world (pauseAndResume world) pauseCalls fun _ => True := by
  have hcall : ∀ {c : Call}, c ≠ .getresponse → c ≠ .attachDisk →
      Plays world (call world c) [c] fun _ => True := plays_call
  have hpause : Plays world (pause world) [.pauseTransfer, .getTransfer, .waitForPhase]
      fun _ => True :=
    (hcall (by decide) (by decide)).andThen fun _ =>
      (hcall (by decide) (by decide)).andThen fun _ => hcall (by decide) (by decide)
  have hresume : Plays world (resume world) [.getTransfer, .resumeTransfer, .waitForPhase]
      fun _ => True :=
    (hcall (by decide) (by decide)).andThen fun _ =>
      (hcall (by decide) (by decide)).andThen fun _ => hcall (by decide) (by decide)
  exact hpause.andThen fun _ => hresume

theorem plays_writeFile (chunk : Bytes) :
    Plays world (writeFile world chunk) [.writeFile] fun _ => True :=
  (plays_call (by decide) (by decide)).andThen fun _ => follows_modify fun _ => rfl

theorem Plays.after_call {c : Call} {f : Unit → Streaming Bool}
    (hf : ∀ a, Plays world (f a) script (· = true)) (hreply : c ≠ .getresponse)
    (hattach : c ≠ .attachDisk) : Plays world (call world c >>= f) (c :: script) (· = true) :=
  (plays_call hreply hattach).andThen hf

/-- After a reply of 300 or more there is no success. -/
theorem Plays.after_getresponse {f : Reply → Streaming Bool}
    (hf : ∀ r, r.status < 300 → Plays world (f r) script (· = true))
    (hfail : ∀ r s, 300 ≤ r.status → ¬ Returns (f r) (· = true) s) :
    Plays world (getresponse world >>= f) (.getresponse :: script) (· = true) :=
  plays_getresponse.bind hf fun r s hr => hfail r s (Nat.le_of_not_lt hr)

/-- The loop says that it has succeeded exactly if its calls pass. -/
theorem plays_downloadLoop (args : DownloadArgs) (pos : Nat) :
    Plays world (downloadLoop world args pos) (loopCalls world args pos) (· = true) := by
  induction hleft : args.transferSize - pos using Nat.strong_induction_on generalizing pos with
  | _ left ih =>
    rw [downloadLoop, loopCalls]
    split
    case isFalse => exact follows_pure rfl
    case isTrue hpos =>
      have hrest := ih _ (by unfold chunkSize; omega) (pos + chunkSize) rfl
      simp only [List.append_assoc, List.cons_append, List.nil_append]
      refine .after_call (fun _ => ?_) (by decide) (by decide)
      refine .after_call (fun _ => ?_) (by simp) (by simp)
      refine .after_getresponse (fun r hr => ?_) fun r s hr => ?_
      · rw [if_neg (by omega)]
        refine .after_call (fun _ => ?_) (by decide) (by decide)
        refine Follows.andThen (plays_writeFile _) fun _ => ?_
        refine (plays_onlyIf plays_pauseAndResume).andThen fun _ => ?_
        exact (plays_onlyIf plays_interruptTransfer).andThen fun _ => hrest
      · rw [if_pos hr, returns_bind]
        rintro ⟨a, t, _, b, u, hrun, hb⟩
        obtain ⟨rfl, rfl⟩ := EStateM.Result.ok.inj hrun
        cases hb

theorem plays_downloadDisk (args : DownloadArgs) :
    Plays world (downloadDisk world args) (downloadCalls world args) (· = true) := by
  have hcall : ∀ {c : Call}, c ≠ .getresponse → c ≠ .attachDisk →
      Plays world (call world c) [c] fun _ => True := plays_call
  unfold downloadDisk downloadCalls withOpenToWrite cleanUp
  refine Follows.tryFinally ?_ ?_
  · refine (hcall (by decide) (by decide)).andThen fun _ => ?_
    refine Follows.after_modify (fun _ => rfl) ?_
    exact (plays_downloadLoop args 0).tryFinally (hcall (by decide) (by decide))
  · exact (hcall (by decide) (by decide)).andThen fun _ => hcall (by decide) (by decide)

end

/-! ## What a download gives -/

section

variable (world : World) (image : Bytes) (pause interrupt : Bool)

/-- The download of an image. -/
def download : Streaming Bool :=
  downloadDisk world { transferSize := image.length, pause, interrupt }

/-- The ranges asked for, whatever comes of the download. -/
def requested : List (Nat × Nat) := ranges (after (download world image pause interrupt) {}).log

/-- The ranges asked for are without gap and overlap, and all of them as long as the
replies are below 300; a download that says that it succeeded has written the image. -/
structure DownloadRight : Prop where
  begun : ∃ rest, Tiles 0 image.length (requested world image pause interrupt ++ rest)
  whole : ∀ status t, (download world image pause interrupt).run {} = .ok status t →
    (∀ i < (requested world image pause interrupt).length, (world.reply i).status < 300) →
      Tiles 0 image.length (requested world image pause interrupt)
  written : Honest world image →
    ∀ t, (download world image pause interrupt).run {} = .ok true t → t.file = image

/-- Each call of the download passes, in its turn. -/
def Undisturbed : Prop :=
  AtEach (Passes world)
    (downloadCalls world { transferSize := image.length, pause, interrupt })

end

section

variable {world : World} {image : Bytes} {pause interrupt : Bool}

theorem succeeds_iff_undisturbed :
    (∃ t, (download world image pause interrupt).run {} = .ok true t) ↔
      Undisturbed world image pause interrupt := by
  have h := (@plays_downloadDisk world { transferSize := image.length, pause, interrupt } {}).1
  rw [servedAfter_iff] at h
  refine Iff.trans ?_ h
  unfold Returns
  constructor
  · rintro ⟨t, hrun⟩
    exact ⟨true, t, hrun, rfl⟩
  · rintro ⟨status, t, hrun, rfl⟩
    exact ⟨t, hrun⟩

theorem ended_of_ok {status : Bool} {t : Transfer}
    (hrun : (download world image pause interrupt).run {} = .ok status t) :
    Ended world image.length status t := by
  have h := @triple_downloadDisk world { transferSize := image.length, pause, interrupt } {} rfl
  unfold download at hrun
  simpa only [hrun] using h

theorem begun_requested :
    requested world image pause interrupt <+: chunkRanges image.length 0 := by
  have h := @triple_downloadDisk world { transferSize := image.length, pause, interrupt }
  have hbegun := (h.imp (fun _ h => h) (fun _ _ h => h.begun) fun _ h => h).after rfl
  exact hbegun

end

/-- A download is right exactly if, where nothing disturbs it and the replies of status 206
are honest, each body is that part of the image which comes next after the bodies
before it, up to the end of the image. -/
theorem download_right_iff_continues (world : World) (image : Bytes) (pause interrupt : Bool) :
    DownloadRight world image pause interrupt ↔
      (Undisturbed world image pause interrupt → Honest world image →
        Continues image 0 (bodies world (chunkRanges image.length 0).length)) := by
  rw [continues_iff (Nat.zero_le _), List.drop_zero]
  constructor
  · intro h hundisturbed hhonest
    obtain ⟨t, hrun⟩ := succeeds_iff_undisturbed.mpr hundisturbed
    rw [← ((ended_of_ok hrun).whole rfl).2]
    exact h.written hhonest t hrun
  · intro h
    refine ⟨?_, ?_, ?_⟩
    · obtain ⟨rest, hrest⟩ := @begun_requested world image pause interrupt
      exact ⟨rest, hrest ▸ tiles_chunkRanges (Nat.zero_le _)⟩
    · intro status t hrun hbelow
      have hended := ended_of_ok hrun
      have hrequested : requested world image pause interrupt = ranges t.log := by
        unfold requested
        rw [after_eq_of_ok hrun]
      rw [hrequested] at hbelow ⊢
      cases status with
      | true =>
        rw [(hended.whole rfl).1]
        exact tiles_chunkRanges (Nat.zero_le _)
      | false =>
        obtain ⟨i, hi, hstatus⟩ := hended.stopped rfl
        have hlt := hbelow i (by omega)
        omega
    · intro hhonest t hrun
      rw [((ended_of_ok hrun).whole rfl).2]
      exact h (succeeds_iff_undisturbed.mp ⟨t, hrun⟩) hhonest

/-- A server that has nothing in its replies. -/
def emptyBodies : World where
  raises _ := none
  reply _ := ⟨206, [], .ok 0⟩
  chunk _ := []
  attached _ := false
  clock n := n
  isPausePer _ _ := false
  isHalf _ _ := false

/-- An image of one byte, and a reply without any: the download says that it succeeded. -/
theorem short_reply_accepted :
    ¬ ∀ (world : World) (image : Bytes) (pause interrupt : Bool),
      DownloadRight world image pause interrupt := by
  intro hall
  have hwritten := (hall emptyBodies [7] false false).written
  have hranges : chunkRanges 1 0 = [(0, 0)] := by decide +kernel
  have hhonest : Honest emptyBodies [7] := by
    intro i first last hrange _ hlength
    rw [List.length_singleton, hranges] at hrange
    cases i with
    | zero =>
      obtain ⟨rfl, rfl⟩ := Prod.mk.inj (Option.some.inj hrange)
      cases hlength
    | succ i => cases hrange
  have houtcome : (match (download emptyBodies [7] false false).run {} with
      | .ok status t => status && t.file.isEmpty
      | .error _ _ => false) = true := by decide +kernel
  cases hrun : (download emptyBodies [7] false false).run {} with
  | ok status t =>
    simp only [hrun, Bool.and_eq_true, List.isEmpty_iff] at houtcome
    obtain ⟨rfl, hfile⟩ := houtcome
    have hright := hwritten hhonest t hrun
    rw [hfile] at hright
    cases hright
  | error e t =>
    simp only [hrun] at houtcome
    cases houtcome

end OvirtArt.Storage
