import Mathlib.Algebra.Order.BigOperators.Group.List
import Mathlib.Data.Rat.Floor
import OvirtArt.Foundation.Rounds
import OvirtArt.Storage.StreamingDownload

set_option autoImplicit false

/-!
# The pause and the interruption of a transfer

A transfer is to be paused, or interrupted, when its share of the image reaches one half.  The
share is looked at once for each chunk, with its position before that.

The share is computed with the division of integers of the source.  The conditions are arithmetic,
on the size of the image and the chunks, and hold for every size.
-/

namespace OvirtArt.Storage

open OvirtArt.Foundation

/-! ## Shares -/

/-- `PAUSE_TRANSFER_PER`. -/
def pauseTransferPer : ℚ := 50

/-- `pos / float(size) * 100`, in exact arithmetic. -/
def completedTransferPer (pos size : Nat) : ℚ := pos / size * 100

/-- The percentages are compared in exact arithmetic. -/
structure ExactShares (world : World) : Prop where
  isPausePer : ∀ pos size,
    world.isPausePer pos size = decide (completedTransferPer pos size = pauseTransferPer)
  isHalf : ∀ pos size, world.isHalf pos size = decide (⌊completedTransferPer pos size⌋ = 50)

section

variable {pos size : Nat}

theorem completedTransferPer_eq_iff (hsize : 0 < size) :
    completedTransferPer pos size = pauseTransferPer ↔ 2 * pos = size := by
  have hpos : (0 : ℚ) < size := Nat.cast_pos.mpr hsize
  unfold completedTransferPer pauseTransferPer
  rw [div_mul_eq_mul_div, div_eq_iff hpos.ne']
  constructor
  · intro h
    have h' : (2 * pos : ℚ) = size := by linarith
    exact_mod_cast h'
  · intro h
    have h' : (2 * pos : ℚ) = size := by exact_mod_cast h
    linarith

theorem le_completedTransferPer_iff (hsize : 0 < size) :
    pauseTransferPer ≤ completedTransferPer pos size ↔ size ≤ 2 * pos := by
  have hpos : (0 : ℚ) < size := Nat.cast_pos.mpr hsize
  unfold completedTransferPer pauseTransferPer
  rw [div_mul_eq_mul_div, le_div_iff₀ hpos]
  constructor
  · intro h
    have h' : (size : ℚ) ≤ 2 * pos := by linarith
    exact_mod_cast h'
  · intro h
    have h' : (size : ℚ) ≤ 2 * pos := by exact_mod_cast h
    linarith

theorem floor_completedTransferPer_iff (hsize : 0 < size) :
    ⌊completedTransferPer pos size⌋ = 50 ↔ size ≤ 2 * pos ∧ 100 * pos < 51 * size := by
  have hpos : (0 : ℚ) < size := Nat.cast_pos.mpr hsize
  rw [Int.floor_eq_iff, ← le_completedTransferPer_iff hsize]
  refine and_congr Iff.rfl ?_
  unfold completedTransferPer
  rw [div_mul_eq_mul_div, div_lt_iff₀ hpos]
  constructor
  · intro h
    have h' : (100 * pos : ℚ) < 51 * size := by push_cast at h; linarith
    exact_mod_cast h'
  · intro h
    have h' : (100 * pos : ℚ) < 51 * size := by exact_mod_cast h
    push_cast
    linarith

end

/-! ## What is asked of a transfer -/

/-- The share at the position of this round is one half or more. -/
def AtShare (size : Nat) (position : Nat → Nat) (n : Nat) : Prop :=
  pauseTransferPer ≤ completedTransferPer (position n) size

/-- The call is made exactly once, in the first round at whose position the share is one half or
more; in each round a `tick` is called. -/
def OnceAtShare (c tick : Call) (size : Nat) (position : Nat → Nat) (log : List Call) : Prop :=
  ∃ n, IsFirst (AtShare size position) n ∧ OnceAfter c tick log (n + 1)

/-- The transfer pauses and resumes exactly once. -/
def PausesOnce (tick : Call) (size : Nat) (position : Nat → Nat) (log : List Call) : Prop :=
  OnceAtShare .pauseTransfer tick size position log ∧
    OnceAtShare .resumeTransfer tick size position log

/-- The position of a round of `download_disk`. -/
def chunkStart (n : Nat) : Nat := n * chunkSize

/-- How long the reads of the local file were, in a log from the call of this number on. -/
def readLengths (world : World) : Nat → List Call → List Nat
  | _, [] => []
  | n, .readFile _ :: rest => (world.chunk n).length :: readLengths world (n + 1) rest
  | n, _ :: rest => readLengths world (n + 1) rest

/-- How many bytes were asked for in each read of the local file. -/
def askedLengths (log : List Call) : List Nat :=
  log.filterMap fun c =>
    match c with
    | .readFile bytes => some bytes
    | _ => none

/-- The position of a round of `upload_disk`: what was read before it. -/
def uploadPosition (world : World) (log : List Call) (n : Nat) : Nat :=
  ((readLengths world 0 log).take n).sum

/-! ## Rounds of a transfer -/

section

variable {size : Nat} {position : Nat → Nat} {rounds : List (List Call)} {front back : List Call}
  {c tick : Call}

/-- A call that is made in the rounds that begin with half of the image. -/
theorem onceAtShare_half_iff (hsize : 0 < size) (hmono : Monotone position)
    (h : AreRounds c tick (fun n => 2 * position n = size) rounds)
    (hfront : c ∉ front ∧ tick ∉ front) (hback : c ∉ back) :
    OnceAtShare c tick size position (front ++ rounds.flatten ++ back) ↔
      ∃! n, n < rounds.length ∧ 2 * position n = size := by
  refine exists_first_onceAfter_iff h hfront hback ?_ ?_
  · intro n hn
    exact (le_completedTransferPer_iff hsize).mpr (by omega)
  · intro m n hle hm hn
    have hposition := hmono hle
    have hreached := (le_completedTransferPer_iff hsize).mp hm
    omega

/-- A call that is made in the rounds that begin with a share between 50 and 51 percent. -/
theorem onceAtShare_between_iff (hsize : 0 < size) (hmono : Monotone position)
    (h : AreRounds c tick
      (fun n => size ≤ 2 * position n ∧ 100 * position n < 51 * size) rounds)
    (hfront : c ∉ front ∧ tick ∉ front) (hback : c ∉ back) :
    OnceAtShare c tick size position (front ++ rounds.flatten ++ back) ↔
      ∃! n, n < rounds.length ∧ size ≤ 2 * position n ∧ 100 * position n < 51 * size := by
  refine exists_first_onceAfter_iff h hfront hback ?_ ?_
  · intro n hn
    exact (le_completedTransferPer_iff hsize).mpr hn.1
  · intro m n hle hm hn
    have hposition := hmono hle
    have hreached := (le_completedTransferPer_iff hsize).mp hm
    omega

end

/-! ## Downloads -/

section

variable {world : World} {args : DownloadArgs}

/-- The first calls of a round of `download_disk`. -/
def chunkCalls (size pos : Nat) : List Call :=
  [.extend, .request (some (pos, min size (pos + chunkSize) - 1)), .getresponse, .readBody,
    .writeFile]

variable (world args) in
/-- The calls of a round of `download_disk`. -/
def downloadRound (pos : Nat) : List Call :=
  chunkCalls args.transferSize pos ++
    (if args.pause ∧ world.isPausePer pos args.transferSize then pauseCalls else []) ++
    (if args.interrupt ∧ world.isHalf pos args.transferSize then [.attachDisk] else [])

/-- The calls of the loop are those of its rounds. -/
theorem exists_rounds_loopCalls (start : Nat) :
    ∃ rounds : List (List Call), loopCalls world args (chunkStart start) = rounds.flatten ∧
      (∀ n, n < rounds.length ↔ chunkStart (start + n) < args.transferSize) ∧
      ∀ n round, rounds[n]? = some round →
        round = downloadRound world args (chunkStart (start + n)) := by
  induction hleft : args.transferSize - chunkStart start using Nat.strong_induction_on
    generalizing start with
  | _ left ih =>
    have hnext : chunkStart (start + 1) = chunkStart start + chunkSize := Nat.succ_mul _ _
    rw [loopCalls]
    split
    case isFalse hend =>
      refine ⟨[], rfl, fun n => iff_of_false (Nat.not_lt_zero n) ?_, ?_⟩
      · have hle : chunkStart start ≤ chunkStart (start + n) :=
          Nat.mul_le_mul_right _ (Nat.le_add_right _ _)
        omega
      · intro n round hround
        exact absurd hround (by simp)
    case isTrue hpos =>
      have hchunk : 0 < chunkSize := by decide
      obtain ⟨rounds, hflatten, hlength, hrounds⟩ := ih _ (by omega) (start + 1) rfl
      refine ⟨downloadRound world args (chunkStart start) :: rounds, ?_, ?_, ?_⟩
      · rw [List.flatten_cons, ← hflatten, hnext]
        rfl
      · intro n
        cases n with
        | zero => exact iff_of_true (Nat.succ_pos _) hpos
        | succ n =>
          rw [List.length_cons, Nat.succ_lt_succ_iff, hlength, Nat.add_right_comm]
          rfl
      · intro n round hround
        cases n with
        | zero => exact (Option.some.inj hround).symm
        | succ n =>
          rw [hrounds n round hround, Nat.add_right_comm]
          rfl

/-- A mark of a pause, and the tick of a transfer, as they stand in the calls of a pause. -/
def MarksPause (c tick : Call) : Prop := OnceAfter c tick pauseCalls 0 ∧ tick ∉ pauseCalls

theorem marksPause_pauseTransfer {tick : Call} (h : tick ∉ pauseCalls) :
    MarksPause .pauseTransfer tick :=
  ⟨⟨[], _, rfl, List.not_mem_nil, by decide, rfl⟩, h⟩

theorem marksPause_resumeTransfer {tick : Call} (h : tick ∉ pauseCalls) :
    MarksPause .resumeTransfer tick := by
  refine ⟨⟨[.pauseTransfer, .getTransfer, .waitForPhase, .getTransfer], [.waitForPhase], rfl,
    by decide, by decide, ?_⟩, h⟩
  refine List.count_eq_zero_of_not_mem fun hmem => h ?_
  exact List.mem_append_left [.resumeTransfer, .waitForPhase] hmem

variable {t : Transfer}

theorem downloadCalls_eq {rounds : List (List Call)}
    (h : loopCalls world args (chunkStart 0) = rounds.flatten) :
    downloadCalls world args =
      [.openFile] ++ rounds.flatten ++ [.closeFile, .finalize, .closeConnection] := by
  have hzero : chunkStart 0 = 0 := Nat.zero_mul _
  rw [downloadCalls, ← h, hzero, List.append_assoc, List.append_assoc, List.append_assoc]
  rfl

theorem log_of_run_downloadDisk (hrun : (downloadDisk world args).run {} = .ok true t) :
    t.log = downloadCalls world args :=
  (plays_downloadDisk args {}).2 true t hrun rfl

theorem monotone_chunkStart : Monotone chunkStart :=
  fun _ _ h => Nat.mul_le_mul_right _ h

theorem pauses_iff {size : Nat} {pause : Bool} (hexact : ExactShares world) (hsize : 0 < size)
    (hpause : pause = true) (pos : Nat) :
    (pause = true ∧ world.isPausePer pos size = true) ↔ 2 * pos = size := by
  rw [hpause, hexact.isPausePer, decide_eq_true_iff, completedTransferPer_eq_iff hsize]
  exact and_iff_right rfl

theorem interrupts_iff {size : Nat} {interrupt : Bool} (hexact : ExactShares world)
    (hsize : 0 < size) (hinterrupt : interrupt = true) (pos : Nat) :
    (interrupt = true ∧ world.isHalf pos size = true) ↔
      size ≤ 2 * pos ∧ 100 * pos < 51 * size := by
  rw [hinterrupt, hexact.isHalf, decide_eq_true_iff, floor_completedTransferPer_iff hsize]
  exact and_iff_right rfl

theorem not_mem_onlyIf {c : Call} {calls : List Call} {p : Prop} [Decidable p] (h : c ∉ calls) :
    c ∉ (if p then calls else []) := by
  split
  · exact h
  · exact List.not_mem_nil

/-- A round is marked by its pause. -/
theorem isRound_pause {c : Call} (hexact : ExactShares world) (hsize : 0 < args.transferSize)
    (hpause : args.pause = true) (hmarks : MarksPause c .getresponse)
    (hbase : ∀ pos, c ∉ chunkCalls args.transferSize pos) (hattach : c ∉ [Call.attachDisk])
    (pos : Nat) :
    IsRound c .getresponse (2 * pos = args.transferSize) (downloadRound world args pos) := by
  have hround : IsRound c .getresponse (args.pause ∧ world.isPausePer pos args.transferSize)
      (downloadRound world args pos) :=
    isRound_of_parts ⟨rfl, hbase pos⟩ hmarks.1 hmarks.2
      ⟨not_mem_onlyIf (by decide), not_mem_onlyIf hattach⟩
  exact hround.congr (pauses_iff hexact hsize hpause pos)

/-- A round is marked by its interruption. -/
theorem isRound_attach (hexact : ExactShares world) (hsize : 0 < args.transferSize)
    (hinterrupt : args.interrupt = true) (pos : Nat) :
    IsRound .attachDisk .getresponse
      (args.transferSize ≤ 2 * pos ∧ 100 * pos < 51 * args.transferSize)
      (downloadRound world args pos) := by
  have hpauses : ∀ c ∉ pauseCalls,
      c ∉ (if args.pause ∧ world.isPausePer pos args.transferSize then pauseCalls else []) :=
    fun c hc => not_mem_onlyIf hc
  refine IsRound.congr (isRound_of_base ⟨?_, ?_⟩ ?_ (by decide))
    (interrupts_iff hexact hsize hinterrupt pos)
  · rw [List.count_append, List.count_eq_zero_of_not_mem (hpauses _ (by decide))]
    rfl
  · rw [List.mem_append, not_or]
    exact ⟨by simp [chunkCalls], hpauses _ (by decide)⟩
  · exact ⟨[], [], rfl, List.not_mem_nil, List.not_mem_nil, rfl⟩

/-- A download pauses once exactly if half of the image is a number of chunks. -/
theorem download_pausesOnce_iff (hexact : ExactShares world) (hsize : 0 < args.transferSize)
    (hpause : args.pause = true) (hrun : (downloadDisk world args).run {} = .ok true t) :
    PausesOnce .getresponse args.transferSize chunkStart t.log ↔
      2 * chunkSize ∣ args.transferSize := by
  obtain ⟨rounds, hflatten, hlength, hrounds⟩ := @exists_rounds_loopCalls world args 0
  have honce : ∀ {c : Call}, MarksPause c .getresponse →
      (∀ pos, c ∉ chunkCalls args.transferSize pos) → c ∉ [Call.attachDisk] →
      c ∉ [Call.openFile] → c ∉ [Call.closeFile, .finalize, .closeConnection] →
        (OnceAtShare c .getresponse args.transferSize chunkStart t.log ↔
          2 * chunkSize ∣ args.transferSize) := by
    intro c hmarks hbase hattach hfront hback
    have hare : AreRounds c .getresponse
        (fun n => 2 * chunkStart n = args.transferSize) rounds := by
      intro n round hround
      rw [hrounds n round hround, Nat.zero_add]
      exact isRound_pause hexact hsize hpause hmarks hbase hattach _
    rw [log_of_run_downloadDisk hrun, downloadCalls_eq hflatten,
      onceAtShare_half_iff hsize monotone_chunkStart hare ⟨hfront, by decide⟩ hback]
    simp only [hlength, Nat.zero_add]
    unfold chunkStart chunkSize
    constructor
    · rintro ⟨n, ⟨-, hn⟩, -⟩
      omega
    · rintro ⟨n, hn⟩
      refine ⟨n, ⟨by omega, by omega⟩, fun m hm => by omega⟩
  refine (and_congr (honce (marksPause_pauseTransfer (by decide)) ?_ (by decide) (by decide)
    (by decide)) (honce (marksPause_resumeTransfer (by decide)) ?_ (by decide) (by decide)
    (by decide))).trans and_self_iff
  · exact fun pos => by simp [chunkCalls]
  · exact fun pos => by simp [chunkCalls]

/-- A download is interrupted once exactly if one chunk begins between 50 and 51 percent. -/
theorem download_attachesOnce_iff (hexact : ExactShares world) (hsize : 0 < args.transferSize)
    (hinterrupt : args.interrupt = true) (hrun : (downloadDisk world args).run {} = .ok true t) :
    OnceAtShare .attachDisk .getresponse args.transferSize chunkStart t.log ↔
      ∃! n, args.transferSize ≤ 2 * (n * chunkSize) ∧
        100 * (n * chunkSize) < 51 * args.transferSize := by
  obtain ⟨rounds, hflatten, hlength, hrounds⟩ := @exists_rounds_loopCalls world args 0
  have hare : AreRounds .attachDisk .getresponse (fun n => args.transferSize ≤ 2 * chunkStart n ∧
      100 * chunkStart n < 51 * args.transferSize) rounds := by
    intro n round hround
    rw [hrounds n round hround, Nat.zero_add]
    exact isRound_attach hexact hsize hinterrupt _
  rw [log_of_run_downloadDisk hrun, downloadCalls_eq hflatten, onceAtShare_between_iff hsize
    monotone_chunkStart hare ⟨by decide, by decide⟩ (by decide)]
  refine existsUnique_congr fun n => ?_
  rw [hlength, Nat.zero_add]
  unfold chunkStart
  exact and_iff_right_of_imp fun h => by omega

end

/-! ## Uploads -/

section

variable {world : World} {args : UploadArgs}

variable (world args) in
/-- The calls of a round of `upload_disk`, which may begin with an extension. -/
def uploadRound (pos : Nat) (extension : List Call) : List Call :=
  extension ++ [.readFile (min (args.transferSize - pos) bufSize), .send] ++
    (if args.pause ∧ world.isPausePer pos args.transferSize then pauseCalls else [])

variable (world args) in
/-- The rounds from this position on, after so many calls, to the end of the image. -/
inductive UploadRounds : Nat → Nat → List (List Call) → Prop
  | nil {pos calls : Nat} (hend : args.transferSize ≤ pos) : UploadRounds pos calls []
  | cons {pos calls : Nat} {extension : List Call} {rounds : List (List Call)}
      (hextension : extension = [] ∨ extension = [.extend])
      (hread : world.chunk (calls + extension.length) ≠ [])
      (hrest : UploadRounds (pos + (world.chunk (calls + extension.length)).length)
        (calls + (uploadRound world args pos extension).length) rounds) :
      UploadRounds pos calls (uploadRound world args pos extension :: rounds)

theorem readLengths_append (calls : Nat) (first second : List Call) :
    readLengths world calls (first ++ second) =
      readLengths world calls first ++ readLengths world (calls + first.length) second := by
  induction first generalizing calls with
  | nil => rfl
  | cons c first ih =>
    have hlength : calls + (c :: first).length = calls + 1 + first.length := by
      rw [List.length_cons]
      omega
    rw [List.cons_append, hlength]
    cases c <;> simp only [readLengths, ih, List.cons_append]

theorem readLengths_eq_nil {log : List Call} (h : ∀ bytes, Call.readFile bytes ∉ log)
    (calls : Nat) : readLengths world calls log = [] := by
  induction log generalizing calls with
  | nil => rfl
  | cons c log ih =>
    have hrest := ih (fun bytes hmem => h bytes (List.mem_cons_of_mem _ hmem)) (calls + 1)
    cases c with
    | readFile bytes => exact absurd List.mem_cons_self (h bytes)
    | _ => exact hrest

variable {pos calls : Nat} {extension : List Call} {rounds : List (List Call)}

/-- A round has one read. -/
theorem readLengths_flatten_cons (hextension : extension = [] ∨ extension = [.extend]) :
    readLengths world calls (uploadRound world args pos extension :: rounds).flatten =
      (world.chunk (calls + extension.length)).length ::
        readLengths world (calls + (uploadRound world args pos extension).length)
          rounds.flatten := by
  have hfirst : readLengths world calls extension = [] := by
    refine readLengths_eq_nil (fun bytes => ?_) calls
    rcases hextension with rfl | rfl <;> simp
  have hlast : ∀ n, readLengths world n
      (if args.pause ∧ world.isPausePer pos args.transferSize then pauseCalls else []) = [] :=
    readLengths_eq_nil fun bytes => not_mem_onlyIf (by simp [pauseCalls])
  have hround : readLengths world calls (uploadRound world args pos extension) =
      [(world.chunk (calls + extension.length)).length] := by
    rw [uploadRound, readLengths_append, hlast, List.append_nil, readLengths_append, hfirst]
    rfl
  rw [List.flatten_cons, readLengths_append, hround]
  rfl

namespace UploadRounds

theorem length_readLengths (h : UploadRounds world args pos calls rounds) :
    (readLengths world calls rounds.flatten).length = rounds.length := by
  induction h with
  | nil hend => rfl
  | cons hextension hread hrest ih =>
    rw [readLengths_flatten_cons hextension, List.length_cons, ih, List.length_cons]

theorem readLengths_pos (h : UploadRounds world args pos calls rounds) :
    ∀ length ∈ readLengths world calls rounds.flatten, 0 < length := by
  induction h with
  | nil hend => exact fun length hlength => absurd hlength List.not_mem_nil
  | cons hextension hread hrest ih =>
    rw [readLengths_flatten_cons hextension, List.forall_mem_cons]
    exact ⟨List.length_pos_iff.mpr hread, ih⟩

theorem le_sum (h : UploadRounds world args pos calls rounds) :
    args.transferSize ≤ pos + (readLengths world calls rounds.flatten).sum := by
  induction h with
  | nil hend => exact hend
  | cons hextension hread hrest ih =>
    rw [readLengths_flatten_cons hextension, List.sum_cons, ← Nat.add_assoc]
    exact ih

theorem eq_round (h : UploadRounds world args pos calls rounds) {n : Nat} {round : List Call}
    (hround : rounds[n]? = some round) :
    ∃ extension, (extension = [] ∨ extension = [.extend]) ∧ round = uploadRound world args
      (pos + ((readLengths world calls rounds.flatten).take n).sum) extension := by
  induction h generalizing n with
  | nil hend => exact nomatch hround
  | cons hextension hread hrest ih =>
    cases n with
    | zero => exact ⟨_, hextension, (Option.some.inj hround).symm⟩
    | succ n =>
      rw [readLengths_flatten_cons hextension, List.take_succ_cons, List.sum_cons,
        ← Nat.add_assoc]
      exact ih hround

end UploadRounds

section

variable {c : Call} {s t : Transfer} {a : Unit}

/-- A call that returns is in the log. -/
theorem log_of_run_call (h : (call world c).run s = .ok a t) : t.log = s.log ++ [c] := by
  rw [← after_eq_of_ok h, after_call]

theorem log_of_run_onlyIf {p : Prop} [Decidable p] (h : (onlyIf p (call world c)).run s = .ok a t) :
    ∃ calls, (calls = [] ∨ calls = [c]) ∧ t.log = s.log ++ calls := by
  unfold onlyIf at h
  split at h
  case isTrue => exact ⟨[c], .inr rfl, log_of_run_call h⟩
  case isFalse =>
      obtain ⟨-, rfl⟩ := EStateM.Result.ok.inj h
      exact ⟨[], .inl rfl, (List.append_nil _).symm⟩

theorem eq_of_run_onlyIf_not {p : Prop} [Decidable p] {m : Streaming Unit} (hp : ¬ p)
    (h : (onlyIf p m).run s = .ok a t) : s = t := by
  rw [onlyIf, if_neg hp] at h
  exact (EStateM.Result.ok.inj h).2

theorem eq_of_run_onlyIf_throw {p : Prop} [Decidable p] {e : Failure}
    (h : (onlyIf p (throw e)).run s = .ok a t) : s = t := by
  by_cases hp : p
  · rw [onlyIf, if_pos hp] at h
    exact nomatch h
  · exact eq_of_run_onlyIf_not hp h

theorem log_of_run_cleanUp (h : (cleanUp world).run s = .ok a t) :
    t.log = s.log ++ [.finalize, .closeConnection] := by
  obtain ⟨_, u, hfinalize, hclose⟩ := run_bind_eq_ok_iff.mp h
  rw [log_of_run_call hclose, log_of_run_call hfinalize, List.append_assoc]
  rfl

/-- A file that is read is closed at the end. -/
theorem of_run_withOpenToRead {body : Streaming Bool} {finished : Bool}
    (h : (withOpenToRead world body).run s = .ok finished t) :
    ∃ opened closing, opened.log = s.log ++ [.openFile] ∧
      body.run opened = .ok finished closing ∧ t.log = closing.log ++ [.closeFile] := by
  obtain ⟨_, opened, hopen, h⟩ := run_bind_eq_ok_iff.mp h
  rw [run_tryFinally] at h
  cases hbody : body.run opened with
  | error e closing =>
    rw [hbody] at h
    cases hclose : (call world .closeFile).run closing <;> simp [hclose] at h
  | ok found closing =>
    rw [hbody] at h
    cases hclose : (call world .closeFile).run closing with
    | error e closed => simp [hclose] at h
    | ok b closed =>
      simp only [hclose] at h
      obtain ⟨rfl, rfl⟩ := EStateM.Result.ok.inj h
      exact ⟨opened, closing, log_of_run_call hopen, hbody, log_of_run_call hclose⟩

theorem of_run_readChunk {chunk : Bytes} (h : (readChunk world c).run s = .ok chunk t) :
    chunk = world.chunk s.log.length ∧ t.log = s.log ++ [c] := by
  obtain ⟨s', _, hget, h⟩ := run_bind_eq_ok_iff.mp h
  obtain ⟨rfl, rfl⟩ := EStateM.Result.ok.inj hget
  obtain ⟨_, u, hcall, h⟩ := run_bind_eq_ok_iff.mp h
  obtain ⟨rfl, rfl⟩ := EStateM.Result.ok.inj h
  exact ⟨rfl, log_of_run_call hcall⟩

end

variable {t : Transfer}

/-- The loop that comes to the end of the image has made the calls of its rounds. -/
theorem exists_rounds_of_uploadLoop {lastExtend : ℚ} {s : Transfer}
    (h : (uploadLoop world args pos lastExtend).run s = .ok true t) :
    ∃ rounds, UploadRounds world args pos s.log.length rounds ∧
      t.log = s.log ++ rounds.flatten := by
  induction hleft : args.transferSize - pos using Nat.strong_induction_on
    generalizing pos lastExtend s with
  | _ left ih =>
    rw [uploadLoop] at h
    split at h
    case isFalse hend =>
      obtain ⟨-, rfl⟩ := EStateM.Result.ok.inj h
      exact ⟨[], .nil (Nat.le_of_not_lt hend), (List.append_nil _).symm⟩
    case isTrue hpos =>
      obtain ⟨s', _, hget, h⟩ := run_bind_eq_ok_iff.mp h
      obtain ⟨rfl, rfl⟩ := EStateM.Result.ok.inj hget
      obtain ⟨_, extended, hextend, h⟩ := run_bind_eq_ok_iff.mp h
      obtain ⟨chunk, read, hread, h⟩ := run_bind_eq_ok_iff.mp h
      obtain ⟨extension, hextension, hlog⟩ := log_of_run_onlyIf hextend
      obtain ⟨rfl, hreadLog⟩ := of_run_readChunk hread
      split at h
      case isTrue hempty =>
        obtain ⟨_, _, _, h⟩ := run_bind_eq_ok_iff.mp h
        exact nomatch (EStateM.Result.ok.inj h).1
      case isFalse hempty =>
        obtain ⟨_, sent, hsend, h⟩ := run_bind_eq_ok_iff.mp h
        obtain ⟨_, paused, hpause, h⟩ := run_bind_eq_ok_iff.mp h
        have hround : paused.log = s.log ++ uploadRound world args pos extension := by
          rw [(plays_onlyIf plays_pauseAndResume sent).2 _ _ hpause trivial,
            log_of_run_call hsend, hreadLog, hlog]
          simp only [uploadRound, List.append_assoc, List.cons_append, List.nil_append]
        have hlength : extended.log.length = s.log.length + extension.length := by
          rw [hlog, List.length_append]
        rw [hlength] at hempty h
        have hread := List.length_pos_iff.mpr hempty
        obtain ⟨rounds, hrounds, ht⟩ := ih _ (by omega) h rfl
        rw [hround, List.length_append] at hrounds
        refine ⟨_, .cons hextension hempty hrounds, ?_⟩
        rw [ht, hround, List.flatten_cons, List.append_assoc]

/-- The calls before the rounds of `upload_disk`, and those after them. -/
def uploadHead : List Call :=
  [.putrequest, .putheader "Authorization", .putheader "Content-Range",
    .putheader "Content-Length", .endheaders, .openFile]

/-- The calls after the rounds. -/
def uploadTail : List Call := [.closeFile, .getresponse, .finalize, .closeConnection]

/-- An upload that succeeds has made the calls of its rounds. -/
theorem exists_rounds_of_uploadDisk (h : (uploadDisk world args).run {} = .ok true t) :
    ∃ rounds, UploadRounds world args 0 uploadHead.length rounds ∧
      t.log = uploadHead ++ rounds.flatten ++ uploadTail := by
  unfold uploadDisk at h
  simp only [run_bind_eq_ok_iff] at h
  obtain ⟨_, _, hget, _, _, hput, _, _, hauthorization, _, _, hrange, _, _, hlength, _, _, hheaders,
    finished, s, hread, h⟩ := h
  obtain ⟨rfl, rfl⟩ := EStateM.Result.ok.inj hget
  obtain ⟨opened, closing, hopened, hloop, hclosed⟩ := of_run_withOpenToRead hread
  have hhead : opened.log = uploadHead := by
    rw [hopened, log_of_run_call hheaders, log_of_run_call hlength, log_of_run_call hrange,
      log_of_run_call hauthorization, log_of_run_call hput]
    rfl
  cases finished with
  | false => exact nomatch (EStateM.Result.ok.inj h).1
  | true =>
    obtain ⟨rounds, hrounds, hlog⟩ := exists_rounds_of_uploadLoop hloop
    rw [hhead] at hrounds hlog
    refine ⟨rounds, hrounds, ?_⟩
    obtain ⟨response, _, hresponse, h⟩ := run_bind_eq_ok_iff.mp h
    obtain ⟨_, _, hpause, h⟩ := run_bind_eq_ok_iff.mp h
    obtain ⟨_, _, hclean, h⟩ := run_bind_eq_ok_iff.mp h
    obtain ⟨_, _, hget, h⟩ := run_bind_eq_ok_iff.mp h
    obtain ⟨rfl, rfl⟩ := EStateM.Result.ok.inj hget
    obtain ⟨_, _, helapsed, h⟩ := run_bind_eq_ok_iff.mp h
    obtain ⟨hstatus, rfl⟩ := EStateM.Result.ok.inj h
    have hok : response.status = 200 := of_decide_eq_true hstatus
    rw [← eq_of_run_onlyIf_throw helapsed, log_of_run_cleanUp hclean,
      ← eq_of_run_onlyIf_not (fun hnot => hnot hok) hpause,
      (plays_getresponse s).2 response _ hresponse (by omega), hclosed, hlog]
    simp only [uploadTail, List.append_assoc, List.cons_append, List.nil_append]

/-- A round is marked by its pause. -/
theorem isRound_uploadRound {c : Call} (hexact : ExactShares world)
    (hsize : 0 < args.transferSize) (hpause : args.pause = true) (hmarks : MarksPause c .send)
    (hbase : ∀ bytes, c ∉ [Call.extend, .readFile bytes, .send])
    (hextension : extension = [] ∨ extension = [.extend]) :
    IsRound c .send (2 * pos = args.transferSize) (uploadRound world args pos extension) := by
  refine IsRound.congr (isRound_of_base ⟨?_, ?_⟩ hmarks.1 hmarks.2)
    (pauses_iff hexact hsize hpause pos)
  · rcases hextension with rfl | rfl <;> rfl
  · have hbare := hbase (min (args.transferSize - pos) bufSize)
    rcases hextension with rfl | rfl
    · exact fun hmem => hbare (List.mem_cons_of_mem _ hmem)
    · exact hbare

/-- The positions of the rounds do not fall. -/
theorem monotone_uploadPosition (world : World) (log : List Call) :
    Monotone (uploadPosition world log) :=
  List.monotone_sum_take _

theorem readLengths_uploadDisk {t : Transfer}
    (hlog : t.log = uploadHead ++ rounds.flatten ++ uploadTail) :
    readLengths world 0 t.log = readLengths world uploadHead.length rounds.flatten := by
  have hhead : readLengths world 0 uploadHead = [] := rfl
  have htail : ∀ n, readLengths world n uploadTail = [] := fun _ => rfl
  rw [hlog, readLengths_append, readLengths_append, hhead, htail, List.append_nil,
    List.nil_append, Nat.zero_add]

/-- A position that is half of the image is that of a round, since the rounds come to its end. -/
theorem lt_length_of_half {t : Transfer} {n : Nat} (hsize : 0 < args.transferSize)
    (hrounds : UploadRounds world args 0 uploadHead.length rounds)
    (hlog : t.log = uploadHead ++ rounds.flatten ++ uploadTail)
    (hn : 2 * uploadPosition world t.log n = args.transferSize) : n < rounds.length := by
  by_contra hover
  have hend := hrounds.le_sum
  have hlength := hrounds.length_readLengths
  rw [← readLengths_uploadDisk hlog] at hend hlength
  have hall : uploadPosition world t.log n = (readLengths world 0 t.log).sum := by
    rw [uploadPosition, List.take_of_length_le (by omega)]
  omega

/-- An upload pauses once exactly if it comes to half of the image at the end of a read. -/
theorem upload_pausesOnce_iff (hexact : ExactShares world) (hsize : 0 < args.transferSize)
    (hpause : args.pause = true) (hrun : (uploadDisk world args).run {} = .ok true t) :
    PausesOnce .send args.transferSize (uploadPosition world t.log) t.log ↔
      ∃ n, 2 * uploadPosition world t.log n = args.transferSize := by
  obtain ⟨rounds, hrounds, hlog⟩ := exists_rounds_of_uploadDisk hrun
  have hreads := @readLengths_uploadDisk world _ _ hlog
  have hlength : (readLengths world 0 t.log).length = rounds.length := by
    rw [hreads, hrounds.length_readLengths]
  have hround := fun n => @lt_length_of_half world args rounds t n hsize hrounds hlog
  have hunique : ∀ m n, m < n → n < rounds.length →
      uploadPosition world t.log m < uploadPosition world t.log n := by
    intro m n hlt hn
    have hm : m < (readLengths world 0 t.log).length := by omega
    calc uploadPosition world t.log m
        < uploadPosition world t.log (m + 1) := by
          unfold uploadPosition
          rw [List.sum_take_succ _ _ hm]
          refine Nat.lt_add_of_pos_right ?_
          exact hrounds.readLengths_pos _ (hreads ▸ List.getElem_mem hm)
      _ ≤ uploadPosition world t.log n := monotone_uploadPosition world t.log hlt
  have honce : ∀ {c : Call}, MarksPause c .send →
      (∀ bytes, c ∉ [Call.extend, .readFile bytes, .send]) → c ∉ uploadHead → c ∉ uploadTail →
        (OnceAtShare c .send args.transferSize (uploadPosition world t.log) t.log ↔
          ∃ n, 2 * uploadPosition world t.log n = args.transferSize) := by
    intro c hmarks hbase hhead htail
    have hare : AreRounds c .send
        (fun n => 2 * uploadPosition world t.log n = args.transferSize) rounds := by
      intro n round hn
      obtain ⟨extension, hextension, rfl⟩ := hrounds.eq_round hn
      rw [Nat.zero_add, ← hreads]
      exact isRound_uploadRound hexact hsize hpause hmarks hbase hextension
    have hiff := onceAtShare_half_iff hsize (monotone_uploadPosition world t.log) hare
      ⟨hhead, by decide⟩ htail
    rw [← hlog] at hiff
    rw [hiff]
    constructor
    · rintro ⟨n, ⟨-, hn⟩, -⟩
      exact ⟨n, hn⟩
    · rintro ⟨n, hn⟩
      refine ⟨n, ⟨hround n hn, hn⟩, fun m hm => ?_⟩
      rcases Nat.lt_trichotomy m n with hlt | heq | hlt
      · have := hunique m n hlt (hround n hn)
        omega
      · exact heq
      · have := hunique n m hlt hm.1
        omega
  refine (and_congr (honce (marksPause_pauseTransfer (by decide)) ?_ (by decide) (by decide))
    (honce (marksPause_resumeTransfer (by decide)) ?_ (by decide) (by decide))).trans and_self_iff
  · exact fun bytes => by simp
  · exact fun bytes => by simp

theorem askedLengths_append (first second : List Call) :
    askedLengths (first ++ second) = askedLengths first ++ askedLengths second :=
  List.filterMap_append

theorem askedLengths_flatten_cons (hextension : extension = [] ∨ extension = [.extend]) :
    askedLengths (uploadRound world args pos extension :: rounds).flatten =
      min (args.transferSize - pos) bufSize :: askedLengths rounds.flatten := by
  have hround : askedLengths (uploadRound world args pos extension) =
      [min (args.transferSize - pos) bufSize] := by
    rw [uploadRound, askedLengths_append]
    rcases hextension with rfl | rfl <;> split <;> rfl
  rw [List.flatten_cons, askedLengths_append, hround]
  rfl

/-- Where each read returns what was asked for, the positions are multiples of the buffer. -/
theorem UploadRounds.sum_of_full (h : UploadRounds world args pos calls rounds)
    (hfull : readLengths world calls rounds.flatten = askedLengths rounds.flatten)
    (hpos : pos ≤ args.transferSize) {n : Nat} (hn : n ≤ rounds.length) :
    pos + ((readLengths world calls rounds.flatten).take n).sum =
      min args.transferSize (pos + n * bufSize) := by
  induction h generalizing n with
  | nil hend =>
    obtain rfl : n = 0 := Nat.le_zero.mp hn
    rw [List.take_zero, List.sum_nil]
    omega
  | cons hextension hread hrest ih =>
    rw [readLengths_flatten_cons hextension, askedLengths_flatten_cons hextension] at hfull
    obtain ⟨hfirst, hfull⟩ := List.cons.inj hfull
    rw [readLengths_flatten_cons hextension]
    cases n with
    | zero =>
      rw [List.take_zero, List.sum_nil]
      omega
    | succ n =>
      rw [List.take_succ_cons, List.sum_cons, ← Nat.add_assoc,
        ih hfull (by omega) (Nat.le_of_succ_le_succ hn), hfirst, Nat.succ_mul]
      omega

theorem exists_half_iff_of_full (hsize : 0 < args.transferSize)
    (hrun : (uploadDisk world args).run {} = .ok true t)
    (hfull : readLengths world 0 t.log = askedLengths t.log) :
    (∃ n, 2 * uploadPosition world t.log n = args.transferSize) ↔
      2 * bufSize ∣ args.transferSize := by
  obtain ⟨rounds, hrounds, hlog⟩ := exists_rounds_of_uploadDisk hrun
  have hreads := @readLengths_uploadDisk world _ _ hlog
  have hasked : askedLengths t.log = askedLengths rounds.flatten := by
    have htail : askedLengths uploadTail = [] := rfl
    rw [hlog, askedLengths_append, askedLengths_append, htail, List.append_nil]
    rfl
  have hposition : ∀ n ≤ rounds.length,
      uploadPosition world t.log n = min args.transferSize (n * bufSize) := by
    intro n hn
    have hsum := hrounds.sum_of_full (hreads ▸ hasked ▸ hfull) (Nat.zero_le _) hn
    rw [uploadPosition, hreads]
    rwa [Nat.zero_add, Nat.zero_add] at hsum
  have hend : args.transferSize ≤ rounds.length * bufSize := by
    have hsum := hrounds.le_sum
    have hlast := hposition rounds.length le_rfl
    rw [uploadPosition, hreads, ← hrounds.length_readLengths, List.take_length,
      hrounds.length_readLengths] at hlast
    omega
  constructor
  · rintro ⟨n, hn⟩
    rw [hposition n (lt_length_of_half hsize hrounds hlog hn).le] at hn
    exact ⟨n, by rw [Nat.mul_assoc, Nat.mul_comm bufSize]; omega⟩
  · rintro ⟨n, hn⟩
    rw [Nat.mul_assoc, Nat.mul_comm bufSize] at hn
    have hle : n ≤ rounds.length := by
      by_contra hover
      have hmul := Nat.mul_le_mul_right bufSize (Nat.le_of_lt (Nat.lt_of_not_le hover))
      omega
    refine ⟨n, ?_⟩
    rw [hposition n hle]
    omega

end

/-- Of the transfers that succeed, a download pauses once exactly if its size is a multiple of two
chunks, and is interrupted once exactly if one chunk begins between 50 and 51 percent; an upload
pauses once exactly if a read ends at half of the image, which is, for full reads, if its size is a
multiple of two buffers. -/
theorem pauses_and_interrupts_once_iff (world : World) (hexact : ExactShares world) :
    (∀ (args : DownloadArgs) (t : Transfer), 0 < args.transferSize →
      (downloadDisk world args).run {} = .ok true t →
        (args.pause = true → (PausesOnce .getresponse args.transferSize chunkStart t.log ↔
          2 * chunkSize ∣ args.transferSize)) ∧
        (args.interrupt = true →
          (OnceAtShare .attachDisk .getresponse args.transferSize chunkStart t.log ↔
            ∃! n, args.transferSize ≤ 2 * (n * chunkSize) ∧
              100 * (n * chunkSize) < 51 * args.transferSize))) ∧
    (∀ (args : UploadArgs) (t : Transfer), 0 < args.transferSize → args.pause = true →
      (uploadDisk world args).run {} = .ok true t →
        (PausesOnce .send args.transferSize (uploadPosition world t.log) t.log ↔
          ∃ n, 2 * uploadPosition world t.log n = args.transferSize) ∧
        (readLengths world 0 t.log = askedLengths t.log →
          (PausesOnce .send args.transferSize (uploadPosition world t.log) t.log ↔
            2 * bufSize ∣ args.transferSize))) := by
  refine ⟨fun args t hsize hrun => ⟨fun hpause => ?_, fun hinterrupt => ?_⟩,
    fun args t hsize hpause hrun => ?_⟩
  · exact download_pausesOnce_iff hexact hsize hpause hrun
  · exact download_attachesOnce_iff hexact hsize hinterrupt hrun
  · have honce := upload_pausesOnce_iff hexact hsize hpause hrun
    exact ⟨honce, fun hfull => honce.trans (exists_half_iff_of_full hsize hrun hfull)⟩

/-- Nothing raises, each reply is good, and the disk is never attached. -/
def calmWorld : World where
  raises _ := none
  reply _ := { status := 206, body := [], contentLength := .ok 0 }
  chunk _ := []
  attached _ := true
  clock calls := calls
  isPausePer pos size := decide (completedTransferPer pos size = pauseTransferPer)
  isHalf pos size := decide (⌊completedTransferPer pos size⌋ = 50)

theorem exactShares_calmWorld : ExactShares calmWorld := ⟨fun _ _ => rfl, fun _ _ => rfl⟩

theorem exists_run_calmWorld (args : DownloadArgs) :
    ∃ t, (downloadDisk calmWorld args).run {} = .ok true t := by
  have hserved : ServedAfter (Passes calmWorld) [] (downloadCalls calmWorld args) := by
    rw [servedAfter_iff]
    exact fun _ _ _ _ => ⟨rfl, fun _ => (by decide : 206 < 300), fun _ => rfl⟩
  obtain ⟨status, t, hrun, rfl⟩ := (plays_downloadDisk args {}).1.mpr hserved
  exact ⟨t, hrun⟩

/-- An image of two chunks. -/
theorem two_chunks_pause_once : ∃ t,
    (downloadDisk calmWorld { transferSize := 2 * chunkSize, pause := true, interrupt := true }).run
        {} = .ok true t ∧
      PausesOnce .getresponse (2 * chunkSize) chunkStart t.log ∧
      OnceAtShare .attachDisk .getresponse (2 * chunkSize) chunkStart t.log := by
  obtain ⟨t, hrun⟩ := exists_run_calmWorld
    { transferSize := 2 * chunkSize, pause := true, interrupt := true }
  have honce := (pauses_and_interrupts_once_iff calmWorld exactShares_calmWorld).1 _ t
    (by decide) hrun
  refine ⟨t, hrun, (honce.1 rfl).mpr dvd_rfl, (honce.2 rfl).mpr ⟨1, ?_, fun n hn => ?_⟩⟩
  · exact ⟨by decide, by decide⟩
  · unfold chunkSize at hn
    dsimp only at hn
    omega

/-- An image of three chunks: half of it is in the middle of a chunk, and the next one begins at
two thirds. -/
theorem three_chunks_never_pause : ∃ t,
    (downloadDisk calmWorld { transferSize := 3 * chunkSize, pause := true, interrupt := true }).run
        {} = .ok true t ∧
      ¬ PausesOnce .getresponse (3 * chunkSize) chunkStart t.log ∧
      ¬ OnceAtShare .attachDisk .getresponse (3 * chunkSize) chunkStart t.log := by
  obtain ⟨t, hrun⟩ := exists_run_calmWorld
    { transferSize := 3 * chunkSize, pause := true, interrupt := true }
  refine ⟨t, hrun, ?_, ?_⟩
  · rw [download_pausesOnce_iff exactShares_calmWorld (by decide) rfl hrun]
    decide
  · rw [download_attachesOnce_iff exactShares_calmWorld (by decide) rfl hrun]
    rintro ⟨n, hn, -⟩
    unfold chunkSize at hn
    dsimp only at hn
    omega

end OvirtArt.Storage
