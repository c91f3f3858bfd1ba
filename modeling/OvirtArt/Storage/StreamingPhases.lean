import Mathlib.Data.NNRat.Floor
import OvirtArt.Foundation.Loops
import OvirtArt.Storage.StreamingApi

set_option autoImplicit false

/-!
# Waiting for the phase of a transfer

`tests_lib/low_level/streaming_api.py` waits until a new transfer is initialized, and in `pause` and
`resume` for the phase to change.  The engine is a sequence of phases, in the order in which they
are read, and each request takes some time.

The service of the SDK is left out beyond the phases that it reports.  A wait without a limit is
modelled with fuel, and is shown to end for no amount of it where the phase does not change.
-/

namespace OvirtArt.Storage.Phases

open OvirtArt.Foundation OvirtArt.Storage

/-- `types.ImageTransferPhase`. -/
inductive Phase where
  | cancelled
  | finalizingFailure
  | finalizingSuccess
  | finishedFailure
  | finishedSuccess
  | initializing
  | pausedSystem
  | pausedUser
  | resuming
  | transferring
  | unknown
  deriving DecidableEq, Repr

/-- A request to the engine; those that return the transfer with the phase that is read. -/
inductive Request where
  | add (phase : Phase)
  | get (phase : Phase)
  | pause
  | resume
  deriving DecidableEq, Repr

/-- The phases that are read, and how long each request takes. -/
structure Engine where
  phase : Nat → Phase
  duration : Nat → ℚ≥0

/-- The time, the number of phases read, and the requests so far. -/
structure Session where
  clock : ℚ≥0
  reads : Nat
  log : List Request

/-- The transfer that was read last. -/
structure Waiting where
  transfer : Phase
  session : Session

/-! ## The source -/

/-- `TRANSFER_INITIALIZING_STATE_TIMEOUT`. -/
def transferInitializingStateTimeout : Nat := 300

/-- `STATE_TIMEOUT`. -/
def stateTimeout : ℚ≥0 := 60

/-- `PAUSE_SLEEP`. -/
def pauseSleep : ℚ≥0 := 60

/-- `time.sleep(seconds)`. -/
def sleep (seconds : ℚ≥0) (session : Session) : Session :=
  { session with clock := session.clock + seconds }

section

variable (engine : Engine)

/-- A request that returns nothing. -/
def request (r : Request) (session : Session) : Session where
  clock := session.clock + engine.duration session.log.length
  reads := session.reads
  log := session.log ++ [r]

/-- A request that returns the transfer. -/
def read (r : Phase → Request) (session : Session) : Waiting where
  transfer := engine.phase session.reads
  session :=
    { request engine (r (engine.phase session.reads)) session with reads := session.reads + 1 }

/-- A second's sleep, and the transfer is read again. -/
def readAgain (waiting : Waiting) : Waiting := read engine .get (sleep 1 waiting.session)

/-- The transfer is initializing. -/
def isInitializing (waiting : Waiting) : Bool := waiting.transfer == .initializing

/-- The first loop of `get_transfer_service`. -/
def initLoop (fuel : Nat) (waiting : Waiting) : Option (Except Failure Waiting) :=
  whileLoop isInitializing (fun waiting => .ok (readAgain engine waiting)) fuel waiting

/-- A round of the second loop of `get_transfer_service`, with `init_phase_time`. -/
def timedRound (timed : Waiting × Nat) : Except Failure (Waiting × Nat) :=
  if timed.2 + 1 = transferInitializingStateTimeout then
    .ok (readAgain engine timed.1, timed.2 + 1)
  else .error .assertionError

/-- The second loop of `get_transfer_service`. -/
def timedLoop (fuel : Nat) (waiting : Waiting) : Option (Except Failure (Waiting × Nat)) :=
  whileLoop (fun timed => isInitializing timed.1) (timedRound engine) fuel (waiting, 0)

/-- `get_transfer_service`, from the request for a new transfer on. -/
def getTransferService (fuel : Nat) (session : Session) : Option (Except Failure Waiting) :=
  match initLoop engine fuel (read engine .add session) with
  | none => none
  | some (.error e) => some (.error e)
  | some (.ok waiting) => (timedLoop engine fuel waiting).map fun result => result.map Prod.fst

/-- `check_for_timeout`. -/
def checkForTimeout (start : ℚ≥0) (session : Session) : Except Failure Unit :=
  if session.clock - start < stateTimeout then .ok ⟨⟩ else .error .assertionError

/-- A round of the loops of `pause` and `resume`; at an `arrived` phase the time is not checked. -/
def waitRound (arrived : Phase → Bool) (start : ℚ≥0) (waiting : Waiting) :
    Except Failure Waiting :=
  let next := readAgain engine waiting
  if arrived next.transfer then .ok next
  else (checkForTimeout start next.session).map fun _ => next

/-- `resume`. -/
def resume (fuel : Nat) (session : Session) : Option (Except Failure Waiting) :=
  let start := session.clock
  let waiting := read engine .get session
  whileLoop (fun waiting => waiting.transfer == .resuming) (waitRound engine (fun _ => false) start)
    fuel { waiting with session := request engine .resume waiting.session }

/-- `pause`; its `break` leaves the loop with the phase at which it would end as well. -/
def pause (fuel : Nat) (session : Session) : Option (Except Failure Waiting) :=
  let session := request engine .pause session
  let start := session.clock
  let waited := whileLoop (fun waiting => waiting.transfer != .pausedUser)
    (waitRound engine (· == .pausedUser) start) fuel (read engine .get session)
  waited.map fun result =>
    result.map fun waiting => { waiting with session := sleep pauseSleep waiting.session }

end

/-! ## What is asked of it -/

section

variable (engine : Engine)

/-- What is read last after so many more reads. -/
def readsOn (waiting : Waiting) : Nat → Waiting
  | 0 => waiting
  | n + 1 => readAgain engine (readsOn waiting n)

/-- The reads before this one, apart from the first, are within `STATE_TIMEOUT`. -/
def Begun (start : ℚ≥0) (waiting : Waiting) (n : Nat) : Prop :=
  ∀ i < n, 0 < i → (readsOn engine waiting i).session.clock - start < stateTimeout

/-- `get_transfer_service` ends.  It returns after at most as many polls as the timeout says, with
a transfer that is not initializing any more, or gives up if all of them have shown that phase. -/
def GetsTransferService (session : Session) : Prop :=
  ∃ fuel result, getTransferService engine fuel session = some result ∧
    (∀ waiting, result = .ok waiting → waiting.transfer ≠ .initializing ∧
      waiting.session.reads ≤ session.reads + 1 + transferInitializingStateTimeout) ∧
    (result = .error .assertionError ↔ ∀ i ≤ transferInitializingStateTimeout,
      engine.phase (session.reads + i) = .initializing)

/-- `pause` ends, and returns only if the last phase read after the request is `paused_user`; it
gives up if none is that was begun to be read in time. -/
def Pauses (session : Session) : Prop :=
  ∃ fuel result, pause engine fuel session = some result ∧
    (∀ waiting, result = .ok waiting → ∃ reads,
      waiting.session.log = session.log ++ [.pause] ++ reads ∧
        reads.getLast? = some (.get .pausedUser)) ∧
    ((∀ n, Begun engine (request engine .pause session).clock
        (read engine .get (request engine .pause session)) n →
          engine.phase (session.reads + n) ≠ .pausedUser) →
      result = .error .assertionError)

/-- `resume` ends, and returns only if the last phase read after the request is not `resuming`; it
gives up if all are that were begun to be read in time. -/
def Resumes (session : Session) : Prop :=
  ∃ fuel result, resume engine fuel session = some result ∧
    (∀ waiting, result = .ok waiting → ∃ reads phase,
      waiting.session.log =
        session.log ++ [.get (engine.phase session.reads), .resume] ++ reads ∧
          reads.getLast? = some (.get phase) ∧ phase ≠ .resuming) ∧
    ((∀ n, 0 < n → Begun engine session.clock
        { read engine .get session with
          session := request engine .resume (read engine .get session).session } n →
          engine.phase (session.reads + n) = .resuming) →
      result = .error .assertionError)

end

/-! ## Reading on -/

section

variable {engine : Engine} {waiting : Waiting} {session : Session} {start : ℚ≥0}

theorem reads_readsOn (n : Nat) :
    (readsOn engine waiting n).session.reads = waiting.session.reads + n := by
  induction n with
  | zero => rfl
  | succ n ih => exact congrArg (· + 1) ih

/-- What the read after `n` more shows. -/
theorem transfer_readsOn_succ (n : Nat) :
    (readsOn engine waiting (n + 1)).transfer = engine.phase (waiting.session.reads + n) := by
  rw [← reads_readsOn n]
  rfl

theorem transfer_readsOn {k : Nat} (hreads : waiting.session.reads = k + 1)
    (hphase : waiting.transfer = engine.phase k) (n : Nat) :
    (readsOn engine waiting n).transfer = engine.phase (k + n) := by
  cases n with
  | zero => exact hphase
  | succ n => rw [transfer_readsOn_succ, hreads, Nat.add_right_comm, Nat.add_assoc]

theorem log_readsOn_succ (n : Nat) : ∃ reads,
    (readsOn engine waiting (n + 1)).session.log = waiting.session.log ++ reads ∧
      reads.getLast? = some (.get (readsOn engine waiting (n + 1)).transfer) := by
  induction n with
  | zero => exact ⟨[_], rfl, rfl⟩
  | succ n ih =>
    obtain ⟨reads, hlog, -⟩ := ih
    refine ⟨reads ++ [.get (readsOn engine waiting (n + 2)).transfer], ?_,
      List.getLast?_concat⟩
    rw [← List.append_assoc, ← hlog]
    rfl

/-- Each read comes a second after the last, or later. -/
theorem clock_add_le_readsOn (n : Nat) :
    waiting.session.clock + n ≤ (readsOn engine waiting n).session.clock := by
  induction n with
  | zero => simp [readsOn]
  | succ n ih =>
    calc waiting.session.clock + ((n + 1 : Nat) : ℚ≥0)
        = waiting.session.clock + n + 1 := by rw [Nat.cast_succ, add_assoc]
      _ ≤ (readsOn engine waiting n).session.clock + 1 := add_le_add_left ih 1
      _ ≤ (readsOn engine waiting (n + 1)).session.clock := le_self_add

/-! ## Waiting for a phase -/

variable {goes arrived : Phase → Bool}

/-- A round reads a phase to stop at, or reads in time, or gives up. -/
theorem waitRound_cases (engine : Engine) (arrived : Phase → Bool) (start : ℚ≥0)
    (waiting : Waiting) :
    (waitRound engine arrived start waiting = .ok (readAgain engine waiting) ∧
      (arrived (readAgain engine waiting).transfer = true ∨
        (readAgain engine waiting).session.clock - start < stateTimeout)) ∨
    (waitRound engine arrived start waiting = .error .assertionError ∧
      arrived (readAgain engine waiting).transfer = false ∧
        ¬ (readAgain engine waiting).session.clock - start < stateTimeout) := by
  unfold waitRound checkForTimeout
  by_cases harrived : arrived (readAgain engine waiting).transfer = true
  · exact .inl ⟨if_pos harrived, .inl harrived⟩
  · dsimp only
    rw [if_neg harrived]
    by_cases htime : (readAgain engine waiting).session.clock - start < stateTimeout
    · rw [if_pos htime]
      exact .inl ⟨rfl, .inr htime⟩
    · rw [if_neg htime]
      exact .inr ⟨rfl, Bool.eq_false_iff.mpr harrived, htime⟩

/-- The loop does not go through more rounds than `STATE_TIMEOUT` has seconds. -/
theorem not_goesThrough (harrived : ∀ phase, arrived phase = true → goes phase = false)
    (hstart : start ≤ waiting.session.clock) :
    ¬ GoesThrough (fun waiting => goes waiting.transfer) (waitRound engine arrived start)
      (readsOn engine waiting) 62 := by
  intro h
  have hlate : stateTimeout ≤ (readsOn engine waiting 61).session.clock - start := by
    have hclock := @clock_add_le_readsOn engine waiting 61
    rw [le_tsub_iff_left (hstart.trans (le_self_add.trans hclock))]
    calc start + stateTimeout
        ≤ waiting.session.clock + (61 : Nat) := add_le_add hstart (by unfold stateTimeout; norm_num)
      _ ≤ _ := hclock
  have hround : waitRound engine arrived start (readsOn engine waiting 60) =
      .ok (readsOn engine waiting 61) := (h 60 (by omega)).2
  rcases waitRound_cases engine arrived start (readsOn engine waiting 60) with
    ⟨-, hphase | htime⟩ | ⟨herror, -⟩
  · exact absurd (h 61 (by omega)).1 (Bool.eq_false_iff.mp (harrived _ hphase))
  · exact absurd htime (not_lt.mpr hlate)
  · exact nomatch herror.symm.trans hround

/-- How a loop ends that waits for a phase. -/
structure WaitEnds (engine : Engine) (goes : Phase → Bool) (start : ℚ≥0) (waiting : Waiting)
    (n : Nat) (result : Except Failure Waiting) : Prop where
  begun : Begun engine start waiting n
  goes_on : ∀ i < n, goes (readsOn engine waiting i).transfer = true
  ends : (result = .ok (readsOn engine waiting n) ∧
      goes (readsOn engine waiting n).transfer = false) ∨
    (result = .error .assertionError ∧ goes (readsOn engine waiting n).transfer = true)

theorem waitLoop_ends (harrived : ∀ phase, arrived phase = true → goes phase = false)
    (hstart : start ≤ waiting.session.clock) :
    ∃ fuel n result, whileLoop (fun waiting => goes waiting.transfer)
        (waitRound engine arrived start) fuel waiting = some result ∧
      WaitEnds engine goes start waiting n result := by
  obtain ⟨n, -, hthrough, hstop⟩ :=
    exists_stop (@not_goesThrough engine waiting start goes arrived harrived hstart)
  have hgoes : ∀ i < n, goes (readsOn engine waiting i).transfer = true :=
    fun i hi => (hthrough i hi).1
  -- Each of the reads before was checked, since it has not shown a phase to stop at.
  have hbegun : Begun engine start waiting n := by
    rintro i hi hpos
    obtain ⟨i, rfl⟩ := Nat.exists_eq_succ_of_ne_zero hpos.ne'
    rcases waitRound_cases engine arrived start (readsOn engine waiting i) with
      ⟨-, hphase | htime⟩ | ⟨herror, -⟩
    · exact absurd (hgoes (i + 1) hi) (Bool.eq_false_iff.mp (harrived _ hphase))
    · exact htime
    · exact nomatch herror.symm.trans (hthrough i (Nat.lt_of_succ_lt hi)).2
  by_cases hend : goes (readsOn engine waiting n).transfer = true
  · rcases waitRound_cases engine arrived start (readsOn engine waiting n) with
      ⟨hok, -⟩ | ⟨herror, -⟩
    · exact absurd ⟨hend, hok⟩ hstop
    · exact ⟨n + 1, n, _, hthrough.raises hend herror, hbegun, hgoes, .inr ⟨rfl, hend⟩⟩
  · have hend' := Bool.eq_false_iff.mpr hend
    exact ⟨n, n, _, hthrough.ends hend', hbegun, hgoes, .inl ⟨rfl, hend'⟩⟩

/-! ## `pause` and `resume` -/

theorem log_readsOn_read (n : Nat) : ∃ reads,
    (readsOn engine (read engine .get session) n).session.log = session.log ++ reads ∧
      reads.getLast? = some (.get (readsOn engine (read engine .get session) n).transfer) := by
  cases n with
  | zero => exact ⟨[_], rfl, rfl⟩
  | succ n =>
    obtain ⟨reads, hlog, hlast⟩ := @log_readsOn_succ engine (read engine .get session) n
    have hne : reads ≠ [] := by
      rintro rfl
      exact nomatch hlast
    refine ⟨.get (engine.phase session.reads) :: reads, hlog.trans ?_, ?_⟩
    · exact List.append_assoc session.log [_] reads
    · rw [List.getLast?_cons_of_ne_nil hne, hlast]

theorem pauses (engine : Engine) (session : Session) : Pauses engine session := by
  have harrived : ∀ phase : Phase, (phase == .pausedUser) = true → (phase != .pausedUser) = false :=
    fun phase h => by rw [bne, h]; rfl
  obtain ⟨fuel, n, result, hrun, hends⟩ := @waitLoop_ends engine
    (read engine .get (request engine .pause session)) (request engine .pause session).clock
    (fun phase => phase != .pausedUser) (· == .pausedUser) harrived le_self_add
  have htransfer := @transfer_readsOn engine (read engine .get (request engine .pause session))
    session.reads rfl rfl n
  refine ⟨fuel, _, congrArg (Option.map _) hrun, ?_, fun hnever => ?_⟩
  · rintro waiting hwaiting
    rcases hends.ends with ⟨rfl, harrives⟩ | ⟨rfl, -⟩
    · obtain rfl := Except.ok.inj hwaiting
      obtain ⟨reads, hlog, hlast⟩ := @log_readsOn_read engine (request engine .pause session) n
      have hphase : (readsOn engine (read engine .get (request engine .pause session)) n).transfer
          = .pausedUser := by simpa using harrives
      exact ⟨reads, hlog, hphase ▸ hlast⟩
    · exact nomatch hwaiting
  · rcases hends.ends with ⟨-, harrives⟩ | ⟨rfl, -⟩
    · rw [htransfer] at harrives
      exact absurd (by simpa using harrives) (hnever n hends.begun)
    · rfl

/-- `resume` is right exactly if the phase that it reads before the request is `resuming`. -/
theorem resumes_iff (engine : Engine) (session : Session) :
    Resumes engine session ↔ engine.phase session.reads = .resuming := by
  let requested : Waiting := { read engine .get session with
    session := request engine .resume (read engine .get session).session }
  have hlogged : requested.session.log =
      session.log ++ [.get (engine.phase session.reads), .resume] :=
    List.append_assoc session.log [_] [_]
  have hstart : session.clock ≤ requested.session.clock := le_self_add.trans le_self_add
  obtain ⟨fuel, n, result, hrun, hends⟩ := @waitLoop_ends engine requested session.clock
    (fun phase => phase == .resuming) (fun _ => false) nofun hstart
  constructor
  · rintro ⟨more, result', hresume, hreturns, -⟩
    by_contra hphase
    have hgoes : (requested.transfer == Phase.resuming) = false := beq_eq_false_iff_ne.mpr hphase
    have hleft : resume engine 0 session = some (.ok requested) :=
      if_neg (Bool.eq_false_iff.mp hgoes)
    obtain rfl : result' = .ok requested := whileLoop_unique hresume hleft
    obtain ⟨reads, phase, hlog, hlast, -⟩ := hreturns requested rfl
    rw [hlogged, List.self_eq_append_right] at hlog
    rw [hlog] at hlast
    exact nomatch hlast
  · intro hphase
    refine ⟨fuel, result, hrun, ?_, fun hnever => ?_⟩
    · rintro waiting rfl
      rcases hends.ends with ⟨hok, harrives⟩ | ⟨herror, -⟩
      · obtain rfl := Except.ok.inj hok
        cases n with
        | zero => exact absurd hphase (beq_eq_false_iff_ne.mp harrives)
        | succ n =>
          obtain ⟨reads, hlog, hlast⟩ := @log_readsOn_succ engine requested n
          exact ⟨reads, _, hlogged ▸ hlog, hlast, beq_eq_false_iff_ne.mp harrives⟩
      · exact nomatch herror
    · rcases hends.ends with ⟨-, harrives⟩ | ⟨rfl, -⟩
      · cases n with
        | zero => exact absurd hphase (beq_eq_false_iff_ne.mp harrives)
        | succ n =>
          have htransfer := @transfer_readsOn engine requested session.reads rfl rfl (n + 1)
          rw [htransfer] at harrives
          exact absurd (hnever (n + 1) n.succ_pos hends.begun) (beq_eq_false_iff_ne.mp harrives)
      · rfl

/-! ## `get_transfer_service` -/

theorem timedLoop_of_left (h : isInitializing waiting = false) (fuel : Nat) :
    timedLoop engine fuel waiting = some (.ok (waiting, 0)) :=
  @whileLoop_of_not_goes _ _ (fun timed : Waiting × Nat => isInitializing timed.1)
    (timedRound engine) (waiting, 0) h fuel

/-- The second loop is not entered, so nothing gives up. -/
theorem getTransferService_eq_ok {fuel : Nat} {result : Except Failure Waiting}
    (h : getTransferService engine fuel session = some result) :
    ∃ waiting, initLoop engine fuel (read engine .add session) = some (.ok waiting) ∧
      result = .ok waiting ∧ isInitializing waiting = false := by
  unfold getTransferService at h
  cases hinit : initLoop engine fuel (read engine .add session) with
  | none =>
    rw [hinit] at h
    exact nomatch h
  | some first =>
    cases first with
    | error e => exact absurd hinit (whileLoop_ne_error fun waiting => ⟨_, rfl⟩)
    | ok waiting =>
      have hleft : isInitializing waiting = false := goes_of_whileLoop hinit
      rw [hinit] at h
      dsimp only at h
      rw [timedLoop_of_left hleft] at h
      exact ⟨waiting, rfl, (Option.some.inj h).symm, hleft⟩

/-- `get_transfer_service` is right exactly if the phase is another one after as many polls as the
timeout says. -/
theorem getsTransferService_iff (engine : Engine) (session : Session) :
    GetsTransferService engine session ↔ ∃ i ≤ transferInitializingStateTimeout,
      engine.phase (session.reads + i) ≠ .initializing := by
  constructor
  · rintro ⟨fuel, result, hrun, -, hgives⟩
    obtain ⟨waiting, -, rfl, -⟩ := getTransferService_eq_ok hrun
    by_contra hnone
    push Not at hnone
    exact nomatch hgives.mpr hnone
  · intro hsome
    -- The first such poll; the loop goes through those before.
    obtain ⟨hle, hphase⟩ := Nat.find_spec hsome
    have hbefore : ∀ i < Nat.find hsome, engine.phase (session.reads + i) = .initializing := by
      intro i hi
      by_contra hnot
      exact Nat.find_min hsome hi ⟨hi.le.trans hle, hnot⟩
    have htransfer := @transfer_readsOn engine (read engine .add session) session.reads rfl rfl
    have hthrough : GoesThrough isInitializing
        (fun waiting => (.ok (readAgain engine waiting) : Except Failure Waiting))
        (readsOn engine (read engine .add session)) (Nat.find hsome) := by
      intro i hi
      refine ⟨?_, rfl⟩
      rw [isInitializing, htransfer, hbefore i hi]
      rfl
    have hleft : isInitializing (readsOn engine (read engine .add session) (Nat.find hsome)) =
        false := by
      rw [isInitializing, htransfer, beq_eq_false_iff_ne]
      exact hphase
    have hrun : getTransferService engine (Nat.find hsome) session =
        some (.ok (readsOn engine (read engine .add session) (Nat.find hsome))) := by
      have hinit : initLoop engine (Nat.find hsome) (read engine .add session) = _ :=
        hthrough.ends hleft
      unfold getTransferService
      rw [hinit]
      dsimp only
      rw [timedLoop_of_left hleft]
      rfl
    refine ⟨_, _, hrun, ?_, iff_of_false nofun fun hall => hphase (hall _ hle)⟩
    rintro waiting hwaiting
    obtain rfl := Except.ok.inj hwaiting
    refine ⟨beq_eq_false_iff_ne.mp hleft, ?_⟩
    rw [reads_readsOn]
    exact Nat.add_le_add_left hle _

/-- The three waits: `get_transfer_service` is right exactly if the phase changes within its number
of polls, `pause` always is, and `resume` exactly if it reads `resuming` before its request. -/
theorem transfer_phases_iff (engine : Engine) (session : Session) :
    (GetsTransferService engine session ↔ ∃ i ≤ transferInitializingStateTimeout,
      engine.phase (session.reads + i) ≠ .initializing) ∧
    Pauses engine session ∧
    (Resumes engine session ↔ engine.phase session.reads = .resuming) :=
  ⟨getsTransferService_iff engine session, pauses engine session, resumes_iff engine session⟩

end

/-- The phase never changes, and each request takes no time. -/
def stuck (phase : Phase) : Engine where
  phase _ := phase
  duration _ := 0

/-- A session before its first reply. -/
def newSession : Session := { clock := 0, reads := 0, log := [] }

/-- A transfer that stays initializing is waited for without end, and one that is paused when it is
to be resumed counts as resumed before the phase is read again. -/
theorem initializing_forever_and_resumed_unread :
    (∀ fuel, getTransferService (stuck .initializing) fuel newSession = none) ∧
      ¬ GetsTransferService (stuck .initializing) newSession ∧
      ¬ Resumes (stuck .pausedUser) newSession := by
  refine ⟨fun fuel => ?_, ?_, ?_⟩
  · have hthrough : ∀ n, GoesThrough isInitializing
        (fun waiting => (.ok (readAgain (stuck .initializing) waiting) : Except Failure Waiting))
        (readsOn (stuck .initializing) (read (stuck .initializing) .add newSession)) n := by
      intro n i hi
      refine ⟨?_, rfl⟩
      rw [isInitializing, transfer_readsOn rfl rfl]
      rfl
    have hinit : initLoop (stuck .initializing) fuel
        (read (stuck .initializing) .add newSession) = none := whileLoop_eq_none hthrough fuel
    rw [getTransferService, hinit]
  · rw [getsTransferService_iff]
    rintro ⟨i, -, hphase⟩
    exact hphase rfl
  · rw [resumes_iff]
    exact nofun

end OvirtArt.Storage.Phases
