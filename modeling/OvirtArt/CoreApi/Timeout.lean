import Mathlib.Algebra.Order.Ring.NNRat
import Mathlib.Tactic.NormNum
import OvirtArt.CoreApi.PyText
import OvirtArt.Foundation.Effects
import OvirtArt.Foundation.Runs

set_option autoImplicit false

/-!
# `timeout` of `core_api/timeout.py`

The decorator sets the alarm of the process and a handler for `SIGALRM` that raises
`TimeoutExpiredError`, calls the function, sets the old handler again and cancels the alarm.
Time passes while it does, and the alarm is delivered when its time is over, wherever the call
is by then.

The state is that of the process: the handler, the alarm and the clock.  A function that is
decorated is any program on this state, which may set an alarm of its own; one that calls a
decorated function again, and platforms without `SIGALRM`, are left out.
-/

namespace OvirtArt.CoreApi

namespace Timeout

open OvirtArt.Foundation

variable {ε α : Type}

/-! ## The process -/

/-- What `SIGALRM` does. -/
inductive Handler
  /-- `SIG_DFL`: the process is terminated. -/
  | dfl
  | ign
  /-- `_timeout_handler` of a call with this `error_message`. -/
  | timeoutHandler (errorMessage : Text)
deriving DecidableEq, Repr

/-- The handler of `SIGALRM`, the time left until the alarm, and whether the process has not been
terminated. -/
structure Process where
  handler : Handler
  alarm : Option ℚ≥0
  running : Bool

/-- What a call is ended by, when it does not return. -/
inductive Raised (ε : Type)
  | timeoutExpired (errorMessage : Text)
  /-- `RuntimeError('SIGALRM was already activated.')`. -/
  | alreadyActivated
  /-- An exception of the function itself. -/
  | own (exception : ε)
  /-- The process is no more. -/
  | terminated
deriving DecidableEq, Repr

/-- A part of the program. -/
abbrev Timed (ε α : Type) := EStateM (Raised ε) Process α

/-- The alarm goes off. -/
def deliver : Timed ε PUnit := do
  modify fun process => { process with alarm := none }
  match (← get).handler with
  | .dfl =>
    modify fun process => { process with running := false }
    throw .terminated
  | .ign => pure ⟨⟩
  | .timeoutHandler errorMessage => throw (.timeoutExpired errorMessage)

/-- Time passes. -/
def pass (time : ℚ≥0) : Timed ε PUnit := do
  match (← get).alarm with
  | none => pure ⟨⟩
  | some left =>
    if time < left then modify fun process => { process with alarm := some (left - time) }
    else deliver

/-- `signal.signal(signal.SIGALRM, handler)`. -/
def signal (handler : Handler) : Timed ε Handler := do
  let old := (← get).handler
  modify fun process => { process with handler := handler }
  pure old

/-- `signal.alarm(seconds)`; zero seconds cancel the alarm. -/
def alarm (seconds : Nat) : Timed ε PUnit :=
  modify fun process => { process with alarm := if seconds = 0 then none else some seconds }

/-! ## The decorator -/

/-- A run of the function: how long it takes and how it ends if it is left alone, and how it
ends after the handler has raised in it, if it does not let the exception pass. -/
structure Function (ε α : Type) where
  duration : ℚ≥0
  ending : Except ε α
  onExpiry : Option (Except ε α)

/-- The function returns, or raises an exception of its own. -/
def ends : Except ε α → Timed ε α
  | .ok result => pure result
  | .error exception => throw (.own exception)

/-- `func(*args, **kwargs)`. -/
def Function.call (func : Function ε α) : Timed ε α :=
  tryCatch (do pass func.duration; ends func.ending) fun raised =>
    match raised, func.onExpiry with
    | .timeoutExpired _, some ending => ends ending
    | raised, _ => throw raised

/-- A call of a decorated function: the time since the last call, and the times that pass
between the setting of the alarm and the start of the function, between the end of the
function and the setting of the old handler, and from there to the cancelling of the alarm. -/
structure Call (ε α : Type) where
  seconds : Nat
  errorMessage : Text
  func : Function ε α
  gap : ℚ≥0
  entering : ℚ≥0
  leaving : ℚ≥0
  cancelling : ℚ≥0

namespace Call

variable (call : Call ε α)

/-- `new_f`. -/
def newF : Timed ε α := do
  if (← get).handler ≠ .dfl then throw .alreadyActivated
  else do
    let old ← signal (.timeoutHandler call.errorMessage)
    alarm call.seconds
    pass call.entering
    let result ← tryFinally call.func.call do
      pass call.leaving
      signal old
    pass call.cancelling
    alarm 0
    pure result

/-- The time since the last call, and the call. -/
def made : Timed ε α := do
  pass call.gap
  call.newF

/-- The process after the call; a process that has been terminated makes no more calls. -/
def step (process : Process) (call : Call ε α) : Option Process :=
  if process.running then some (after call.made process) else none

/-! ## What is asked of a call -/

/-- The call is not refused, it leaves the handler as it was and no alarm, and the process has
not been terminated. -/
structure Undisturbed (process : Process) (call : Call ε α) : Prop where
  accepted : ∀ after, call.made.run process ≠ .error .alreadyActivated after
  handler_eq : (after call.made process).handler = process.handler
  alarm_eq : (after call.made process).alarm = none
  running : (after call.made process).running = true

/-- The alarm is not set, or it goes off while the function runs, or the function returns and
the alarm is cancelled in time. -/
def Kept : Prop :=
  call.seconds = 0 ∨
    call.entering < call.seconds ∧
      (call.seconds ≤ call.entering + call.func.duration ∨
        call.func.ending.isOk ∧
          call.entering + call.func.duration + call.leaving + call.cancelling < call.seconds)

end Call

/-! ## Time that passes -/

namespace Process

/-- No alarm is set, and its signal would terminate the process. -/
def idle : Process := { handler := .dfl, alarm := none, running := true }

/-- In a call, with the alarm set. -/
def armed (errorMessage : Text) (left : ℚ≥0) : Process :=
  { handler := .timeoutHandler errorMessage, alarm := some left, running := true }

/-- In a call, without an alarm. -/
def disarmed (errorMessage : Text) : Process :=
  { handler := .timeoutHandler errorMessage, alarm := none, running := true }

/-- After a call, with an alarm left. -/
def leaky (left : ℚ≥0) : Process := { handler := .dfl, alarm := some left, running := true }

end Process

section

variable {time left : ℚ≥0} {errorMessage : Text}

theorem run_pass_of_none {process : Process} (h : process.alarm = none) :
    (pass time : Timed ε PUnit).run process = .ok ⟨⟩ process := by
  unfold pass
  change EStateM.run (match process.alarm with | none => _ | some left => _) process = _
  rw [h]
  rfl

theorem run_pass_of_some {process : Process} (h : process.alarm = some left) :
    (pass time : Timed ε PUnit).run process =
      if time < left then .ok ⟨⟩ { process with alarm := some (left - time) }
      else (deliver : Timed ε PUnit).run process := by
  unfold pass
  change EStateM.run (match process.alarm with | none => _ | some left => _) process = _
  rw [h]
  change EStateM.run (if time < left then _ else _) process = _
  split
  · rfl
  · rfl

theorem run_pass_armed_of_lt (h : time < left) :
    (pass time : Timed ε PUnit).run (.armed errorMessage left) =
      .ok ⟨⟩ (.armed errorMessage (left - time)) := by
  rw [run_pass_of_some rfl, if_pos h]
  rfl

theorem run_pass_armed_of_le (h : left ≤ time) :
    (pass time : Timed ε PUnit).run (.armed errorMessage left) =
      .error (.timeoutExpired errorMessage) (.disarmed errorMessage) := by
  rw [run_pass_of_some rfl, if_neg (not_lt.mpr h)]
  rfl

theorem run_pass_leaky_of_lt (h : time < left) :
    (pass time : Timed ε PUnit).run (.leaky left) = .ok ⟨⟩ (.leaky (left - time)) := by
  rw [run_pass_of_some rfl, if_pos h]
  rfl

/-- Outside of a call the alarm terminates the process. -/
theorem run_pass_leaky_of_le (h : left ≤ time) :
    (pass time : Timed ε PUnit).run (.leaky left) =
      .error .terminated { Process.idle with running := false } := by
  rw [run_pass_of_some rfl, if_neg (not_lt.mpr h)]
  rfl

end

/-! ## The function under the alarm -/

namespace Function

variable (func : Function ε α) {errorMessage : Text}

theorem run_ends (ending : Except ε α) (process : Process) :
    (ends ending).run process =
      match ending with
      | .ok result => .ok result process
      | .error exception => .error (.own exception) process := by
  cases ending <;> rfl

theorem after_ends (ending : Except ε α) (process : Process) :
    after (ends ending) process = process := by
  cases ending <;> rfl

theorem run_ends_ne_alreadyActivated (ending : Except ε α) (process last : Process) :
    (ends ending).run process ≠ .error .alreadyActivated last := by
  cases ending with
  | ok result => exact nofun
  | error exception => exact nofun

variable {process next : Process}

/-- The function is left alone. -/
theorem run_call_of_pass (h : (pass func.duration : Timed ε PUnit).run process = .ok ⟨⟩ next) :
    func.call.run process = (ends func.ending).run next := by
  unfold call
  rw [run_tryCatch, EStateM.run_bind, h]
  cases func.ending with
  | ok result => rfl
  | error exception => rfl

/-- The handler raises in the function. -/
theorem run_call_of_expired (h : (pass func.duration : Timed ε PUnit).run process =
      .error (.timeoutExpired errorMessage) next) :
    func.call.run process =
      match func.onExpiry with
      | some ending => (ends ending).run next
      | none => .error (.timeoutExpired errorMessage) next := by
  unfold call
  rw [run_tryCatch, EStateM.run_bind, h]
  cases func.onExpiry with
  | none => rfl
  | some ending => rfl

theorem after_call_of_pass (h : (pass func.duration : Timed ε PUnit).run process = .ok ⟨⟩ next) :
    after func.call process = next := by
  unfold after
  rw [run_call_of_pass func h]
  exact after_ends func.ending next

theorem after_call_of_expired (h : (pass func.duration : Timed ε PUnit).run process =
      .error (.timeoutExpired errorMessage) next) : after func.call process = next := by
  unfold after
  rw [run_call_of_expired func h]
  cases func.onExpiry with
  | none => rfl
  | some ending => exact after_ends ending next

end Function

/-! ## One call -/

/-- What is left after a call as it should be: no alarm and the handler from before, after a
call that was not refused. -/
def Settled : EStateM.Result (Raised ε) Process α → Prop
  | .ok _ process => process = .idle
  | .error raised process => raised ≠ .alreadyActivated ∧ process = .idle

namespace Call

variable (call : Call ε α)

/-- `new_f` from the setting of the alarm on. -/
def guarded : Timed ε α := do
  pass call.entering
  let result ← tryFinally call.func.call do
    pass call.leaving
    signal .dfl
  pass call.cancelling
  alarm 0
  pure result

theorem run_made_idle :
    call.made.run .idle =
      call.guarded.run
        (if call.seconds = 0 then .disarmed call.errorMessage
          else .armed call.errorMessage call.seconds) := by
  unfold made
  change call.guarded.run
    { handler := _, alarm := if call.seconds = 0 then none else some call.seconds, running := _ } = _
  split
  · rfl
  · rfl

theorem undisturbed_idle_iff : Undisturbed .idle call ↔ Settled (call.made.run .idle) := by
  constructor
  · intro h
    have hidle : after call.made .idle = .idle := by
      have hhandler := h.handler_eq
      have halarm := h.alarm_eq
      have hrunning := h.running
      generalize after call.made .idle = process at hhandler halarm hrunning
      cases process
      subst hhandler halarm hrunning
      rfl
    have haccepted := h.accepted
    unfold after at hidle
    cases hrun : call.made.run .idle with
    | ok result process =>
      rw [hrun] at hidle
      exact hidle
    | error raised process =>
      rw [hrun] at hidle
      exact ⟨fun hraised => haccepted process (hrun.trans (by rw [hraised])), hidle⟩
  · intro h
    cases hrun : call.made.run .idle with
    | ok result process =>
      rw [hrun] at h
      have hafter : after call.made .idle = .idle := (after_eq_of_ok hrun).trans h
      exact ⟨fun _ hrefused => (nomatch hrun.symm.trans hrefused), by rw [hafter],
        by rw [hafter]; rfl, by rw [hafter]; rfl⟩
    | error raised process =>
      rw [hrun] at h
      have hafter : after call.made .idle = .idle := (after_eq_of_error hrun).trans h.2
      refine ⟨fun _ hrefused => h.1 ?_, by rw [hafter], by rw [hafter]; rfl, by rw [hafter]; rfl⟩
      rw [hrun] at hrefused
      injection hrefused

variable {process next inside last : Process} {raised : Raised ε}

/-- The finally block sets the old handler, unless the alarm is delivered before. -/
theorem run_finally_of_pass (h : (pass call.leaving : Timed ε PUnit).run process = .ok ⟨⟩ next) :
    (do pass call.leaving; signal .dfl : Timed ε Handler).run process =
      .ok next.handler { next with handler := .dfl } := by
  rw [EStateM.run_bind, h]
  rfl

theorem run_finally_of_expired
    (h : (pass call.leaving : Timed ε PUnit).run process = .error raised next) :
    (do pass call.leaving; signal .dfl : Timed ε Handler).run process = .error raised next := by
  rw [EStateM.run_bind, h]

/-- The function returns, and the old handler is set again. -/
theorem run_guarded_of_returned {result : α} {former : Handler}
    (henter : (pass call.entering : Timed ε PUnit).run process = .ok ⟨⟩ inside)
    (hcall : call.func.call.run inside = .ok result last)
    (hfinally : (do pass call.leaving; signal .dfl : Timed ε Handler).run last = .ok former next) :
    call.guarded.run process =
      (do pass call.cancelling; alarm 0; pure result : Timed ε α).run next := by
  unfold guarded
  rw [EStateM.run_bind, henter]
  simp only
  rw [EStateM.run_bind, run_tryFinally, hcall]
  simp only [hfinally]

/-- The function raises, and the old handler is set again. -/
theorem run_guarded_of_raised {former : Handler}
    (henter : (pass call.entering : Timed ε PUnit).run process = .ok ⟨⟩ inside)
    (hcall : call.func.call.run inside = .error raised last)
    (hfinally : (do pass call.leaving; signal .dfl : Timed ε Handler).run last = .ok former next) :
    call.guarded.run process = .error raised next := by
  unfold guarded
  rw [EStateM.run_bind, henter]
  simp only
  rw [EStateM.run_bind, run_tryFinally, hcall]
  simp only [hfinally]

/-- The alarm is delivered in the finally block: the old handler is not set. -/
theorem run_guarded_of_late
    (henter : (pass call.entering : Timed ε PUnit).run process = .ok ⟨⟩ inside)
    (hlast : after call.func.call inside = last)
    (hfinally : (do pass call.leaving; signal .dfl : Timed ε Handler).run last = .error raised next)
    :
    call.guarded.run process = .error raised next := by
  unfold guarded
  rw [EStateM.run_bind, henter]
  simp only
  rw [EStateM.run_bind, run_tryFinally]
  unfold after at hlast
  cases hcall : call.func.call.run inside with
  | ok result last =>
    rw [hcall] at hlast
    subst hlast
    simp only [hfinally]
  | error raised last =>
    rw [hcall] at hlast
    subst hlast
    simp only [hfinally]

/-- Once there is no alarm, whatever the function does ends well. -/
theorem settled_guarded_of_disarmed {errorMessage : Text}
    (henter : (pass call.entering : Timed ε PUnit).run process = .ok ⟨⟩ inside)
    (hlast : after call.func.call inside = .disarmed errorMessage)
    (hraised : ∀ last, call.func.call.run inside ≠ .error .alreadyActivated last) :
    Settled (call.guarded.run process) := by
  have hfinally :=
    call.run_finally_of_pass (run_pass_of_none (rfl : (Process.disarmed errorMessage).alarm = none))
  cases hcall : call.func.call.run inside with
  | ok result last =>
    obtain rfl : last = .disarmed errorMessage := (after_eq_of_ok hcall).symm.trans hlast
    rw [call.run_guarded_of_returned henter hcall hfinally, EStateM.run_bind]
    exact rfl
  | error raised last =>
    obtain rfl : last = .disarmed errorMessage := (after_eq_of_error hcall).symm.trans hlast
    rw [call.run_guarded_of_raised henter hcall hfinally]
    exact ⟨fun h => hraised _ (hcall.trans (by rw [h])), rfl⟩

/-! ### The cases of the time -/

theorem settled_of_no_alarm (errorMessage : Text) :
    Settled (call.guarded.run (.disarmed errorMessage)) := by
  have hpass : ∀ time, (pass time : Timed ε PUnit).run (.disarmed errorMessage) =
      .ok ⟨⟩ (.disarmed errorMessage) := fun time => run_pass_of_none rfl
  apply call.settled_guarded_of_disarmed (hpass _) (call.func.after_call_of_pass (hpass _))
  intro last
  rw [call.func.run_call_of_pass (hpass _)]
  exact Function.run_ends_ne_alreadyActivated call.func.ending _ last

section

variable {errorMessage : Text} {left : ℚ≥0}

/-- The alarm is delivered before the function starts. -/
theorem not_settled_of_early (h : left ≤ call.entering) :
    ¬ Settled (call.guarded.run (.armed errorMessage left)) := by
  unfold guarded
  rw [EStateM.run_bind, run_pass_armed_of_le h]
  intro hsettled
  exact nomatch congrArg Process.handler hsettled.2

/-- The alarm is delivered in the function. -/
theorem settled_of_expired (henter : call.entering < left)
    (h : left - call.entering ≤ call.func.duration) :
    Settled (call.guarded.run (.armed errorMessage left)) := by
  have hpass : (pass call.func.duration : Timed ε PUnit).run
      (.armed errorMessage (left - call.entering)) =
        .error (.timeoutExpired errorMessage) (.disarmed errorMessage) := run_pass_armed_of_le h
  apply call.settled_guarded_of_disarmed (run_pass_armed_of_lt henter)
    (call.func.after_call_of_expired hpass)
  intro last
  rw [call.func.run_call_of_expired hpass]
  cases call.func.onExpiry with
  | none => exact nofun
  | some ending => exact Function.run_ends_ne_alreadyActivated ending _ last

/-- The alarm is delivered in the finally block. -/
theorem not_settled_of_late (henter : call.entering < left)
    (hfunc : call.func.duration < left - call.entering)
    (h : left - call.entering - call.func.duration ≤ call.leaving) :
    ¬ Settled (call.guarded.run (.armed errorMessage left)) := by
  have hlast := call.func.after_call_of_pass
    (@run_pass_armed_of_lt ε _ _ errorMessage hfunc)
  rw [call.run_guarded_of_late (run_pass_armed_of_lt henter) hlast
    (call.run_finally_of_expired (run_pass_armed_of_le h))]
  intro hsettled
  exact nomatch congrArg Process.handler hsettled.2

section

variable (henter : call.entering < left)
  (hfunc : call.func.duration < left - call.entering)
  (hleave : call.leaving < left - call.entering - call.func.duration)

include henter hfunc hleave

/-- The alarm is not cancelled after an exception. -/
theorem not_settled_of_raised (h : ¬ call.func.ending.isOk) :
    ¬ Settled (call.guarded.run (.armed errorMessage left)) := by
  have hcall := call.func.run_call_of_pass
    (@run_pass_armed_of_lt ε _ _ errorMessage hfunc)
  rw [Function.run_ends] at hcall
  cases hending : call.func.ending with
  | ok result =>
    rw [hending] at h
    exact absurd rfl h
  | error exception =>
    simp only [hending] at hcall
    rw [call.run_guarded_of_raised (run_pass_armed_of_lt henter) hcall
      (call.run_finally_of_pass (run_pass_armed_of_lt hleave))]
    intro hsettled
    exact nomatch congrArg Process.alarm hsettled.2

/-- After the function has returned it is left to the time whether the alarm is delivered
before it is cancelled. -/
theorem settled_of_returned_iff (h : call.func.ending.isOk) :
    Settled (call.guarded.run (.armed errorMessage left)) ↔
      call.cancelling < left - call.entering - call.func.duration - call.leaving := by
  have hcall := call.func.run_call_of_pass
    (@run_pass_armed_of_lt ε _ _ errorMessage hfunc)
  rw [Function.run_ends] at hcall
  cases hending : call.func.ending with
  | error exception =>
    rw [hending] at h
    exact nomatch h
  | ok result =>
    simp only [hending] at hcall
    rw [call.run_guarded_of_returned (run_pass_armed_of_lt henter) hcall
      (call.run_finally_of_pass (run_pass_armed_of_lt hleave))]
    change Settled (EStateM.run _ (.leaky _)) ↔ _
    rw [EStateM.run_bind]
    by_cases hcancel :
        call.cancelling < left - call.entering - call.func.duration - call.leaving
    · rw [run_pass_leaky_of_lt hcancel]
      exact iff_of_true rfl hcancel
    · rw [run_pass_leaky_of_le (not_lt.mp hcancel)]
      refine iff_of_false (fun hsettled => ?_) hcancel
      exact nomatch congrArg Process.running hsettled.2

end

/-- What decides over a call with an alarm. -/
theorem settled_armed_iff :
    Settled (call.guarded.run (.armed errorMessage left)) ↔
      call.entering < left ∧
        (left ≤ call.entering + call.func.duration ∨
          call.func.ending.isOk ∧
            call.entering + call.func.duration + call.leaving + call.cancelling < left) := by
  rcases le_or_gt left call.entering with hearly | henter
  · exact iff_of_false (call.not_settled_of_early hearly) fun h => absurd h.1 (not_lt.mpr hearly)
  rcases le_or_gt (left - call.entering) call.func.duration with hexpired | hfunc
  · exact iff_of_true (call.settled_of_expired henter hexpired)
      ⟨henter, .inl (tsub_le_iff_left.mp hexpired)⟩
  have hnot : ¬ left ≤ call.entering + call.func.duration :=
    fun h => absurd (tsub_le_iff_left.mpr h) (not_le.mpr hfunc)
  rcases le_or_gt (left - call.entering - call.func.duration) call.leaving with hlate | hleave
  · refine iff_of_false (call.not_settled_of_late henter hfunc hlate) ?_
    rintro ⟨_, h | ⟨_, h⟩⟩
    · exact hnot h
    · rw [tsub_tsub, tsub_le_iff_left] at hlate
      exact absurd (h.trans_le hlate) (not_lt.mpr le_self_add)
  by_cases hending : call.func.ending.isOk
  · rw [call.settled_of_returned_iff henter hfunc hleave hending]
    simp only [henter, hnot, hending, true_and, false_or]
    rw [tsub_tsub, tsub_tsub, lt_tsub_iff_left, ← add_assoc]
  · refine iff_of_false (call.not_settled_of_raised henter hfunc hleave hending) ?_
    rintro ⟨_, h | ⟨h, _⟩⟩
    · exact hnot h
    · exact hending h

end

/-- What decides over a call. -/
theorem undisturbed_iff : Undisturbed .idle call ↔ call.Kept := by
  rw [call.undisturbed_idle_iff, call.run_made_idle]
  unfold Kept
  by_cases hzero : call.seconds = 0
  · rw [if_pos hzero]
    exact iff_of_true (call.settled_of_no_alarm call.errorMessage) (.inl hzero)
  · rw [if_neg hzero, call.settled_armed_iff]
    simp only [hzero, false_or]

theorem after_made_idle (h : Undisturbed .idle call) : after call.made .idle = .idle := by
  rw [undisturbed_idle_iff] at h
  unfold after
  cases hrun : call.made.run .idle with
  | ok result process =>
    rw [hrun] at h
    exact h
  | error raised process =>
    rw [hrun] at h
    exact h.2

theorem step_idle : step .idle call = some (after call.made .idle) := rfl

end Call

/-! ## Sequences of calls -/

/-- Every call of a sequence leaves the process as it was exactly if each of them is without an
alarm, or is ended by it, or returns and cancels it in time.  A function that raises an exception
of its own leaves its alarm behind. -/
theorem calls_undisturbed_iff (calls : List (Call ε α)) :
    EveryStep Call.step Call.Undisturbed .idle calls ↔ ∀ call ∈ calls, call.Kept := by
  induction calls with
  | nil => simp [EveryStep]
  | cons call rest ih =>
    have hhead : EveryStep Call.step Call.Undisturbed .idle (call :: rest) ↔
        Call.Undisturbed .idle call ∧
          EveryStep Call.step Call.Undisturbed (after call.made .idle) rest :=
      ⟨fun h => h _ call.step_idle, fun h next hstep => by
        rw [call.step_idle] at hstep
        obtain rfl := Option.some.inj hstep
        exact h⟩
    rw [hhead, List.forall_mem_cons, ← call.undisturbed_iff]
    refine and_congr_right fun hcall => ?_
    rw [call.after_made_idle hcall]
    exact ih

/-- A function that raises at once, under an alarm of five seconds. -/
def raisesAtOnce : Call Nat Nat where
  seconds := 5
  errorMessage := "failed due to timeout".toList
  func := { duration := 1, ending := .error 0, onExpiry := none }
  gap := 0
  entering := 0
  leaving := 0
  cancelling := 0

/-- The alarm of a function that has raised is still pending. -/
theorem raisesAtOnce_disturbs :
    ¬ EveryStep Call.step Call.Undisturbed .idle [raisesAtOnce] := by
  intro h
  have hkept := raisesAtOnce.undisturbed_iff.mp (h _ raisesAtOnce.step_idle).1
  obtain hzero | ⟨_, hexpired | ⟨hreturned, _⟩⟩ := hkept
  · exact absurd hzero (by decide)
  · change ((5 : ℕ) : ℚ≥0) ≤ 0 + 1 at hexpired
    norm_num at hexpired
  · exact absurd hreturned (by decide)

end Timeout

end OvirtArt.CoreApi
