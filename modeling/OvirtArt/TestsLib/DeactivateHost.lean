import OvirtArt.CoreApi.SampledLoops
import OvirtArt.CoreApi.WaitForStatus

set_option autoImplicit false

/-!
# `deactivate_host` of `low_level/hosts.py`

The function polls the SPM status of the host until it is no longer contending.  What it polls is
the object that was fetched before the loop, so each poll shows what the first one does.

How the host comes to be inactive is the outcome of another wait, and is a parameter.  The
election of an SPM is a history of statuses of which nothing is assumed.
-/

namespace OvirtArt.TestsLib.DeactivateHost

open OvirtArt.CoreApi OvirtArt.Foundation
open OvirtArt.CoreApi.RestUtil (Report waitOn)

/-- What the function raises. -/
inductive DeactivateException where
  /-- What the client raises while it waits. -/
  | client (e : PyException)
  /-- `APITimeout`. -/
  | apiTimeout
  deriving DecidableEq, Repr

/-- `ENUMS["spm_state_contending"]`. -/
def contending : Text := "contending".toList

/-- What the engine says of a host. -/
structure Engine where
  /-- The SPM status of the host object that is fetched. -/
  fetched : Text
  /-- The SPM status that the engine reports at each poll, and how long the poll takes. -/
  reported : Nat → Sample Text
  /-- `is_hosted_engine_configured`. -/
  heHost : Bool
  /-- Whether the request ends as expected. -/
  syncAction : Bool → Bool
  /-- What the polls show of the host after the request. -/
  reports : Nat → Report
  /-- `wait_for_hosted_engine_maintenance_state`. -/
  hostedEngineMaintenance : Except DeactivateException Bool

/-- The arguments of `deactivate_host`. -/
structure DeactivateArgs where
  positive : Bool
  expectedStatus : Text
  timeout : Option Nat
  /-- Whether a host resource is given. -/
  hostResource : Bool

/-- What a call comes to: after which polls the request was sent, and the answer. -/
structure Deactivation where
  requests : List Nat
  answer : Except DeactivateException Bool
  deriving Repr

/-! ## The source -/

section

variable (engine : Engine) (args : DeactivateArgs)

/-- `timeout`, or the default where it is no true value. -/
def effectiveTimeout : Nat :=
  match args.timeout with
  | some (seconds + 1) => seconds + 1
  | _ => if engine.heHost then 600 else 180

/-- `TimeoutingSampler(timeout, 1, lambda x: x.get_spm().status, host_obj)`. -/
def spmSampler : TimeoutingSampler Text where
  timeout := effectiveTimeout engine args
  sleep := 1
  sleep_pos := one_second_pos
  func := fun i => { result := engine.fetched, duration := (engine.reported i).duration }

/-- What is returned once the request has been sent. -/
def afterRequest : Except DeactivateException Bool :=
  if !engine.syncAction args.positive then .ok false
  else if !args.positive then .ok true
  else
    match (waitOn args.expectedStatus (effectiveTimeout engine args) engine.reports).1 with
    | .error e => .error (.client e)
    | .ok false => .ok false
    | .ok true =>
      if args.hostResource && engine.heHost then engine.hostedEngineMaintenance else .ok true

/-- The body of the loop, with the number of the poll. -/
def body (poll : Nat) (sample : Text) : BodyFlow Nat (Nat × Except DeactivateException Bool) :=
  if sample ≠ contending then .leaves (poll, afterRequest engine args) else .goesOn (poll + 1)

/-- `except APITimeout`. -/
def catching : Except DeactivateException Bool → Except DeactivateException Bool
  | .error .apiTimeout => .ok (!args.positive)
  | answer => answer

/-- `deactivate_host`, whose loop begins at `clock`. -/
def deactivateHost (clock : ℚ≥0) : Deactivation :=
  match (spmSampler engine args).forLoop clock (body engine args) 0 with
  | none => { requests := [], answer := catching args (.error .apiTimeout) }
  | some (poll, answer) => { requests := [poll], answer := catching args answer }

end

/-! ## What is asked of it -/

section

variable (engine : Engine) (expectedStatus : Text) (timeout : Option Nat) (clock : ℚ≥0)

/-- A positive call without a host resource. -/
def positiveArgs : DeactivateArgs where
  positive := true
  expectedStatus := expectedStatus
  timeout := timeout
  hostResource := false

/-- A sampler of the statuses that the engine reports. -/
def reportSampler : TimeoutingSampler Text where
  timeout := effectiveTimeout engine (positiveArgs expectedStatus timeout)
  sleep := 1
  sleep_pos := one_second_pos
  func := engine.reported

/-- At this poll, which is before the timeout, the engine reports that the election is over. -/
def ElectedAt (n : Nat) : Prop :=
  (reportSampler engine expectedStatus timeout).InTime clock n ∧
    (engine.reported n).result ≠ contending

/-- The host reaches the status within the timeout. -/
def Reaches : Prop :=
  ∃ i ≤ effectiveTimeout engine (positiveArgs expectedStatus timeout) / defSleep,
    (engine.reports i).Requested expectedStatus

/-- The request is sent exactly if the election ends in time, once and not before that, and the
answer is `True` exactly if the request is then accepted and the host reaches the status. -/
structure WaitsOut (deactivation : Deactivation) : Prop where
  once : deactivation.requests.length ≤ 1
  sends : deactivation.requests ≠ [] ↔ ∃ n, ElectedAt engine expectedStatus timeout clock n
  after : ∀ poll ∈ deactivation.requests, ∃ n ≤ poll,
    ElectedAt engine expectedStatus timeout clock n
  answers : deactivation.answer = .ok true ↔
    (∃ n, ElectedAt engine expectedStatus timeout clock n) ∧ engine.syncAction true = true ∧
      Reaches engine expectedStatus timeout
  stays : (¬ ∃ n, ElectedAt engine expectedStatus timeout clock n) →
    deactivation.answer = .ok false

/-- The status that was fetched is as good as those that are reported: it is not contending and
neither is the first of them, or it is and all in time are.  Where the request is accepted and the
host reaches the status, nothing final comes before. -/
structure FetchedTells : Prop where
  status : engine.fetched ≠ contending ∧ (engine.reported 0).result ≠ contending ∨
    engine.fetched = contending ∧ ∀ n,
      (reportSampler engine expectedStatus timeout).InTime clock n →
        (engine.reported n).result = contending
  reaches : engine.fetched ≠ contending → engine.syncAction true = true →
    Reaches engine expectedStatus timeout →
      ∃ i ≤ effectiveTimeout engine (positiveArgs expectedStatus timeout) / defSleep,
        (engine.reports i).Requested expectedStatus ∧
          ∀ j < i, (engine.reports j).Waits expectedStatus false

end

/-! ## The loop -/

section

variable {engine : Engine} {args : DeactivateArgs} {expectedStatus : Text} {timeout : Option Nat}
  {clock : ℚ≥0}

/-- Where the fetched status is not contending, the first poll leads to the request. -/
theorem deactivateHost_of_ne (h : engine.fetched ≠ contending) :
    deactivateHost engine args clock =
      { requests := [0], answer := catching args (afterRequest engine args) } := by
  have hloop : (spmSampler engine args).forLoop clock (body engine args) 0 =
      some (0, afterRequest engine args) := by
    apply TimeoutingSampler.forLoop_eq_some_iff.mpr
    refine ⟨0, TimeoutingSampler.inTime_zero _ _, value?_eq_some_iff.mpr ?_⟩
    change runBody (body engine args) 0 [engine.fetched] = _
    rw [runBody, body, if_pos h]
  unfold deactivateHost
  rw [hloop]

/-- Where it is contending, no poll leads to it. -/
theorem runBody_of_contending (n poll : Nat) :
    runBody (body engine args) poll (List.replicate n contending) = .goesOn (poll + n) := by
  induction n generalizing poll with
  | zero => rfl
  | succ n ih =>
    rw [List.replicate_succ, runBody, body, if_neg (not_not_intro rfl)]
    dsimp only
    rw [ih, Nat.add_assoc, Nat.add_comm 1]

theorem deactivateHost_of_eq (h : engine.fetched = contending) :
    deactivateHost engine args clock = { requests := [], answer := .ok (!args.positive) } := by
  have hloop : (spmSampler engine args).forLoop clock (body engine args) 0 = none := by
    apply TimeoutingSampler.forLoop_eq_none_iff.mpr
    intro n _
    have hresults : (spmSampler engine args).firstResults (n + 1) =
        List.replicate (n + 1) contending := by
      change (List.range (n + 1)).map (fun _ => engine.fetched) = _
      rw [List.map_const', List.length_range, h]
    rw [hresults, runBody_of_contending]
    rfl
  unfold deactivateHost
  rw [hloop]
  rfl

/-- Once the request has been sent, the answer is `True` exactly if it was accepted and the status
comes before any that is final. -/
theorem afterRequest_eq_true_iff :
    catching (positiveArgs expectedStatus timeout)
        (afterRequest engine (positiveArgs expectedStatus timeout)) = .ok true ↔
      engine.syncAction true = true ∧
        ∃ i ≤ effectiveTimeout engine (positiveArgs expectedStatus timeout) / defSleep,
          (engine.reports i).Requested expectedStatus ∧
            ∀ j < i, (engine.reports j).Waits expectedStatus false := by
  rw [← RestUtil.waitOn_eq_true_iff]
  unfold afterRequest
  change catching _ (if !engine.syncAction true then _ else _) = _ ↔ _
  cases engine.syncAction true with
  | false => exact iff_of_false nofun fun h => nomatch h.1
  | true =>
    rw [and_iff_right rfl]
    change catching _ (match (waitOn expectedStatus _ engine.reports).1 with
      | .error e => _ | .ok false => _ | .ok true => .ok true) = _ ↔ _
    cases (waitOn expectedStatus
        (effectiveTimeout engine (positiveArgs expectedStatus timeout)) engine.reports).1 with
    | error e => exact iff_of_false nofun nofun
    | ok found =>
      cases found with
      | false => exact iff_of_false nofun nofun
      | true => exact iff_of_true rfl rfl

end

/-- The function waits out the election exactly if the status that it has fetched is as good as
those that are reported, and nothing final comes before the status that is waited for. -/
theorem waits_out_election_iff (engine : Engine) (expectedStatus : Text) (timeout : Option Nat)
    (clock : ℚ≥0) :
    WaitsOut engine expectedStatus timeout clock
        (deactivateHost engine (positiveArgs expectedStatus timeout) clock) ↔
      FetchedTells engine expectedStatus timeout clock := by
  have hzero : (engine.reported 0).result ≠ contending →
      ElectedAt engine expectedStatus timeout clock 0 :=
    fun h => ⟨TimeoutingSampler.inTime_zero _ _, h⟩
  by_cases hfetched : engine.fetched = contending
  · rw [deactivateHost_of_eq hfetched]
    have hnone : (¬ ∃ n, ElectedAt engine expectedStatus timeout clock n) ↔
        ∀ n, (reportSampler engine expectedStatus timeout).InTime clock n →
          (engine.reported n).result = contending := by
      unfold ElectedAt
      push Not
      rfl
    constructor
    · intro h
      exact ⟨Or.inr ⟨hfetched, hnone.mp fun helected => h.sends.mpr helected rfl⟩,
        fun hne => absurd hfetched hne⟩
    · intro h
      have hstays : ¬ ∃ n, ElectedAt engine expectedStatus timeout clock n := by
        cases h.status with
        | inl hne => exact absurd hfetched hne.1
        | inr hall => exact hnone.mpr hall.2
      exact ⟨Nat.zero_le 1, iff_of_false (not_not_intro rfl) hstays, nofun,
        iff_of_false nofun fun hanswer => hstays hanswer.1, fun _ => rfl⟩
  · rw [deactivateHost_of_ne hfetched]
    constructor
    · intro h
      have helected : ElectedAt engine expectedStatus timeout clock 0 := by
        obtain ⟨n, hn, helected⟩ := h.after 0 (List.mem_singleton_self 0)
        rwa [Nat.le_zero.mp hn] at helected
      refine ⟨Or.inl ⟨hfetched, helected.2⟩, fun _ haccepted hreaches => ?_⟩
      have htrue := h.answers.mpr ⟨⟨0, helected⟩, haccepted, hreaches⟩
      exact (afterRequest_eq_true_iff.mp htrue).2
    · intro h
      have helected : ElectedAt engine expectedStatus timeout clock 0 := by
        cases h.status with
        | inl hne => exact hzero hne.2
        | inr hall => exact absurd hall.1 hfetched
      refine ⟨le_rfl, iff_of_true (List.cons_ne_nil _ _) ⟨0, helected⟩, ?_, ?_, ?_⟩
      · intro poll hpoll
        exact ⟨0, Nat.zero_le poll, helected⟩
      · rw [afterRequest_eq_true_iff]
        constructor
        · intro ⟨haccepted, i, hi, hrequested, _⟩
          exact ⟨⟨0, helected⟩, haccepted, i, hi, hrequested⟩
        · intro ⟨_, haccepted, hreaches⟩
          exact ⟨haccepted, h.reaches hfetched haccepted hreaches⟩
      · intro hnone
        exact absurd ⟨0, helected⟩ hnone

/-! ## An election that ends -/

/-- A host that contends at the first poll only, and then goes into maintenance. -/
def electedLater : Engine where
  fetched := contending
  reported := fun i =>
    { result := if i = 0 then contending else "none".toList, duration := 0 }
  heHost := false
  syncAction := fun _ => true
  reports := fun _ => .status "maintenance".toList
  hostedEngineMaintenance := .ok true

/-- It is not deactivated. -/
theorem election_end_not_seen :
    (deactivateHost electedLater (positiveArgs "maintenance".toList none) 0).requests = [] ∧
      (deactivateHost electedLater (positiveArgs "maintenance".toList none) 0).answer =
        .ok false ∧
      ¬ WaitsOut electedLater "maintenance".toList none 0
        (deactivateHost electedLater (positiveArgs "maintenance".toList none) 0) := by
  have hrun : deactivateHost electedLater (positiveArgs "maintenance".toList none) 0 =
      { requests := [], answer := .ok false } := deactivateHost_of_eq rfl
  rw [hrun]
  refine ⟨rfl, rfl, fun h => ?_⟩
  refine h.sends.mpr ⟨1, ?_, by decide⟩ rfl
  intro j hj
  obtain rfl := Nat.lt_one_iff.mp hj
  change (0 : ℚ≥0) + 0 ≤ _
  rw [add_zero]
  exact zero_le

end OvirtArt.TestsLib.DeactivateHost
