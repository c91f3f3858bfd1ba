import OvirtArt.CoreApi.SampledLoops

set_option autoImplicit false

/-!
# `detach_and_deactivate_domain` of `high_level/storagedomains.py`

A storage domain is deactivated, and then the request to detach it is sent again and again until
the domain is unattached.  The engine works on its own meanwhile: a history says what the domain is
at each of the moments at which it is read or something is asked for.  `wait_for_tasks` swallows
its timeout and takes time only.

How long each request takes is given with it.  Of a storage domain its status and whether it is
attached are modelled.
-/

namespace OvirtArt.TestsLib.DetachDomain

open OvirtArt.CoreApi

/-- What a storage domain can be; all but an unattached one are in the data center. -/
inductive DomainState where
  | active
  | maintenance
  /-- in the data center, with any other status -/
  | otherAttached
  | unattached
  deriving DecidableEq, Repr

/-- What the functions raise. -/
inductive Fault where
  | entityNotFound
  | apiTimeout
  deriving DecidableEq, Repr

/-- The moments in a round of the loop of `deactivate_domain`. -/
inductive DeactivationMoment where
  /-- `getDCStorage` -/
  | lookup
  /-- a poll of `wait_for_storage_domain_status` -/
  | poll (number : Nat)
  /-- `is_storage_domain_active` -/
  | check
  deriving DecidableEq, Repr

/-- The moments in a round of the loop of `detach_domain`. -/
inductive DetachmentMoment where
  /-- `getDCStorage` -/
  | lookup
  /-- `get_storage_domain_obj` -/
  | status
  deriving DecidableEq, Repr

/-- The moments at which the domain is read. -/
inductive Moment where
  /-- `is_storage_domain_active` of `detach_and_deactivate_domain` -/
  | firstCheck
  /-- `is_storage_domain_active` of `deactivate_domain` -/
  | secondCheck
  | deactivation (round : Nat) (moment : DeactivationMoment)
  | detachment (round : Nat) (moment : DetachmentMoment)
  deriving DecidableEq, Repr

/-- What the engine does: the domain at each moment, which requests are accepted, and when the
samplers begin and how long their samples take. -/
structure Engine where
  state : Moment → DomainState
  /-- `syncAction(..., "deactivate", ...)`, by rounds. -/
  deactivationAccepted : Nat → Bool
  /-- `util.delete`, by rounds. -/
  detachmentAccepted : Nat → Bool
  deactivationStart : ℚ≥0
  deactivationDuration : Nat → ℚ≥0
  pollStart : Nat → ℚ≥0
  pollDuration : Nat → Nat → ℚ≥0
  detachmentStart : ℚ≥0
  detachmentDuration : Nat → ℚ≥0

/-! ## The source -/

/-- What a function comes to that returns from its loop over a sampler, whose timeout is an
exception. -/
def loopResult : Option (Except Fault Bool) → Except Fault Bool
  | some status => status
  | none => .error .apiTimeout

/-- `getDCStorage`. -/
def getDCStorage (state : DomainState) : Except Fault DomainState :=
  if state = .unattached then .error .entityNotFound else .ok state

/-- `is_storage_domain_active`, which catches `EntityNotFound`. -/
def isStorageDomainActive (state : DomainState) : Bool :=
  match getDCStorage state with
  | .ok found => found == .active
  | .error _ => false

section

variable (engine : Engine)

/-- The sampler of `wait_for_storage_domain_status`. -/
def statusSampler (round : Nat) : TimeoutingSampler (Except Fault DomainState) where
  timeout := (300 : Nat)
  sleep := (10 : Nat)
  sleep_pos := ten_seconds_pos
  func := fun number =>
    { result := getDCStorage (engine.state (.deactivation round (.poll number)))
      duration := engine.pollDuration round number }

/-- What a poll leads to: an exception leaves the sampler, and so does the expected status. -/
def statusVerdict : Except Fault DomainState → Option (Except Fault Bool)
  | .error fault => some (.error fault)
  | .ok state => if state = .maintenance then some (.ok true) else none

/-- `wait_for_storage_domain_status` for `maintenance`. -/
def waitForStorageDomainStatus (round : Nat) : Except Fault Bool :=
  loopResult ((statusSampler engine round).forLoop (engine.pollStart round)
    (stateless statusVerdict) ⟨⟩)

/-- `deactivateStorageDomain`. -/
def deactivateStorageDomain (round : Nat) : Except Fault Bool := do
  let _ ← getDCStorage (engine.state (.deactivation round .lookup))
  if engine.deactivationAccepted round then waitForStorageDomainStatus engine round
  else return false

/-- A round of a loop: what the sampled function returns or raises, and what is read then. -/
structure Round where
  sampled : Except Fault Bool
  read : DomainState

/-- The sampler of `deactivate_domain`. -/
def deactivationSampler : TimeoutingSampler Round where
  timeout := (90 : Nat)
  sleep := (10 : Nat)
  sleep_pos := ten_seconds_pos
  func := fun round =>
    { result :=
        { sampled := deactivateStorageDomain engine round
          read := engine.state (.deactivation round .check) }
      duration := engine.deactivationDuration round }

/-- The body of the loop of `deactivate_domain`. -/
def deactivationVerdict (round : Round) : Option (Except Fault Bool) :=
  match round.sampled with
  | .error fault => some (.error fault)
  | .ok _ => if isStorageDomainActive round.read then none else some (.ok true)

/-- `deactivate_domain`. -/
def deactivateDomain : Except Fault Bool :=
  if isStorageDomainActive (engine.state .secondCheck) then
    loopResult ((deactivationSampler engine).forLoop engine.deactivationStart
      (stateless deactivationVerdict) ⟨⟩)
  else .ok false

/-- `detachStorageDomain`. -/
def detachStorageDomain (round : Nat) : Except Fault Bool := do
  let _ ← getDCStorage (engine.state (.detachment round .lookup))
  return engine.detachmentAccepted round

/-- The sampler of `detach_domain`. -/
def detachmentSampler : TimeoutingSampler Round where
  timeout := (90 : Nat)
  sleep := (10 : Nat)
  sleep_pos := ten_seconds_pos
  func := fun round =>
    { result :=
        { sampled := detachStorageDomain engine round
          read := engine.state (.detachment round .status) }
      duration := engine.detachmentDuration round }

/-- The body of the loop of `detach_domain`.  The domain is found, so that its handler of
`AttributeError` is never entered. -/
def detachmentVerdict (round : Round) : Option (Except Fault Bool) :=
  match round.sampled with
  | .error fault => some (.error fault)
  | .ok _ => if round.read = .unattached then some (.ok true) else none

/-- `detach_domain`. -/
def detachDomain : Except Fault Bool :=
  loopResult ((detachmentSampler engine).forLoop engine.detachmentStart
    (stateless detachmentVerdict) ⟨⟩)

/-- The second half of `detach_and_deactivate_domain`. -/
def detachWithLog : Except Fault Bool := do
  let detached ← detachDomain engine
  return if detached then true else false

/-- `detach_and_deactivate_domain`. -/
def detachAndDeactivateDomain : Except Fault Bool := do
  if isStorageDomainActive (engine.state .firstCheck) then
    let deactivated ← deactivateDomain engine
    if deactivated then detachWithLog engine else return false
  else detachWithLog engine

/-! ## What is asked of it -/

/-- The loop of `detach_domain` comes to this round before its timeout, unless it is left. -/
def DetachmentInTime (round : Nat) : Prop :=
  (detachmentSampler engine).InTime engine.detachmentStart round

/-- A detach request has been accepted, and before the timeout the domain is unattached. -/
def UnattachedAfterRequest : Prop :=
  ∃ requested seen, requested ≤ seen ∧ DetachmentInTime engine seen ∧
    (∀ round ≤ requested, engine.state (.detachment round .lookup) ≠ .unattached) ∧
    engine.detachmentAccepted requested = true ∧
    engine.state (.detachment seen .status) = .unattached

/-- The domain ends unattached: it is so before the timeout of `detach_domain`. -/
def EndsUnattached : Prop :=
  ∃ seen, DetachmentInTime engine seen ∧ engine.state (.detachment seen .status) = .unattached

/-- The domain is detached whatever the engine does in between. -/
structure DetachesReliably : Prop where
  detached : UnattachedAfterRequest engine → detachDomain engine = .ok true
  never : (∀ moment, engine.state moment ≠ .unattached) → detachDomain engine = .ok false
  both : EndsUnattached engine → detachAndDeactivateDomain engine = .ok true

/-! ## When it is done -/

/-- The domain is seen unattached in a round before the timeout whose lookup, like all lookups
before, has still found it in the data center. -/
def SeenByStatus : Prop :=
  ∃ seen, DetachmentInTime engine seen ∧ engine.state (.detachment seen .status) = .unattached ∧
    ∀ round ≤ seen, engine.state (.detachment round .lookup) ≠ .unattached

/-- The wait for the maintenance in this round ends before its timeout, and no poll before finds
the domain outside of the data center. -/
def MaintenanceSeen (round : Nat) : Prop :=
  ∃ number, (statusSampler engine round).InTime (engine.pollStart round) number ∧
    engine.state (.deactivation round (.poll number)) = .maintenance ∧
    ∀ other < number, engine.state (.deactivation round (.poll other)) ≠ .unattached

/-- The deactivation in this round does not raise. -/
def DeactivationReturns (round : Nat) : Prop :=
  engine.state (.deactivation round .lookup) ≠ .unattached ∧
    (engine.deactivationAccepted round = true → MaintenanceSeen engine round)

/-- The loop of `deactivate_domain` sees before its timeout that the domain is not active, and no
deactivation until then raises. -/
def DeactivationSeen : Prop :=
  ∃ seen, (deactivationSampler engine).InTime engine.deactivationStart seen ∧
    engine.state (.deactivation seen .check) ≠ .active ∧
    ∀ round ≤ seen, DeactivationReturns engine round

/-- The engine does nothing at a moment at which it is not expected: the domain becomes unattached
at some moment, it is then seen by a status and not by a lookup, and if it is active at the first
check it is so at the second one and is seen to be deactivated. -/
structure NothingInBetween : Prop where
  becomes : ∃ moment, engine.state moment = .unattached
  afterRequest : UnattachedAfterRequest engine → SeenByStatus engine
  atEnd : EndsUnattached engine → SeenByStatus engine ∧
    (engine.state .firstCheck = .active →
      engine.state .secondCheck = .active ∧ DeactivationSeen engine)

end

section

variable {engine : Engine} {state : DomainState} {round : Nat}

theorem getDCStorage_of_ne (h : state ≠ .unattached) : getDCStorage state = .ok state :=
  if_neg h

theorem getDCStorage_unattached : getDCStorage .unattached = .error .entityNotFound :=
  if_pos rfl

theorem isStorageDomainActive_iff : isStorageDomainActive state = true ↔ state = .active := by
  cases state with
  | active => exact iff_of_true rfl rfl
  | maintenance => exact iff_of_false nofun nofun
  | otherAttached => exact iff_of_false nofun nofun
  | unattached => exact iff_of_false nofun nofun

theorem loopResult_eq_ok_iff {loop : Option (Except Fault Bool)} {status : Bool} :
    loopResult loop = .ok status ↔ loop = some (.ok status) := by
  cases loop with
  | none => exact iff_of_false nofun nofun
  | some other => exact Option.some_inj.symm

/-! ### The loop of `detach_domain` -/

theorem detachStorageDomain_of_ne
    (h : engine.state (.detachment round .lookup) ≠ .unattached) :
    detachStorageDomain engine round = .ok (engine.detachmentAccepted round) := by
  unfold detachStorageDomain
  rw [getDCStorage_of_ne h]
  rfl

theorem detachStorageDomain_of_unattached
    (h : engine.state (.detachment round .lookup) = .unattached) :
    detachStorageDomain engine round = .error .entityNotFound := by
  unfold detachStorageDomain
  rw [h]
  rfl

/-- The verdict of a round whose lookup finds the domain. -/
theorem detachmentVerdict_of_ne
    (h : engine.state (.detachment round .lookup) ≠ .unattached) :
    detachmentVerdict ((detachmentSampler engine).resultAt round) =
      if engine.state (.detachment round .status) = .unattached then some (.ok true)
      else none := by
  change detachmentVerdict ⟨detachStorageDomain engine round, _⟩ = _
  rw [detachStorageDomain_of_ne h]
  rfl

/-- `detach_domain` returns `True` exactly if a status shows that the domain is unattached before a
lookup does. -/
theorem detachDomain_eq_ok_true_iff :
    detachDomain engine = .ok true ↔ SeenByStatus engine := by
  have hloop := @TimeoutingSampler.forLoop_watch_iff Round Bool (detachmentSampler engine)
    engine.detachmentStart true Fault detachmentVerdict
    (fun round => engine.state (.detachment round .lookup) = .unattached)
    (fun round => engine.state (.detachment round .status) = .unattached)
    (fun round hround => ⟨.entityNotFound, by
      change detachmentVerdict ⟨detachStorageDomain engine round, _⟩ = _
      rw [detachStorageDomain_of_unattached hround]
      rfl⟩)
    (fun round hlookup hstatus => (detachmentVerdict_of_ne hlookup).trans (if_pos hstatus))
    (fun round hlookup hstatus => (detachmentVerdict_of_ne hlookup).trans (if_neg hstatus))
  exact loopResult_eq_ok_iff.trans hloop

/-- If the domain never becomes unattached, the sampler raises. -/
theorem detachDomain_of_never (h : ∀ moment, engine.state moment ≠ .unattached) :
    detachDomain engine = .error .apiTimeout := by
  unfold detachDomain
  rw [TimeoutingSampler.forLoop_stateless_eq_none_iff.mpr fun round _ => ?_]
  · rfl
  · rw [detachmentVerdict_of_ne (h _)]
    exact if_neg (h _)

/-! ### The loop of `deactivate_domain` -/

theorem waitForStorageDomainStatus_eq_ok_true_iff :
    waitForStorageDomainStatus engine round = .ok true ↔ MaintenanceSeen engine round := by
  have hne : ∀ number, engine.state (.deactivation round (.poll number)) ≠ .unattached →
      statusVerdict ((statusSampler engine round).resultAt number) =
        if engine.state (.deactivation round (.poll number)) = .maintenance then some (.ok true)
        else none := by
    intro number hnumber
    change statusVerdict (getDCStorage _) = _
    rw [getDCStorage_of_ne hnumber]
    rfl
  have hloop := @TimeoutingSampler.forLoop_watch_iff (Except Fault DomainState) Bool
    (statusSampler engine round) (engine.pollStart round) true Fault statusVerdict
    (fun number => engine.state (.deactivation round (.poll number)) = .unattached)
    (fun number => engine.state (.deactivation round (.poll number)) = .maintenance)
    (fun number hnumber => ⟨.entityNotFound, by
      change statusVerdict (getDCStorage _) = _
      rw [hnumber, getDCStorage_unattached]
      rfl⟩)
    (fun number hfound hmaintenance => (hne number hfound).trans (if_pos hmaintenance))
    (fun number hfound hother => (hne number hfound).trans (if_neg hother))
  refine loopResult_eq_ok_iff.trans (hloop.trans ?_)
  refine exists_congr fun number => and_congr_right fun _ => and_congr_right fun hmaintenance => ?_
  constructor
  · exact fun h other hother => h other hother.le
  · intro h other hother
    rcases Nat.lt_or_eq_of_le hother with hlt | rfl
    · exact h other hlt
    · rw [hmaintenance]
      exact nofun

theorem statusVerdict_ne_ok_false (poll : Except Fault DomainState) :
    statusVerdict poll ≠ some (.ok false) := by
  cases poll with
  | error fault => exact nofun
  | ok state =>
    rw [statusVerdict]
    by_cases hstate : state = .maintenance
    · rw [if_pos hstate]
      exact nofun
    · rw [if_neg hstate]
      exact nofun

/-- A wait for the status returns nothing but `True`. -/
theorem waitForStorageDomainStatus_ne_ok_false :
    waitForStorageDomainStatus engine round ≠ .ok false := by
  intro h
  obtain ⟨number, -, hvalue⟩ := TimeoutingSampler.forLoop_stateless_eq_some_iff.mp
    (loopResult_eq_ok_iff.mp h)
  exact statusVerdict_ne_ok_false _ hvalue

theorem deactivateStorageDomain_of_ne
    (h : engine.state (.deactivation round .lookup) ≠ .unattached) :
    deactivateStorageDomain engine round =
      if engine.deactivationAccepted round then waitForStorageDomainStatus engine round
      else .ok false := by
  unfold deactivateStorageDomain
  rw [getDCStorage_of_ne h]
  rfl

/-- The deactivation returns exactly if the domain is found and, where the request is accepted, is
seen in maintenance. -/
theorem deactivateStorageDomain_returns_iff :
    (∃ status, deactivateStorageDomain engine round = .ok status) ↔
      DeactivationReturns engine round := by
  unfold DeactivationReturns
  by_cases hlookup : engine.state (.deactivation round .lookup) = .unattached
  · refine iff_of_false ?_ fun h => h.1 hlookup
    rintro ⟨status, h⟩
    unfold deactivateStorageDomain at h
    rw [hlookup] at h
    cases h
  · rw [and_iff_right hlookup, deactivateStorageDomain_of_ne hlookup]
    cases engine.deactivationAccepted round with
    | false => exact iff_of_true ⟨false, rfl⟩ nofun
    | true =>
      rw [if_pos rfl, ← waitForStorageDomainStatus_eq_ok_true_iff]
      constructor
      · rintro ⟨status, h⟩ -
        cases status with
        | true => exact h
        | false => exact absurd h waitForStorageDomainStatus_ne_ok_false
      · exact fun h => ⟨true, h rfl⟩

/-- The verdict of a round whose deactivation returns. -/
theorem deactivationVerdict_of_returns (h : DeactivationReturns engine round) :
    deactivationVerdict ((deactivationSampler engine).resultAt round) =
      if isStorageDomainActive (engine.state (.deactivation round .check)) then none
      else some (.ok true) := by
  obtain ⟨status, hstatus⟩ := deactivateStorageDomain_returns_iff.mpr h
  change deactivationVerdict ⟨deactivateStorageDomain engine round, _⟩ = _
  rw [hstatus]
  rfl

theorem deactivationVerdict_of_not (h : ¬ DeactivationReturns engine round) :
    ∃ fault, deactivationVerdict ((deactivationSampler engine).resultAt round) =
      some (.error fault) := by
  rw [← deactivateStorageDomain_returns_iff] at h
  change ∃ fault, deactivationVerdict ⟨deactivateStorageDomain engine round, _⟩ = _
  cases hround : deactivateStorageDomain engine round with
  | ok status => exact absurd ⟨status, hround⟩ h
  | error fault => exact ⟨fault, rfl⟩

/-- `deactivate_domain` returns `True` exactly if the domain is active at its check, and its loop
sees that it is not any more. -/
theorem deactivateDomain_eq_ok_true_iff : deactivateDomain engine = .ok true ↔
    engine.state .secondCheck = .active ∧ DeactivationSeen engine := by
  have hloop := @TimeoutingSampler.forLoop_watch_iff Round Bool (deactivationSampler engine)
    engine.deactivationStart true Fault deactivationVerdict
    (fun round => ¬ DeactivationReturns engine round)
    (fun round => engine.state (.deactivation round .check) ≠ .active)
    (fun round hround => deactivationVerdict_of_not hround)
    (fun round hround hcheck => (deactivationVerdict_of_returns (not_not.mp hround)).trans
      (if_neg (fun h => hcheck (isStorageDomainActive_iff.mp h))))
    (fun round hround hcheck => (deactivationVerdict_of_returns (not_not.mp hround)).trans
      (if_pos (isStorageDomainActive_iff.mpr (not_not.mp hcheck))))
  simp only [not_not] at hloop
  unfold deactivateDomain
  by_cases hactive : engine.state .secondCheck = .active
  · rw [if_pos (isStorageDomainActive_iff.mpr hactive), and_iff_right hactive]
    exact loopResult_eq_ok_iff.trans hloop
  · rw [if_neg (fun h => hactive (isStorageDomainActive_iff.mp h))]
    exact iff_of_false nofun fun h => hactive h.1

/-! ### Both together -/

theorem detachWithLog_eq : detachWithLog engine = detachDomain engine := by
  unfold detachWithLog
  cases detachDomain engine with
  | error fault => rfl
  | ok detached =>
    cases detached with
    | false => rfl
    | true => rfl

/-- `detach_and_deactivate_domain` returns `True` exactly if both of its parts do, the first of
which is left out for a domain that is not active. -/
theorem detachAndDeactivateDomain_eq_ok_true_iff :
    detachAndDeactivateDomain engine = .ok true ↔
      SeenByStatus engine ∧ (engine.state .firstCheck = .active →
        engine.state .secondCheck = .active ∧ DeactivationSeen engine) := by
  unfold detachAndDeactivateDomain
  rw [detachWithLog_eq, ← detachDomain_eq_ok_true_iff, ← deactivateDomain_eq_ok_true_iff]
  by_cases hactive : engine.state .firstCheck = .active
  · rw [if_pos (isStorageDomainActive_iff.mpr hactive)]
    cases deactivateDomain engine with
    | error fault => exact iff_of_false nofun fun h => nomatch h.2 hactive
    | ok deactivated =>
      cases deactivated with
      | false => exact iff_of_false nofun fun h => nomatch h.2 hactive
      | true => exact (and_iff_left fun _ => rfl).symm
  · rw [if_neg (fun h => hactive (isStorageDomainActive_iff.mp h))]
    exact (and_iff_left fun h => absurd h hactive).symm

end

/-- A storage domain is detached reliably exactly if the engine does nothing in between. -/
theorem detachesReliably_iff (engine : Engine) :
    DetachesReliably engine ↔ NothingInBetween engine := by
  constructor
  · intro h
    refine
      { becomes := ?_
        afterRequest := fun hseen => detachDomain_eq_ok_true_iff.mp (h.detached hseen)
        atEnd := fun hend => detachAndDeactivateDomain_eq_ok_true_iff.mp (h.both hend) }
    by_contra hnone
    have hnever : ∀ moment, engine.state moment ≠ .unattached := not_exists.mp hnone
    exact nomatch (detachDomain_of_never hnever).symm.trans (h.never hnever)
  · intro h
    exact
      { detached := fun hseen => detachDomain_eq_ok_true_iff.mpr (h.afterRequest hseen)
        never := fun hnever => absurd h.becomes (not_exists.mpr hnever)
        both := fun hend => detachAndDeactivateDomain_eq_ok_true_iff.mpr (h.atEnd hend) }

/-- The domain is in maintenance, and becomes unattached after the first round of `detach_domain`,
which has sent its request. -/
def detachedBetweenRounds : Engine where
  state := fun moment =>
    match moment with
    | .detachment (_ + 1) _ => .unattached
    | _ => .maintenance
  deactivationAccepted := fun _ => true
  detachmentAccepted := fun _ => true
  deactivationStart := 0
  deactivationDuration := fun _ => 0
  pollStart := fun _ => 0
  pollDuration := fun _ _ => 0
  detachmentStart := 0
  detachmentDuration := fun _ => 0

/-- The request is accepted and the domain unattached before the timeout, and the lookup of the
second round raises. -/
theorem detached_between_rounds :
    UnattachedAfterRequest detachedBetweenRounds ∧
      detachDomain detachedBetweenRounds ≠ .ok true ∧
      EndsUnattached detachedBetweenRounds ∧
      detachAndDeactivateDomain detachedBetweenRounds ≠ .ok true := by
  have htime : DetachmentInTime detachedBetweenRounds 1 := by
    intro j hj
    obtain rfl := Nat.lt_one_iff.mp hj
    change (0 : ℚ≥0) + 0 ≤ 0 + (90 : Nat)
    rw [add_zero]
    exact zero_le
  have hnot : ¬ SeenByStatus detachedBetweenRounds := by
    rintro ⟨seen, -, hstatus, hlookup⟩
    cases seen with
    | zero => exact nomatch hstatus
    | succ seen => exact hlookup (seen + 1) le_rfl rfl
  refine ⟨⟨0, 1, Nat.zero_le 1, htime, fun round hround => ?_, rfl, rfl⟩, ?_, ⟨1, htime, rfl⟩, ?_⟩
  · obtain rfl := Nat.le_zero.mp hround
    exact nofun
  · exact fun h => hnot (detachDomain_eq_ok_true_iff.mp h)
  · exact fun h => hnot (detachAndDeactivateDomain_eq_ok_true_iff.mp h).1

end OvirtArt.TestsLib.DetachDomain
