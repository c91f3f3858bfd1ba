import OvirtArt.CoreApi.SampledLoops
import OvirtArt.CoreApi.WaitForStatus
import OvirtArt.Foundation.Loops

set_option autoImplicit false

/-!
# `low_level/events.py`

Events of the engine are waited for and looked for, in the replies to one query after the other.
The reply to a query that is refused is `None`.

Of an event its id, code and description are modelled.  The URL of a query is in the module on
searches, and how long a poll takes is a parameter.
-/

namespace OvirtArt.TestsLib.Events

open OvirtArt.CoreApi OvirtArt.Foundation

/-- What is read of an event; the id is that which `int` makes of it. -/
structure Event where
  id : Nat
  code : Nat
  description : Text
  deriving DecidableEq, Repr

/-- What the functions raise. -/
inductive EventsException where
  | typeError
  deriving DecidableEq, Repr

/-- What `RestUtil.query` returns: a list, or `None`. -/
abbrev Reply := Option (List Event)

/-- The replies to the queries of `find_event` and how long they take, which is never less than
some time. -/
structure Polls where
  reply : Nat → Reply
  took : Nat → ℚ≥0
  least : ℚ≥0
  least_pos : 0 < least
  least_le : ∀ i, least ≤ took i

/-! ## The source -/

/-- `content in event.get_description()`. -/
def Event.contains (event : Event) (content : Text) : Bool :=
  (Text.index? content event.description).isSome

/-- `get_max_event_id`. -/
def getMaxEventId (reply : Reply) : Option Nat := ((reply.getD []).map Event.id).max?

/-- `compareCollectionSize` of `core_api/validator.py`. -/
def compareCollectionSize (collection : Reply) (expectedSize : Int) : Bool :=
  match collection with
  | none => false
  | some events => decide ((events.length : Int) = expectedSize)

/-- `search_for_recent_event`, with the replies to its two queries. -/
def searchForRecentEvent (positive : Bool) (winStart foundEv : Reply) (expectedCount : Int) :
    Except EventsException Bool :=
  match getMaxEventId winStart with
  | none => .ok false
  | some _ => .ok (positive == compareCollectionSize foundEv expectedCount)

/-- `get_events_after_some_event`: a loop over `None`, and `int(None)`, raise. -/
def getEventsAfterSomeEvent (eventId : Option Nat) (reply : Reply) :
    Except EventsException (List Event) :=
  match reply with
  | none => .error .typeError
  | some events =>
    match eventId with
    | none => if events.isEmpty then .ok [] else .error .typeError
    | some eventId => .ok (events.filter fun event => decide (eventId < event.id))

/-- The `start_id` of the sampler, from the arguments and the replies to the two queries. -/
def startingId (startId : Option Nat) (winStartQuery : Text) (winStart last : Reply) :
    Option Nat :=
  let startId := if winStartQuery.isEmpty then startId else getMaxEventId winStart
  match startId with
  | none => getMaxEventId last
  | some id => some id

/-- What the loop over the sampler comes to at a reply. -/
def waitVerdict (query : Text) (startId : Option Nat) (reply : Reply) :
    Option (Except EventsException Bool) :=
  match getEventsAfterSomeEvent startId reply with
  | .error e => some (.error e)
  | .ok events => if events.any (·.contains query) then some (.ok true) else none

/-- `wait_for_event`; `APITimeout`, which the sampler of `apis_utils` raises, is caught. -/
def waitForEvent (query : Text) (startId : Option Nat) (winStartQuery : Text)
    (winStart last : Reply) (sampler : TimeoutingSampler Reply) (clock : ℚ≥0) :
    Except EventsException Bool :=
  match sampler.forLoop clock
      (stateless (waitVerdict query (startingId startId winStartQuery winStart last))) ⟨⟩ with
  | some result => result
  | none => .ok false

/-- The variables of the loop of `find_event`, the polls and the time so far. -/
structure Search where
  matchesLeft : Int
  foundEvents : List Nat
  polls : Nat
  elapsed : ℚ≥0

/-- How the loop of `find_event` is left from within. -/
inductive FindExit where
  | timedOut
  | raises (e : EventsException)
  deriving DecidableEq, Repr

section

variable (content : Text) (lastEventId : Nat)

/-- `get_all_events_from_specific_event_id`, and the filter of `find_event`. -/
def freshEvents (foundEvents : List Nat) (events : List Event) : List Event :=
  (events.filter fun event => decide (lastEventId < event.id)).filter fun event =>
    !foundEvents.contains event.id

/-- The test of the inner loop of `find_event`. -/
def counts (event : Event) : Bool := event.contains content && decide (lastEventId < event.id)

/-- A round of the inner loop of `find_event`. -/
def countEvent (state : Int × List Nat) (event : Event) : Int × List Nat :=
  if counts content lastEventId event then (state.1 - 1, state.2 ++ [event.id]) else state

variable (polls : Polls) (timeout : ℚ≥0)

/-- A round of the loop of `find_event`. -/
def findRound (search : Search) : Except FindExit Search :=
  if timeout < search.elapsed then .error .timedOut
  else
    match polls.reply search.polls with
    | none => .error (.raises .typeError)
    | some events =>
      let state := (freshEvents lastEventId search.foundEvents events).foldl
        (countEvent content lastEventId) (search.matchesLeft, search.foundEvents)
      .ok {
        matchesLeft := state.1
        foundEvents := state.2
        polls := search.polls + 1
        elapsed := search.elapsed + polls.took search.polls }

/-- What `find_event` returns or raises after its loop. -/
def found : Except FindExit Search → Except EventsException Bool
  | .ok _ => .ok true
  | .error .timedOut => .ok false
  | .error (.raises e) => .error e

/-- `find_event`, with `matches` to be found, in so many rounds of its loop. -/
def findEvent (number : Nat) (fuel : Nat) : Option (Except EventsException Bool) :=
  (whileLoop (fun search : Search => decide (0 < search.matchesLeft))
    (findRound content lastEventId polls timeout) fuel
    { matchesLeft := number, foundEvents := [], polls := 0, elapsed := 0 }).map found

end

/-! ## What is asked of `wait_for_event` -/

section

variable (query : Text) (startId : Option Nat)

/-- The reply has an event with a greater id whose description contains the query. -/
def Shows (id : Nat) (reply : Reply) : Prop :=
  ∃ events, reply = some events ∧ ∃ event ∈ events, id < event.id ∧ query <:+: event.description

/-- `wait_for_event` returns a boolean, which is `True` exactly if some reply in time shows such an
event. -/
structure WaitsForEvent (startId : Option Nat) (winStartQuery : Text) (winStart last : Reply)
    (sampler : TimeoutingSampler Reply) (clock : ℚ≥0) : Prop where
  returns : ∃ value,
    waitForEvent query startId winStartQuery winStart last sampler clock = .ok value
  answers : ∀ id, startingId startId winStartQuery winStart last = some id →
    (waitForEvent query startId winStartQuery winStart last sampler clock = .ok true ↔
      ∃ n, sampler.InTime clock n ∧ Shows query id (sampler.resultAt n))

/-- The reply ends the wait with `True`. -/
def Hit (reply : Reply) : Prop := ∃ id, startId = some id ∧ Shows query id reply

/-- The reply is `None`, or has events that there is no id to compare with. -/
def Raising (reply : Reply) : Prop := reply = none ∨ startId = none ∧ reply ≠ some []

/-- No reply in time, before which none ends the wait, raises. -/
def NoneRaises (sampler : TimeoutingSampler Reply) (clock : ℚ≥0) : Prop :=
  ∀ n, sampler.InTime clock n → (∀ i < n, ¬ Hit query startId (sampler.resultAt i)) →
    ¬ Raising startId (sampler.resultAt n)

end

section

variable {query : Text} {startId : Option Nat} {reply : Reply}

theorem any_contains_iff {events : List Event} {id : Nat} :
    ((events.filter fun event => decide (id < event.id)).any (·.contains query)) = true ↔
      Shows query id (some events) := by
  simp only [List.any_eq_true, List.mem_filter, decide_eq_true_eq, Event.contains,
    Text.isSome_index?_iff]
  constructor
  · rintro ⟨event, ⟨hevent, hid⟩, hquery⟩
    exact ⟨events, rfl, event, hevent, hid, hquery⟩
  · rintro ⟨others, hothers, event, hevent, hid, hquery⟩
    obtain rfl := Option.some.inj hothers
    exact ⟨event, ⟨hevent, hid⟩, hquery⟩

/-- A reply raises, ends the wait, or has it go on. -/
theorem waitVerdict_cases (query : Text) (startId : Option Nat) (reply : Reply) :
    (Raising startId reply ∧ waitVerdict query startId reply = some (.error .typeError)) ∨
    (¬ Raising startId reply ∧ Hit query startId reply ∧
      waitVerdict query startId reply = some (.ok true)) ∨
    (¬ Raising startId reply ∧ ¬ Hit query startId reply ∧
      waitVerdict query startId reply = none) := by
  cases reply with
  | none => exact .inl ⟨.inl rfl, rfl⟩
  | some events =>
    cases startId with
    | none =>
      cases events with
      | nil =>
        refine .inr (.inr ⟨?_, ?_, rfl⟩)
        · rintro (h | ⟨-, h⟩)
          · exact nomatch h
          · exact h rfl
        · rintro ⟨id, h, -⟩
          exact nomatch h
      | cons event rest => exact .inl ⟨.inr ⟨rfl, nofun⟩, rfl⟩
    | some id =>
      have hquiet : ¬ Raising (some id) (some events) := by
        rintro (h | ⟨h, -⟩)
        · exact nomatch h
        · exact nomatch h
      have hverdict : waitVerdict query (some id) (some events) =
          if (events.filter fun event => decide (id < event.id)).any (·.contains query) then
            some (.ok true) else none := rfl
      rw [hverdict]
      by_cases hshows : Shows query id (some events)
      · exact .inr (.inl ⟨hquiet, ⟨id, rfl, hshows⟩, if_pos (any_contains_iff.mpr hshows)⟩)
      · refine .inr (.inr ⟨hquiet, ?_, if_neg fun h => hshows (any_contains_iff.mp h)⟩)
        rintro ⟨other, hother, h⟩
        obtain rfl := Option.some.inj hother
        exact hshows h

theorem waitVerdict_of_raising (query : Text) (h : Raising startId reply) :
    waitVerdict query startId reply = some (.error .typeError) := by
  rcases waitVerdict_cases query startId reply with ⟨-, herror⟩ | ⟨hquiet, -⟩ | ⟨hquiet, -⟩
  · exact herror
  · exact absurd h hquiet
  · exact absurd h hquiet

theorem waitVerdict_eq_none_iff : waitVerdict query startId reply = none ↔
    ¬ Raising startId reply ∧ ¬ Hit query startId reply := by
  rcases waitVerdict_cases query startId reply with ⟨hraising, h⟩ | ⟨-, hhit, h⟩ | ⟨hnot, hmiss, h⟩
  · rw [h]
    exact iff_of_false nofun fun hboth => hboth.1 hraising
  · rw [h]
    exact iff_of_false nofun fun hboth => hboth.2 hhit
  · exact iff_of_true h ⟨hnot, hmiss⟩

variable {winStartQuery : Text} {winStart last : Reply} {sampler : TimeoutingSampler Reply}
  {clock : ℚ≥0}

/-- The wait returns if none of the replies that it comes to raises. -/
theorem waitForEvent_of_noneRaises
    (h : NoneRaises query (startingId startId winStartQuery winStart last) sampler clock) :
    (waitForEvent query startId winStartQuery winStart last sampler clock = .ok true ∧
      ∃ n, sampler.InTime clock n ∧
        Hit query (startingId startId winStartQuery winStart last) (sampler.resultAt n)) ∨
    (waitForEvent query startId winStartQuery winStart last sampler clock = .ok false ∧
      ∀ n, sampler.InTime clock n →
        ¬ Hit query (startingId startId winStartQuery winStart last) (sampler.resultAt n)) := by
  unfold waitForEvent
  generalize startingId startId winStartQuery winStart last = start at h
  cases hloop : sampler.forLoop clock (stateless (waitVerdict query start)) ⟨⟩ with
  | none =>
    have hnone := TimeoutingSampler.forLoop_stateless_eq_none_iff.mp hloop
    exact .inr ⟨rfl, fun n htime => (waitVerdict_eq_none_iff.mp (hnone n htime)).2⟩
  | some result =>
    obtain ⟨n, ⟨htime, hbefore⟩, hverdict⟩ :=
      TimeoutingSampler.forLoop_stateless_eq_some_iff.mp hloop
    have hquiet := h n htime fun i hi => (waitVerdict_eq_none_iff.mp (hbefore i hi)).2
    rcases waitVerdict_cases query start (sampler.resultAt n) with
      ⟨hraising, -⟩ | ⟨-, hhit, htrue⟩ | ⟨-, -, hnone⟩
    · exact absurd hraising hquiet
    · obtain rfl := Option.some.inj (hverdict.symm.trans htrue)
      exact .inl ⟨rfl, n, htime, hhit⟩
    · exact nomatch hverdict.symm.trans hnone

/-- The wait raises at a reply that raises, if none before ends it. -/
theorem waitForEvent_of_raising {n : Nat} (htime : sampler.InTime clock n)
    (hmiss : ∀ i < n,
      ¬ Hit query (startingId startId winStartQuery winStart last) (sampler.resultAt i))
    (hraising : Raising (startingId startId winStartQuery winStart last) (sampler.resultAt n)) :
    waitForEvent query startId winStartQuery winStart last sampler clock
      = .error .typeError := by
  unfold waitForEvent
  generalize startingId startId winStartQuery winStart last = start at hmiss hraising
  have herror := waitVerdict_of_raising query hraising
  cases hloop : sampler.forLoop clock (stateless (waitVerdict query start)) ⟨⟩ with
  | none =>
    have hnone := TimeoutingSampler.forLoop_stateless_eq_none_iff.mp hloop n htime
    exact nomatch herror.symm.trans hnone
  | some result =>
    obtain ⟨m, ⟨-, hbefore⟩, hverdict⟩ :=
      TimeoutingSampler.forLoop_stateless_eq_some_iff.mp hloop
    have hle : m ≤ n := by
      by_contra hlt
      exact nomatch herror.symm.trans (hbefore n (Nat.lt_of_not_le hlt))
    rcases waitVerdict_cases query start (sampler.resultAt m) with
      ⟨-, h⟩ | ⟨hquiet, hhit, -⟩ | ⟨-, -, h⟩
    · obtain rfl := Option.some.inj (hverdict.symm.trans h)
      rfl
    · rcases Nat.lt_or_eq_of_le hle with hlt | rfl
      · exact absurd hhit (hmiss m hlt)
      · exact absurd hraising hquiet
    · exact nomatch hverdict.symm.trans h

theorem waitsForEvent_iff :
    WaitsForEvent query startId winStartQuery winStart last sampler clock ↔
      NoneRaises query (startingId startId winStartQuery winStart last) sampler clock := by
  constructor
  · rintro ⟨⟨value, hvalue⟩, -⟩ n htime hmiss hraising
    exact nomatch hvalue.symm.trans (waitForEvent_of_raising htime hmiss hraising)
  · intro h
    rcases waitForEvent_of_noneRaises h with ⟨htrue, n, htime, hhit⟩ | ⟨hfalse, hmiss⟩
    · refine ⟨⟨true, htrue⟩, fun id hid => iff_of_true htrue ⟨n, htime, ?_⟩⟩
      obtain ⟨other, hother, hshows⟩ := hhit
      obtain rfl := Option.some.inj (hid.symm.trans hother)
      exact hshows
    · refine ⟨⟨false, hfalse⟩, fun id hid => iff_of_false (fun htrue => ?_) ?_⟩
      · exact nomatch hfalse.symm.trans htrue
      · rintro ⟨n, htime, hshows⟩
        exact hmiss n htime ⟨id, hid, hshows⟩

end

/-! ## The loop of `find_event` -/

section

variable (content : Text) (lastEventId : Nat) (polls : Polls)

/-- The ids that are counted in the first replies. -/
def counted : Nat → List Nat
  | 0 => []
  | n + 1 =>
    counted n ++ ((freshEvents lastEventId (counted n) ((polls.reply n).getD [])).filter
      (counts content lastEventId)).map Event.id

/-- The time that the first polls take. -/
def elapsedAt : Nat → ℚ≥0
  | 0 => 0
  | n + 1 => elapsedAt n + polls.took n

/-- The variables after the first polls. -/
def searchAt (number n : Nat) : Search where
  matchesLeft := number - (counted content lastEventId polls n).length
  foundEvents := counted content lastEventId polls n
  polls := n
  elapsed := elapsedAt polls n

/-- The loop comes to this poll: so much time has not passed, and so many events are not counted. -/
def Polled (timeout : ℚ≥0) (number n : Nat) : Prop :=
  elapsedAt polls n ≤ timeout ∧ (counted content lastEventId polls n).length < number

end

section

variable {content : Text} {lastEventId : Nat} {polls : Polls} {timeout : ℚ≥0} {number n : Nat}

theorem foldl_countEvent (events : List Event) (state : Int × List Nat) :
    events.foldl (countEvent content lastEventId) state =
      (state.1 - (events.filter (counts content lastEventId)).length,
        state.2 ++ (events.filter (counts content lastEventId)).map Event.id) := by
  induction events generalizing state with
  | nil => simp
  | cons event rest ih =>
    rw [List.foldl_cons, ih, countEvent]
    by_cases hcounts : counts content lastEventId event = true
    · rw [if_pos hcounts, List.filter_cons_of_pos hcounts, List.map_cons, List.length_cons,
        List.append_assoc, Nat.cast_succ]
      refine Prod.ext ?_ rfl
      change state.1 - 1 - _ = state.1 - (_ + 1)
      omega
    · rw [if_neg hcounts, List.filter_cons_of_neg hcounts]

theorem counted_mono {m : Nat} (h : m ≤ n) :
    counted content lastEventId polls m <+: counted content lastEventId polls n := by
  induction n, h using Nat.le_induction with
  | base => exact List.prefix_refl _
  | succ n _ ih => exact ih.trans (List.prefix_append _ _)

theorem elapsedAt_mono {m : Nat} (h : m ≤ n) : elapsedAt polls m ≤ elapsedAt polls n := by
  induction n, h using Nat.le_induction with
  | base => exact le_rfl
  | succ n _ ih => exact ih.trans le_self_add

theorem mul_least_le_elapsedAt (polls : Polls) (n : Nat) : n * polls.least ≤ elapsedAt polls n := by
  induction n with
  | zero => rw [Nat.cast_zero, zero_mul]; exact le_rfl
  | succ n ih =>
    rw [Nat.cast_succ, add_mul, one_mul, elapsedAt]
    exact add_le_add ih (polls.least_le n)

/-- Some poll comes too late. -/
theorem exists_late (polls : Polls) (timeout : ℚ≥0) : ∃ n, timeout < elapsedAt polls n := by
  refine ⟨⌊timeout / polls.least⌋₊ + 1, lt_of_lt_of_le ?_ (mul_least_le_elapsedAt polls _)⟩
  rw [← div_lt_iff₀ polls.least_pos, Nat.cast_add_one]
  exact Nat.lt_floor_add_one _

theorem findRound_searchAt :
    findRound content lastEventId polls timeout (searchAt content lastEventId polls number n) =
      if timeout < elapsedAt polls n then .error .timedOut
      else
        match polls.reply n with
        | none => .error (.raises .typeError)
        | some _ => .ok (searchAt content lastEventId polls number (n + 1)) := by
  unfold findRound searchAt
  dsimp only
  split
  · rfl
  · cases hreply : polls.reply n with
    | none => rfl
    | some events =>
      dsimp only
      rw [foldl_countEvent, counted, hreply, Option.getD_some]
      simp only [List.length_append, List.length_map, Except.ok.injEq, Search.mk.injEq,
        elapsedAt, and_self, and_true]
      push_cast
      omega

/-- How the loop of `find_event` ends: so many events are counted, or the time is over, or a reply
is `None`. -/
structure FindEnds (content : Text) (lastEventId : Nat) (polls : Polls) (timeout : ℚ≥0)
    (number n : Nat) (result : Except EventsException Bool) : Prop where
  before : ∀ i < n, Polled content lastEventId polls timeout number i ∧ polls.reply i ≠ none
  ends : (result = .ok true ∧ number ≤ (counted content lastEventId polls n).length) ∨
    (result = .ok false ∧ timeout < elapsedAt polls n ∧
      (counted content lastEventId polls n).length < number) ∨
    (result = .error .typeError ∧ Polled content lastEventId polls timeout number n ∧
      polls.reply n = none)

/-- The test of the loop. -/
def wants (search : Search) : Bool := decide (0 < search.matchesLeft)

theorem wants_searchAt_iff : wants (searchAt content lastEventId polls number n) = true ↔
    (counted content lastEventId polls n).length < number := by
  rw [wants, decide_eq_true_iff]
  change 0 < (number : Int) - _ ↔ _
  omega

theorem findRound_eq_ok {search : Search}
    (h : findRound content lastEventId polls timeout
      (searchAt content lastEventId polls number n) = .ok search) :
    elapsedAt polls n ≤ timeout ∧ polls.reply n ≠ none := by
  rw [findRound_searchAt] at h
  split at h
  · exact nomatch h
  · rename_i htime
    refine ⟨not_lt.mp htime, fun hreply => ?_⟩
    rw [hreply] at h
    exact nomatch h

/-- Some round of the loop is its last, as some poll comes too late. -/
theorem exists_not_goesThrough (content : Text) (lastEventId : Nat) (polls : Polls)
    (timeout : ℚ≥0) (number : Nat) :
    ∃ n, ¬ GoesThrough wants (findRound content lastEventId polls timeout)
      (searchAt content lastEventId polls number) n := by
  obtain ⟨late, hlate⟩ := exists_late polls timeout
  refine ⟨late + 1, fun hthrough => ?_⟩
  have hlast := findRound_eq_ok (hthrough late late.lt_succ_self).2
  exact absurd hlate (not_lt.mpr hlast.1)

theorem polled_of_goesThrough
    (h : GoesThrough wants (findRound content lastEventId polls timeout)
      (searchAt content lastEventId polls number) n) :
    ∀ i < n, Polled content lastEventId polls timeout number i ∧ polls.reply i ≠ none := by
  intro i hi
  obtain ⟨hgo, hok⟩ := h i hi
  obtain ⟨htime, hreply⟩ := findRound_eq_ok hok
  exact ⟨⟨htime, wants_searchAt_iff.mp hgo⟩, hreply⟩

theorem findEvent_ends (content : Text) (lastEventId : Nat) (polls : Polls) (timeout : ℚ≥0)
    (number : Nat) : ∃ fuel n result,
      findEvent content lastEventId polls timeout number fuel = some result ∧
        FindEnds content lastEventId polls timeout number n result := by
  obtain ⟨bound, hbound⟩ := exists_not_goesThrough content lastEventId polls timeout number
  obtain ⟨n, -, hthrough, hstop⟩ := exists_stop hbound
  have hbefore := polled_of_goesThrough hthrough
  have hround := @findRound_searchAt content lastEventId polls timeout number n
  have hinit : searchAt content lastEventId polls number 0 =
      { matchesLeft := number, foundEvents := [], polls := 0, elapsed := 0 } := by
    simp [searchAt, counted, elapsedAt]
  unfold findEvent
  rw [← hinit]
  by_cases hgo : wants (searchAt content lastEventId polls number n) = true
  · have hfew := wants_searchAt_iff.mp hgo
    by_cases htime : timeout < elapsedAt polls n
    · have hrun := hthrough.raises hgo (hround.trans (if_pos htime))
      exact ⟨n + 1, n, _, congrArg (Option.map found) hrun, hbefore,
        .inr (.inl ⟨rfl, htime, hfew⟩)⟩
    · rw [if_neg htime] at hround
      cases hreply : polls.reply n with
      | none =>
        rw [hreply] at hround
        exact ⟨n + 1, n, _, congrArg (Option.map found) (hthrough.raises hgo hround), hbefore,
          .inr (.inr ⟨rfl, ⟨not_lt.mp htime, hfew⟩, hreply⟩)⟩
      | some events =>
        rw [hreply] at hround
        exact absurd ⟨hgo, hround⟩ hstop
  · have hrun := hthrough.ends (Bool.eq_false_iff.mpr hgo)
    refine ⟨n, n, _, congrArg (Option.map found) hrun, hbefore, .inl ⟨rfl, ?_⟩⟩
    exact Nat.le_of_not_lt fun hfew => hgo (wants_searchAt_iff.mpr hfew)

/-- Two amounts of fuel that are enough give one result. -/
theorem findEvent_unique {fuel more : Nat} {first second : Except EventsException Bool}
    (hfirst : findEvent content lastEventId polls timeout number fuel = some first)
    (hsecond : findEvent content lastEventId polls timeout number more = some second) :
    first = second := by
  obtain ⟨run, hrun, rfl⟩ := Option.map_eq_some_iff.mp hfirst
  obtain ⟨other, hother, rfl⟩ := Option.map_eq_some_iff.mp hsecond
  rw [whileLoop_unique hrun hother]

/-- `find_event` returns a boolean exactly if no reply that it comes to is `None`. -/
theorem findEvent_returns_iff :
    (∃ fuel value, findEvent content lastEventId polls timeout number fuel = some (.ok value)) ↔
      ∀ n, Polled content lastEventId polls timeout number n → polls.reply n ≠ none := by
  obtain ⟨fuel, n, result, hrun, hbefore, hends⟩ :=
    findEvent_ends content lastEventId polls timeout number
  have hlater : ∀ {k}, n ≤ k → Polled content lastEventId polls timeout number k →
      Polled content lastEventId polls timeout number n := by
    rintro k hle ⟨htime, hfew⟩
    exact ⟨(elapsedAt_mono hle).trans htime, (counted_mono hle).length_le.trans_lt hfew⟩
  constructor
  · rintro ⟨more, value, hvalue⟩ k hpolled hreply
    obtain rfl := findEvent_unique hrun hvalue
    rcases Nat.lt_or_ge k n with hlt | hge
    · exact (hbefore k hlt).2 hreply
    · have hpolled' := hlater hge hpolled
      rcases hends with ⟨-, hmany⟩ | ⟨-, hlate, -⟩ | ⟨herror, -⟩
      · exact absurd hpolled'.2 (Nat.not_lt.mpr hmany)
      · exact absurd hpolled'.1 (not_le.mpr hlate)
      · exact nomatch herror
  · intro h
    rcases hends with ⟨rfl, -⟩ | ⟨rfl, -⟩ | ⟨-, hpolled, hreply⟩
    · exact ⟨fuel, true, hrun⟩
    · exact ⟨fuel, false, hrun⟩
    · exact absurd hreply (h n hpolled)

end

/-! ## All three -/

/-- `wait_for_event` returns, and rightly, exactly if no reply that it comes to is `None` or has
events without a start id; `search_for_recent_event` always returns; `find_event` returns exactly
if no reply that it comes to is `None`. -/
theorem event_helpers_return_iff (query winStartQuery content : Text) (startId : Option Nat)
    (winStart last foundEv : Reply) (sampler : TimeoutingSampler Reply) (clock timeout : ℚ≥0)
    (positive : Bool) (expectedCount : Int) (lastEventId number : Nat) (polls : Polls) :
    (WaitsForEvent query startId winStartQuery winStart last sampler clock ↔
      NoneRaises query (startingId startId winStartQuery winStart last) sampler clock) ∧
    (∃ value, searchForRecentEvent positive winStart foundEv expectedCount = .ok value) ∧
    ((∃ fuel value, findEvent content lastEventId polls timeout number fuel =
        some (.ok value)) ↔
      ∀ n, Polled content lastEventId polls timeout number n → polls.reply n ≠ none) := by
  refine ⟨waitsForEvent_iff, ?_, findEvent_returns_iff⟩
  unfold searchForRecentEvent
  cases getMaxEventId winStart with
  | none => exact ⟨false, rfl⟩
  | some id => exact ⟨_, rfl⟩

/-- The same reply to each poll. -/
def sameReply (reply : Reply) : TimeoutingSampler Reply where
  timeout := (120 : Nat)
  sleep := (5 : Nat)
  sleep_pos := five_seconds_pos
  func _ := { result := reply, duration := 0 }

/-- Each query is refused, a second after it is sent. -/
def refusing : Polls where
  reply _ := none
  took _ := 1
  least := 1
  least_pos := one_second_pos
  least_le _ := le_rfl

/-- A refused poll ends the wait and the search with an exception, and so does the first event of a
log that was empty when the wait began. -/
theorem refused_poll_and_first_event_raise :
    ¬ WaitsForEvent "VM".toList (some 1) [] none none (sameReply none) 0 ∧
    ¬ WaitsForEvent "VM".toList none [] none (some [])
      (sameReply (some [⟨1, 0, "VM vm_1 was started".toList⟩])) 0 ∧
    ¬ ∃ fuel value, findEvent "VM".toList 0 refusing 0 1 fuel = some (.ok value) := by
  refine ⟨fun h => ?_, fun h => ?_, fun h => ?_⟩
  · exact waitsForEvent_iff.mp h 0 (TimeoutingSampler.inTime_zero _ _) nofun (.inl rfl)
  · exact waitsForEvent_iff.mp h 0 (TimeoutingSampler.inTime_zero _ _) nofun
      (.inr ⟨rfl, nofun⟩)
  · exact findEvent_returns_iff.mp h 0 ⟨le_rfl, Nat.one_pos⟩ rfl

end OvirtArt.TestsLib.Events
