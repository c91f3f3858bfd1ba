import OvirtArt.TestsLib.Events

set_option autoImplicit false

/-!
# `find_event` over a growing log

The log of the engine grows from one poll to the next, by events with greater ids.  A query for the
events with a code returns the last of them, newest first, up to a number.

The query is limited, so that events can be missed between two polls, and are seen twice in two
windows that overlap.  The log is a structure with the laws of a growing log; one is built below.
-/

namespace OvirtArt.TestsLib.Events

open OvirtArt.CoreApi OvirtArt.Foundation

/-- The log at each poll, oldest event first; between two polls at most `maxEvents` events with the
code arrive.  Each query takes some time. -/
structure GrowingLog (code maxEvents : Nat) where
  events : Nat → List Event
  increasing : ∀ k, (events k).Pairwise fun event other => event.id < other.id
  grows : ∀ k, ∃ arrived, events (k + 1) = events k ++ arrived ∧
    (arrived.filter fun event => event.code == code).length ≤ maxEvents
  took : Nat → ℚ≥0
  least : ℚ≥0
  least_pos : 0 < least
  least_le : ∀ i, least ≤ took i

section

variable {code maxEvents : Nat} (log : GrowingLog code maxEvents)

/-- What `EVENT_API.query(constraint="type=...", max=max_events)` returns at a poll. -/
def GrowingLog.window (k : Nat) : List Event :=
  ((log.events k).filter fun event => event.code == code).reverse.take maxEvents

/-- The polls of the function, each with what it gets to see of the log. -/
def GrowingLog.polls : Polls where
  reply k := some (log.window k)
  took := log.took
  least := log.least
  least_pos := log.least_pos
  least_le := log.least_le

variable (content : Text) (lastEventId : Nat)

/-- The event is to be counted: its id is greater than that of the last event, and its description
has the content. -/
def Matches (event : Event) : Prop := lastEventId < event.id ∧ content <:+: event.description

/-- The event is to be counted, and was in one of the windows up to this poll. -/
def Seen (k : Nat) (event : Event) : Prop :=
  (∃ j ≤ k, event ∈ log.window j) ∧ Matches content lastEventId event

/-- There are so many distinct events with the property. -/
def AtLeast (number : Nat) (property : Event → Prop) : Prop :=
  ∃ events : List Event, events.Nodup ∧ events.length = number ∧ ∀ event ∈ events, property event

end

/-! ## The log -/

section

variable {code maxEvents : Nat} {log : GrowingLog code maxEvents} {content : Text}
  {lastEventId : Nat} {k : Nat} {event : Event}

theorem GrowingLog.events_mono {j : Nat} (h : j ≤ k) : log.events j <+: log.events k := by
  induction k, h using Nat.le_induction with
  | base => exact List.prefix_refl _
  | succ k _ ih =>
    obtain ⟨arrived, heq, -⟩ := log.grows k
    rw [heq]
    exact ih.trans (List.prefix_append _ _)

theorem GrowingLog.mem_of_mem_window (h : event ∈ log.window k) :
    event ∈ log.events k ∧ event.code = code := by
  have hmem := List.mem_reverse.mp (List.mem_of_mem_take h)
  obtain ⟨hevent, hcode⟩ := List.mem_filter.mp hmem
  exact ⟨hevent, beq_iff_eq.mp hcode⟩

theorem GrowingLog.nodup_events (log : GrowingLog code maxEvents) (k : Nat) :
    ((log.events k).map Event.id).Nodup :=
  List.pairwise_map.mpr ((log.increasing k).imp fun hlt => Nat.ne_of_lt hlt)

/-- An event of the log is known by its id. -/
theorem GrowingLog.eq_of_id_eq {other : Event} (hevent : event ∈ log.events k)
    (hother : other ∈ log.events k) (h : event.id = other.id) : event = other :=
  List.inj_on_of_nodup_map (log.nodup_events k) hevent hother h

theorem GrowingLog.nodup_window (log : GrowingLog code maxEvents) (k : Nat) :
    ((log.window k).map Event.id).Nodup := by
  have hcode : (((log.events k).filter fun event => event.code == code).map Event.id).Nodup :=
    (List.filter_sublist.map Event.id).nodup (log.nodup_events k)
  refine ((List.take_sublist _ _).map Event.id).nodup ?_
  rw [List.map_reverse]
  exact List.nodup_reverse.mpr hcode

/-- The window after some events have arrived. -/
theorem GrowingLog.window_succ (log : GrowingLog code maxEvents) (k : Nat) :
    ∃ arrived, log.events (k + 1) = log.events k ++ arrived ∧
      (arrived.filter fun event => event.code == code).length ≤ maxEvents ∧
      log.window (k + 1) =
        (arrived.filter fun event => event.code == code).reverse ++
          ((log.events k).filter fun event => event.code == code).reverse.take
            (maxEvents - (arrived.filter fun event => event.code == code).length) := by
  obtain ⟨arrived, heq, hfew⟩ := log.grows k
  refine ⟨arrived, heq, hfew, ?_⟩
  rw [GrowingLog.window, heq, List.filter_append, List.reverse_append, List.take_append,
    List.length_reverse, List.take_of_length_le (by rwa [List.length_reverse])]

/-- An event that has arrived since the last poll is in the window. -/
theorem GrowingLog.mem_window_of_arrived (h : event ∈ log.events (k + 1))
    (hnew : event ∉ log.events k) (hcode : event.code = code) : event ∈ log.window (k + 1) := by
  obtain ⟨arrived, heq, -, hwindow⟩ := log.window_succ k
  rw [heq, List.mem_append] at h
  rw [hwindow]
  refine List.mem_append_left _ (List.mem_reverse.mpr (List.mem_filter.mpr ?_))
  exact ⟨h.resolve_left hnew, beq_iff_eq.mpr hcode⟩

/-- An event in the window that was in the log at the last poll was in its window too. -/
theorem GrowingLog.mem_window_of_mem_events (h : event ∈ log.window (k + 1))
    (hold : event ∈ log.events k) : event ∈ log.window k := by
  obtain ⟨arrived, heq, -, hwindow⟩ := log.window_succ k
  rw [hwindow, List.mem_append] at h
  rcases h with harrived | hwindow
  · have hmem := (List.mem_filter.mp (List.mem_reverse.mp harrived)).1
    have hincreasing := log.increasing (k + 1)
    rw [heq, List.pairwise_append] at hincreasing
    exact absurd (hincreasing.2.2 event hold event hmem) (Nat.lt_irrefl _)
  · exact List.take_subset_take_left _ (Nat.sub_le _ _) hwindow

/-- Nothing that arrives after the first poll is missed. -/
theorem seen_iff : Seen log content lastEventId k event ↔ Matches content lastEventId event ∧
    (event ∈ log.window 0 ∨
      event ∈ log.events k ∧ event ∉ log.events 0 ∧ event.code = code) := by
  have hfirst : ∀ j, event ∈ log.window j → event ∈ log.events 0 → event ∈ log.window 0 := by
    intro j hwindow hold
    induction j with
    | zero => exact hwindow
    | succ j ih =>
      have hevent : event ∈ log.events j := (log.events_mono (Nat.zero_le j)).subset hold
      exact ih (log.mem_window_of_mem_events hwindow hevent)
  have hlater : ∀ k, event ∈ log.events k → event ∉ log.events 0 → event.code = code →
      ∃ j ≤ k, event ∈ log.window j := by
    intro k hevent hnew hcode
    induction k with
    | zero => exact absurd hevent hnew
    | succ k ih =>
      by_cases hold : event ∈ log.events k
      · obtain ⟨j, hj, hwindow⟩ := ih hold
        exact ⟨j, Nat.le_succ_of_le hj, hwindow⟩
      · exact ⟨k + 1, Nat.le_refl _, log.mem_window_of_arrived hevent hold hcode⟩
  constructor
  · rintro ⟨⟨j, hj, hwindow⟩, hmatches⟩
    obtain ⟨hevent, hcode⟩ := log.mem_of_mem_window hwindow
    refine ⟨hmatches, ?_⟩
    by_cases hold : event ∈ log.events 0
    · exact .inl (hfirst j hwindow hold)
    · exact .inr ⟨(log.events_mono hj).subset hevent, hold, hcode⟩
  · rintro ⟨hmatches, hwindow | ⟨hevent, hnew, hcode⟩⟩
    · exact ⟨⟨0, Nat.zero_le k, hwindow⟩, hmatches⟩
    · exact ⟨hlater k hevent hnew hcode, hmatches⟩

/-! ## What is counted -/

theorem counts_iff : counts content lastEventId event = true ↔
    Matches content lastEventId event := by
  rw [counts, Bool.and_eq_true, decide_eq_true_iff, Event.contains, Text.isSome_index?_iff]
  exact and_comm

/-- The events that a poll adds to those that are counted. -/
theorem mem_added {found : List Nat} {events : List Event} :
    event ∈ (freshEvents lastEventId found events).filter (counts content lastEventId) ↔
      event ∈ events ∧ event.id ∉ found ∧ Matches content lastEventId event := by
  simp only [freshEvents, List.mem_filter, decide_eq_true_eq, counts_iff, Bool.not_eq_true',
    List.contains_eq_mem, decide_eq_false_iff_not]
  constructor
  · rintro ⟨⟨⟨hevent, -⟩, hnew⟩, hmatches⟩
    exact ⟨hevent, hnew, hmatches⟩
  · rintro ⟨hevent, hnew, hmatches⟩
    exact ⟨⟨⟨hevent, hmatches.1⟩, hnew⟩, hmatches⟩

/-- The ids that are counted are those of the events seen. -/
theorem mem_counted_iff {id n : Nat} : id ∈ counted content lastEventId log.polls n ↔
    ∃ event, event.id = id ∧ (∃ j < n, event ∈ log.window j) ∧
      Matches content lastEventId event := by
  induction n with
  | zero =>
    refine iff_of_false List.not_mem_nil ?_
    rintro ⟨event, -, ⟨j, hj, -⟩, -⟩
    exact Nat.not_lt_zero j hj
  | succ n ih =>
    rw [counted, List.mem_append, ih]
    constructor
    · rintro (⟨event, hid, ⟨j, hj, hwindow⟩, hmatches⟩ | hadded)
      · exact ⟨event, hid, ⟨j, Nat.lt_succ_of_lt hj, hwindow⟩, hmatches⟩
      · obtain ⟨event, hevent, hid⟩ := List.mem_map.mp hadded
        obtain ⟨hwindow, -, hmatches⟩ := mem_added.mp hevent
        exact ⟨event, hid, ⟨n, n.lt_succ_self, hwindow⟩, hmatches⟩
    · rintro ⟨event, rfl, ⟨j, hj, hwindow⟩, hmatches⟩
      by_cases hold : event.id ∈ counted content lastEventId log.polls n
      · exact .inl (ih.mp hold)
      · rcases Nat.lt_succ_iff_lt_or_eq.mp hj with hlt | rfl
        · exact absurd (ih.mpr ⟨event, rfl, ⟨j, hlt, hwindow⟩, hmatches⟩) hold
        · refine .inr (List.mem_map_of_mem (mem_added.mpr ⟨?_, hold, hmatches⟩))
          exact hwindow

/-- No event is counted twice. -/
theorem nodup_counted (log : GrowingLog code maxEvents) (content : Text) (lastEventId n : Nat) :
    (counted content lastEventId log.polls n).Nodup := by
  induction n with
  | zero => exact List.nodup_nil
  | succ n ih =>
    have hadded : (((freshEvents lastEventId (counted content lastEventId log.polls n)
        (log.window n)).filter (counts content lastEventId)).map Event.id).Nodup := by
      refine (List.Sublist.map Event.id ?_).nodup (log.nodup_window n)
      exact List.filter_sublist.trans (List.filter_sublist.trans List.filter_sublist)
    refine List.Nodup.append ih hadded ?_
    intro id hold hnew
    obtain ⟨event, hevent, rfl⟩ := List.mem_map.mp hnew
    exact (mem_added.mp hevent).2.1 hold

/-- Each of these ids is that of an event with the property. -/
theorem exists_map_id {property : Event → Prop} {ids : List Nat}
    (h : ∀ id ∈ ids, ∃ event, event.id = id ∧ property event) :
    ∃ events : List Event, events.map Event.id = ids ∧ ∀ event ∈ events, property event := by
  induction ids with
  | nil => exact ⟨[], rfl, fun event hevent => absurd hevent List.not_mem_nil⟩
  | cons id rest ih =>
    rw [List.forall_mem_cons] at h
    obtain ⟨⟨event, rfl, hevent⟩, hrest⟩ := h
    obtain ⟨events, rfl, hevents⟩ := ih hrest
    exact ⟨event :: events, rfl, List.forall_mem_cons.mpr ⟨hevent, hevents⟩⟩

/-- So many distinct events have been seen exactly if so many ids are counted. -/
theorem atLeast_seen_iff {number : Nat} : AtLeast number (Seen log content lastEventId k) ↔
    number ≤ (counted content lastEventId log.polls (k + 1)).length := by
  have hseen : ∀ id, id ∈ counted content lastEventId log.polls (k + 1) ↔
      ∃ event, event.id = id ∧ Seen log content lastEventId k event := by
    intro id
    simp only [mem_counted_iff, Nat.lt_succ_iff, Seen]
  have hlogged : ∀ {event}, Seen log content lastEventId k event → event ∈ log.events k := by
    rintro event ⟨⟨j, hj, hwindow⟩, -⟩
    exact (log.events_mono hj).subset (log.mem_of_mem_window hwindow).1
  constructor
  · rintro ⟨events, hnodup, rfl, hall⟩
    have hids : (events.map Event.id).Nodup := by
      refine hnodup.map_on fun event hevent other hother heq => ?_
      exact log.eq_of_id_eq (hlogged (hall event hevent)) (hlogged (hall other hother)) heq
    have hsub : events.map Event.id ⊆ counted content lastEventId log.polls (k + 1) := by
      intro id hid
      obtain ⟨event, hevent, rfl⟩ := List.mem_map.mp hid
      exact (hseen event.id).mpr ⟨event, rfl, hall event hevent⟩
    calc events.length
        = (events.map Event.id).length := (List.length_map _).symm
      _ ≤ _ := (hids.subperm hsub).length_le
  · intro hnumber
    have htake := (List.take_sublist number
      (counted content lastEventId log.polls (k + 1))).nodup (nodup_counted log _ _ _)
    obtain ⟨events, hevents, hall⟩ := exists_map_id fun id hid =>
      (hseen id).mp (List.mem_of_mem_take hid)
    refine ⟨events, List.Nodup.of_map Event.id (hevents ▸ htake), ?_, hall⟩
    rw [← List.length_map Event.id, hevents, List.length_take_of_le hnumber]

end

/-- The log of virtual machines of which two start between two polls. -/
def startEvents (k : Nat) : List Event :=
  (List.range (2 * k + 2)).map fun i => ⟨i, 32, "VM started".toList⟩

theorem startEvents_increasing (k : Nat) :
    (startEvents k).Pairwise fun event other => event.id < other.id :=
  List.pairwise_map.mpr List.pairwise_lt_range

theorem startEvents_grows (k : Nat) : ∃ arrived, startEvents (k + 1) = startEvents k ++ arrived ∧
    (arrived.filter fun event => event.code == 32).length ≤ 3 := by
  refine ⟨[⟨2 * k + 2, 32, "VM started".toList⟩, ⟨2 * k + 3, 32, "VM started".toList⟩], ?_, ?_⟩
  · rw [startEvents, show 2 * (k + 1) + 2 = 2 * k + 2 + 1 + 1 by omega, List.range_succ,
      List.range_succ]
    simp [startEvents]
  · exact (List.length_filter_le _ _).trans (by simp)

/-- Each poll takes a second. -/
def startTook : Nat → ℚ≥0 := fun _ => 1

theorem one_le_startTook (i : Nat) : 1 ≤ startTook i := le_rfl

/-- The log of these events, of which a query returns the last three. -/
def startsLog : GrowingLog 32 3 where
  events := startEvents
  increasing := startEvents_increasing
  grows := startEvents_grows
  took := startTook
  least := 1
  least_pos := one_second_pos
  least_le := one_le_startTook

end OvirtArt.TestsLib.Events
