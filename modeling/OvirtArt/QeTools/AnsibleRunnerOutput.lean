import OvirtArt.QeTools.AnsibleRunner

set_option autoImplicit false

/-!
# `qe_tools/ansible/ansible_runner.py`: what becomes of the lines

No party drops, repeats or reorders a line: whatever the interleaving, the lines of a
stream are, in order, in its list, in the hand of its reader, in its queue, in the hand of
its enqueue thread, in its pipe or still to be written.  What `run_ansible_playbook`
returns misses the lines that are not in the list yet when the list is joined.

The invariants are kept by every step of every party.  They are what the results on lossless runs
rest on.
-/

namespace OvirtArt.QeTools.AnsibleRunner

open OvirtArt.Foundation

/-- The text of a sequence of lines. -/
def joined (lines : List Line) : String := String.join (lines.map Line.text)

/-- Text after which nonempty texts are missing is another text. -/
theorem join_eq_join_append_iff {lines rest : List String} (hrest : ∀ line ∈ rest, line ≠ "") :
    String.join lines = String.join (lines ++ rest) ↔ rest = [] := by
  constructor
  case mp =>
    intro heq
    cases rest with
    | nil => rfl
    | cons line rest =>
      have hline : 0 < line.length := by
        have hne : line.length ≠ 0 := by
          rw [Ne, String.length_eq_zero_iff]
          exact hrest line List.mem_cons_self
        exact Nat.pos_of_ne_zero hne
      have hlength := congrArg String.length heq
      rw [String.join_append, String.join_cons, String.length_append,
        String.length_append] at hlength
      omega
  case mpr =>
    rintro rfl
    rw [List.append_nil]

/-! ## One stream -/

namespace Channel

variable {c d : Channel}

/-- The lines that are not in the list yet, the next one first. -/
def pending (c : Channel) : List String :=
  c.reader.hand ++ (c.queue.items ++ (c.enqueuer.hand ++ (c.pipe ++ c.toWrite).map Line.text))

/-- All lines of the stream, wherever they are. -/
def carried (c : Channel) : List String := c.lines ++ c.pending

/-- Nothing is left in the pipe, in the queue or in the hands of the two threads. -/
def Drained (c : Channel) : Prop :=
  c.reader.hand = [] ∧ c.queue.items = [] ∧ c.enqueuer.hand = [] ∧ c.pipe = []

instance (c : Channel) : Decidable c.Drained :=
  inferInstanceAs (Decidable (_ ∧ _ ∧ _ ∧ _))

/-- What one step of any party does to a stream. -/
structure Forward (c d : Channel) : Prop where
  carried_eq : d.carried = c.carried
  toWrite_suffix : d.toWrite <:+ c.toWrite
  lines_prefix : c.lines <+: d.lines

theorem Forward.refl (c : Channel) : Forward c c :=
  ⟨rfl, List.suffix_rfl, List.prefix_rfl⟩

/-- A step that moves a line along, and appends none to the list. -/
theorem Forward.of_pending (hlines : d.lines = c.lines) (hpending : d.pending = c.pending)
    (hwrite : d.toWrite <:+ c.toWrite) : Forward c d := by
  refine ⟨?_, hwrite, hlines ▸ List.prefix_rfl⟩
  unfold carried
  rw [hlines, hpending]

theorem forward_write (hwrite : c.write = some d) : Forward c d := by
  unfold write at hwrite
  split at hwrite
  case h_1 => cases hwrite
  case h_2 line rest htoWrite =>
    obtain rfl := Option.some.inj hwrite
    refine Forward.of_pending (by rfl) ?_ ?_
    · simp [pending, htoWrite]
    · exact htoWrite ▸ List.suffix_cons line rest

theorem forward_startEnqueuer (hpc : c.enqueuer = .notStarted) : Forward c c.startEnqueuer := by
  refine Forward.of_pending (by rfl) ?_ List.suffix_rfl
  simp [pending, startEnqueuer, hpc, EnqueuePc.hand]

theorem forward_startReader (hpc : c.reader = .notStarted) : Forward c c.startReader := by
  refine Forward.of_pending (by rfl) ?_ List.suffix_rfl
  simp [pending, startReader, hpc, ReaderPc.hand]

variable {flushed writable : Bool}

/-- `readline` takes the next line from the pipe, or finds the end of the file. -/
theorem readline_cases {line : String} (hread : c.readline writable = some (line, d)) :
    (∃ next rest, c.pipe = next :: rest ∧ line = next.text ∧ d = { c with pipe := rest }) ∨
      (c.pipe = [] ∧ line = "" ∧ d = c) := by
  unfold readline at hread
  split at hread
  case h_1 next rest hpipe =>
    obtain ⟨rfl, rfl⟩ := Prod.mk.inj (Option.some.inj hread)
    exact Or.inl ⟨next, rest, hpipe, rfl, rfl⟩
  case h_2 hpipe =>
    split at hread
    case isTrue => cases hread
    case isFalse =>
      obtain ⟨rfl, rfl⟩ := Prod.mk.inj (Option.some.inj hread)
      exact Or.inr ⟨hpipe, rfl, rfl⟩

theorem forward_enqueueStep (hstep : c.enqueueStep writable flushed = some d) : Forward c d := by
  unfold enqueueStep at hstep
  split at hstep
  case h_1 => cases hstep
  case h_2 hpc =>
    obtain ⟨⟨line, next⟩, hread, rfl⟩ := Option.map_eq_some_iff.mp hstep
    rcases readline_cases hread with ⟨first, rest, hpipe, rfl, rfl⟩ | ⟨_, rfl, rfl⟩
    · refine Forward.of_pending (by rfl) ?_ List.suffix_rfl
      simp [pending, hpc, hpipe, EnqueuePc.hand, first.nonempty]
    · refine Forward.of_pending (by rfl) ?_ List.suffix_rfl
      simp [pending, hpc, EnqueuePc.hand]
  case h_3 line hpc =>
    obtain rfl := Option.some.inj hstep
    refine Forward.of_pending (by rfl) ?_ List.suffix_rfl
    simp [pending, hpc, EnqueuePc.hand, Queue.put]
  case h_4 hpc =>
    obtain rfl := Option.some.inj hstep
    refine Forward.of_pending (by rfl) ?_ List.suffix_rfl
    cases flushed <;> simp [pending, hpc, EnqueuePc.hand]
  case h_5 => cases hstep

/-- `get` takes the first item. -/
theorem get_items {queue rest : Queue} {line : String} (hget : queue.get = some (line, rest)) :
    queue.items = line :: rest.items := by
  obtain ⟨items, unfinished⟩ := queue
  cases items with
  | nil => cases hget
  | cons first items =>
    obtain ⟨rfl, rfl⟩ := Prod.mk.inj (Option.some.inj hget)
    rfl

theorem taskDone_items {queue rest : Queue} (hdone : queue.taskDone = some rest) :
    rest.items = queue.items := by
  obtain ⟨items, unfinished⟩ := queue
  cases unfinished with
  | zero => cases hdone
  | succ unfinished =>
    obtain rfl := Option.some.inj hdone
    rfl

theorem forward_readerStep (hstep : c.readerStep flushed = some d) : Forward c d := by
  unfold readerStep at hstep
  split at hstep
  case h_1 => cases hstep
  case h_2 hpc =>
    obtain rfl := Option.some.inj hstep
    refine Forward.of_pending (by rfl) ?_ List.suffix_rfl
    cases flushed <;> simp [pending, hpc, ReaderPc.hand]
  case h_3 hpc =>
    obtain rfl := Option.some.inj hstep
    refine Forward.of_pending (by rfl) ?_ List.suffix_rfl
    cases c.queue.empty <;> simp [pending, hpc, ReaderPc.hand]
  case h_4 hpc =>
    obtain ⟨⟨line, rest⟩, hget, rfl⟩ := Option.map_eq_some_iff.mp hstep
    refine Forward.of_pending (by rfl) ?_ List.suffix_rfl
    simp [pending, hpc, get_items hget, ReaderPc.hand]
  case h_5 line hpc =>
    -- the one step that makes the list longer
    obtain rfl := Option.some.inj hstep
    refine ⟨?_, List.suffix_rfl, List.prefix_append _ _⟩
    simp [carried, pending, hpc, ReaderPc.hand]
  case h_6 line hpc =>
    obtain rfl := Option.some.inj hstep
    refine Forward.of_pending (by rfl) ?_ List.suffix_rfl
    simp [pending, hpc, ReaderPc.hand]
  case h_7 hpc =>
    split at hstep
    case h_1 =>
      obtain rfl := Option.some.inj hstep
      refine Forward.of_pending (by rfl) ?_ List.suffix_rfl
      simp [pending, hpc, ReaderPc.hand]
    case h_2 rest hdone =>
      obtain rfl := Option.some.inj hstep
      refine Forward.of_pending (by rfl) ?_ List.suffix_rfl
      simp [pending, hpc, taskDone_items hdone, ReaderPc.hand]
  case h_8 => cases hstep

/-- Where the shell has written everything, what is drained is what has nothing pending. -/
theorem drained_iff_pending (hwritten : c.toWrite = []) : c.Drained ↔ c.pending = [] := by
  unfold Drained pending
  rw [hwritten]
  simp

/-- The list of a stream on which everything has been written gives all its text exactly
if the stream is drained. -/
theorem join_lines_iff {written : List Line} (hwritten : c.toWrite = [])
    (hcarried : c.carried = written.map Line.text) :
    String.join c.lines = joined written ↔ c.Drained := by
  have hpending : ∀ line ∈ c.pending, line ≠ "" := by
    intro line hline
    have hmem : line ∈ written.map Line.text :=
      hcarried ▸ List.mem_append_right c.lines hline
    obtain ⟨source, _, rfl⟩ := List.mem_map.mp hmem
    exact source.nonempty
  unfold joined
  rw [drained_iff_pending hwritten, ← hcarried, carried]
  exact join_eq_join_append_iff hpending

/-- A stream that is drained stays so, once everything has been written on it. -/
theorem Forward.drained (hforward : Forward c d) (hwritten : c.toWrite = [])
    (hdrained : c.Drained) : d.Drained := by
  have hnone : d.toWrite = [] := by
    have hsuffix := hforward.toWrite_suffix
    rw [hwritten] at hsuffix
    exact List.suffix_nil.mp hsuffix
  rw [drained_iff_pending hnone]
  rw [drained_iff_pending hwritten] at hdrained
  have hcarried := hforward.carried_eq
  unfold carried at hcarried
  rw [hdrained, List.append_nil] at hcarried
  obtain ⟨more, hmore⟩ := hforward.lines_prefix
  rw [← hmore, List.append_assoc, List.append_right_eq_self] at hcarried
  exact (List.append_eq_nil_iff.mp hcarried).2

/-- No step of a thread, and no writing, starts a thread. -/
structure Unstarted (c d : Channel) : Prop where
  enqueuer : c.enqueuer = .notStarted → d.enqueuer = .notStarted
  reader : c.reader = .notStarted → d.reader = .notStarted

theorem unstarted_write (hwrite : c.write = some d) : Unstarted c d := by
  unfold write at hwrite
  split at hwrite
  case h_1 => cases hwrite
  case h_2 =>
    obtain rfl := Option.some.inj hwrite
    exact ⟨id, id⟩

theorem unstarted_enqueueStep (hstep : c.enqueueStep writable flushed = some d) :
    Unstarted c d := by
  refine ⟨fun hpc => ?_, fun hpc => ?_⟩
  · simp [enqueueStep, hpc] at hstep
  · unfold enqueueStep at hstep
    split at hstep
    case h_1 => cases hstep
    case h_2 =>
      obtain ⟨⟨line, next⟩, hread, rfl⟩ := Option.map_eq_some_iff.mp hstep
      rcases readline_cases hread with ⟨_, _, _, _, rfl⟩ | ⟨_, _, rfl⟩
      · exact hpc
      · exact hpc
    case h_3 =>
      obtain rfl := Option.some.inj hstep
      exact hpc
    case h_4 =>
      obtain rfl := Option.some.inj hstep
      exact hpc
    case h_5 => cases hstep

theorem unstarted_readerStep (hstep : c.readerStep flushed = some d) : Unstarted c d := by
  refine ⟨fun hpc => ?_, fun hpc => ?_⟩
  · unfold readerStep at hstep
    split at hstep
    case h_1 => cases hstep
    case h_4 =>
      obtain ⟨⟨line, rest⟩, hget, rfl⟩ := Option.map_eq_some_iff.mp hstep
      exact hpc
    case h_7 =>
      split at hstep
      case h_1 =>
        obtain rfl := Option.some.inj hstep
        exact hpc
      case h_2 =>
        obtain rfl := Option.some.inj hstep
        exact hpc
    case h_8 => cases hstep
    all_goals
      obtain rfl := Option.some.inj hstep
      exact hpc
  · simp [readerStep, hpc] at hstep

end Channel

/-! ## What one step can do -/

namespace System

variable {s t : System} {stream : Stream}

@[simp] theorem channel_setChannel (s : System) (c : Channel) (stream : Stream) :
    (s.setChannel c stream).channel stream = c := by
  cases stream <;> rfl

theorem channel_setChannel_of_ne (c : Channel) {other : Stream} (hne : other ≠ stream) :
    (s.setChannel c stream).channel other = s.channel other := by
  cases stream <;> cases other <;> first | rfl | exact absurd rfl hne

@[simp] theorem setChannel_main (s : System) (c : Channel) (stream : Stream) :
    (s.setChannel c stream).main = s.main := by
  cases stream <;> rfl

@[simp] theorem setChannel_executor (s : System) (c : Channel) (stream : Stream) :
    (s.setChannel c stream).executor = s.executor := by
  cases stream <;> rfl

@[simp] theorem setChannel_alive (s : System) (c : Channel) (stream : Stream) :
    (s.setChannel c stream).alive = s.alive := by
  cases stream <;> rfl

/-- What one step of the main thread can do. -/
inductive MainStep (s : System) : System → Prop
  | startThread (role : Role) (stream : Stream) (rest : List (Role × Stream))
      (commands : List String) (hmain : s.main = .starting ((role, stream) :: rest) commands) :
      MainStep s { s.startThread role stream with main := .starting rest commands }
  | started (commands : List String) (hmain : s.main = .starting [] commands) :
      MainStep s { s with main := .sending commands }
  | send (cmd : String) (rest : List String) (hmain : s.main = .sending (cmd :: rest))
      (halive : s.alive = true) :
      MainStep s { s with
        process := { s.process with stdin := s.process.stdin ++ [cmd ++ "\n"] }
        main := .sending rest }
  | brokenPipe (cmd : String) (rest : List String) (hmain : s.main = .sending (cmd :: rest))
      (hdead : s.alive = false) : MainStep s { s with main := .raised }
  | sent (hmain : s.main = .sending []) : MainStep s { s with main := .exiting }
  | isClosed (hmain : s.main = .exiting) (hclosed : s.executor.closed = true) :
      MainStep s { s with main := .polling queues }
  | close (hmain : s.main = .exiting) (hopen : s.executor.closed = false) :
      MainStep s { s with
        process := { s.process with stdinClosed := true }
        executor := { s.executor with closed := true }
        main := .waiting }
  | waited (rc : Int) (hmain : s.main = .waiting) (hexited : s.process.exited = some rc) :
      MainStep s { s with executor := { s.executor with rc := rc }, main := .polling queues }
  | polled (hmain : s.main = .polling []) : MainStep s { s with main := .flushing }
  | foundEmpty (stream : Stream) (rest : List Stream) (hmain : s.main = .polling (stream :: rest))
      (hempty : (s.channel stream).queue.empty = true) :
      MainStep s { s with main := .polling rest }
  | foundLine (stream : Stream) (rest : List Stream) (hmain : s.main = .polling (stream :: rest))
      (hline : (s.channel stream).queue.empty = false) : MainStep s { s with main := .sleeping }
  | slept (hmain : s.main = .sleeping) : MainStep s { s with main := .polling queues }
  | flush (hmain : s.main = .flushing) :
      MainStep s { s with
        executor := { s.executor with flushedQueues := true }
        main := .joiningOut }
  | joinOut (hmain : s.main = .joiningOut) :
      MainStep s { s with main := .joiningErr (String.join s.out.lines) }
  | joinErr (out : String) (hmain : s.main = .joiningErr out) :
      MainStep s { s with main := .returned s.executor.rc out (String.join s.err.lines) }

theorem mainStep_cases (hstep : s.mainStep = some t) : MainStep s t := by
  unfold mainStep at hstep
  split at hstep
  case h_3 cmd rest hmain =>
    obtain rfl := Option.some.inj hstep
    unfold cmdToStdin
    split
    case isTrue halive => exact .send cmd rest hmain halive
    case isFalse hdead => exact .brokenPipe cmd rest hmain (by simpa using hdead)
  case h_5 hmain =>
    split at hstep
    case isTrue hclosed =>
      obtain rfl := Option.some.inj hstep
      exact .isClosed hmain hclosed
    case isFalse hopen =>
      obtain rfl := Option.some.inj hstep
      exact .close hmain (by simpa using hopen)
  case h_6 hmain =>
    obtain ⟨rc, hexited, rfl⟩ := Option.map_eq_some_iff.mp hstep
    exact .waited rc hmain hexited
  case h_8 stream rest hmain =>
    obtain rfl := Option.some.inj hstep
    cases hempty : (s.channel stream).queue.empty with
    | true => simpa using MainStep.foundEmpty stream rest hmain hempty
    | false => simpa using MainStep.foundLine stream rest hmain hempty
  case h_13 => cases hstep
  case h_14 => cases hstep
  all_goals obtain rfl := Option.some.inj hstep
  case h_1 role stream rest commands hmain => exact .startThread role stream rest commands hmain
  case h_2 commands hmain => exact .started commands hmain
  case h_4 hmain => exact .sent hmain
  case h_7 hmain => exact .polled hmain
  case h_9 hmain => exact .slept hmain
  case h_10 hmain => exact .flush hmain
  case h_11 hmain => exact .joinOut hmain
  case h_12 out hmain => exact .joinErr out hmain

/-- What one step of one party can do. -/
inductive PartyStep (s : System) : Party → System → Prop
  /-- the shell, or one of the four threads, takes a step on a stream -/
  | stream (party : Party) (stream : Stream) (c : Channel) (hparty : party ≠ .main)
      (hforward : (s.channel stream).Forward c) (hunstarted : (s.channel stream).Unstarted c) :
      PartyStep s party (s.setChannel c stream)
  | exits (rc : Int) (hwritten : ∀ stream, (s.channel stream).toWrite = []) :
      PartyStep s (.exits rc) { s with process := { s.process with exited := some rc } }
  | main {t : System} (hstep : MainStep s t) : PartyStep s .main t

theorem step_cases {party : Party} (hstep : s.step party = some t) : PartyStep s party t := by
  cases party with
  | writes stream =>
    obtain ⟨c, hc, rfl⟩ := Option.map_eq_some_iff.mp hstep
    exact .stream _ stream c (by simp) (Channel.forward_write hc) (Channel.unstarted_write hc)
  | exits rc =>
    simp only [step, exit] at hstep
    split at hstep
    case isTrue hexit =>
      obtain rfl := Option.some.inj hstep
      refine .exits rc fun stream => ?_
      cases stream with
      | out => exact hexit.2.1
      | err => exact hexit.2.2
    case isFalse => cases hstep
  | enqueuer stream =>
    obtain ⟨c, hc, rfl⟩ := Option.map_eq_some_iff.mp hstep
    exact .stream _ stream c (by simp) (Channel.forward_enqueueStep hc)
      (Channel.unstarted_enqueueStep hc)
  | reader stream =>
    obtain ⟨c, hc, rfl⟩ := Option.map_eq_some_iff.mp hstep
    exact .stream _ stream c (by simp) (Channel.forward_readerStep hc)
      (Channel.unstarted_readerStep hc)
  | main => exact .main (mainStep_cases hstep)

end System

end OvirtArt.QeTools.AnsibleRunner
