import OvirtArt.QeTools.AnsibleRunnerOutput

set_option autoImplicit false

/-!
# `qe_tools/ansible/ansible_runner.py`: when all the output is returned

`__exit__` sets `flushed_queues` as soon as it has found both queues empty, one after the
other, and the lists are joined right after that; a line can still be in the pipe, in the
hand of the enqueue thread or in the hand of the reader then.

The condition is on the state before the lists are joined, and holds over every interleaving.
Nothing is assumed of how fast a thread is.
-/

namespace OvirtArt.QeTools.AnsibleRunner

open OvirtArt.Foundation

/-! ## The invariant of the runs -/

/-- The threads that the main thread is still going to start. -/
def MainPc.toStart : MainPc → List (Role × Stream)
  | .starting threads _ => threads
  | _ => []

/-- Before `self.close()`. -/
def MainPc.BeforeClose : MainPc → Prop
  | .starting _ _ | .sending _ | .exiting => True
  | _ => False

/-- After `self.proc.wait()`. -/
def MainPc.AfterWait : MainPc → Prop
  | .polling _ | .sleeping | .flushing | .joiningOut | .joiningErr _ | .returned _ _ _ => True
  | _ => False

namespace System

variable {s t : System} {written : Stream → List Line}

/-- The thread has not been started. -/
def NotStarted (s : System) : Role × Stream → Prop
  | (.enqueuer, stream) => (s.channel stream).enqueuer = .notStarted
  | (.reader, stream) => (s.channel stream).reader = .notStarted

/-- What holds in every state of every run for a shell that writes the lines. -/
structure Sound (written : Stream → List Line) (s : System) : Prop where
  carried : ∀ stream, (s.channel stream).carried = (written stream).map Line.text
  startOnce : s.main.toStart.Nodup
  unstarted : ∀ thread ∈ s.main.toStart, s.NotStarted thread
  opened : s.main.BeforeClose → s.executor.closed = false
  exited : s.main.AfterWait → s.alive = false
  exhausted : s.alive = false → ∀ stream, (s.channel stream).toWrite = []

theorem sound_init (playbook ansibleParams inventory : String) (written : Stream → List Line) :
    Sound written (init playbook ansibleParams inventory written) where
  carried stream := by
    cases stream <;>
      simp [init, channel, Channel.carried, Channel.pending, Channel.new, Queue.new,
        EnqueuePc.hand, ReaderPc.hand]
  startOnce := by
    simp [init, MainPc.toStart]
  unstarted := by
    simp [init, MainPc.toStart, NotStarted, channel, Channel.new]
  opened _ := rfl
  exited := by
    simp [init, MainPc.AfterWait]
  exhausted := by
    simp [init, alive]

variable {stream : Stream} {party : Party} {role : Role}

/-- A step on a stream keeps what is said of the streams. -/
theorem Sound.setChannel {c : Channel} (hsound : Sound written s)
    (hforward : (s.channel stream).Forward c) (hunstarted : (s.channel stream).Unstarted c) :
    Sound written (s.setChannel c stream) where
  carried other := by
    by_cases hother : other = stream
    · subst hother
      rw [channel_setChannel, hforward.carried_eq]
      exact hsound.carried other
    · rw [channel_setChannel_of_ne c hother]
      exact hsound.carried other
  startOnce := by
    rw [setChannel_main]
    exact hsound.startOnce
  unstarted := by
    rw [setChannel_main]
    rintro ⟨role, other⟩ hthread
    have hbefore := hsound.unstarted (role, other) hthread
    by_cases hother : other = stream
    · subst hother
      cases role with
      | enqueuer =>
        simp only [NotStarted, channel_setChannel]
        exact hunstarted.enqueuer hbefore
      | reader =>
        simp only [NotStarted, channel_setChannel]
        exact hunstarted.reader hbefore
    · cases role with
      | enqueuer =>
        simp only [NotStarted, channel_setChannel_of_ne c hother]
        exact hbefore
      | reader =>
        simp only [NotStarted, channel_setChannel_of_ne c hother]
        exact hbefore
  opened := by
    rw [setChannel_main, setChannel_executor]
    exact hsound.opened
  exited := by
    rw [setChannel_main, setChannel_alive]
    exact hsound.exited
  exhausted := by
    rw [setChannel_alive]
    intro hdead other
    by_cases hother : other = stream
    · subst hother
      have hsuffix := hforward.toWrite_suffix
      rw [hsound.exhausted hdead other] at hsuffix
      rw [channel_setChannel]
      exact List.suffix_nil.mp hsuffix
    · rw [channel_setChannel_of_ne c hother]
      exact hsound.exhausted hdead other

/-- A step of the main thread that starts no thread keeps what is said of the streams. -/
theorem Sound.of_same_streams (hsound : Sound written s)
    (hchannel : ∀ stream, t.channel stream = s.channel stream) (halive : t.alive = s.alive)
    (hstart : t.main.toStart = []) (hopened : t.main.BeforeClose → t.executor.closed = false)
    (hexited : t.main.AfterWait → s.alive = false) : Sound written t where
  carried stream := by
    rw [hchannel]
    exact hsound.carried stream
  startOnce := by
    rw [hstart]
    exact List.nodup_nil
  unstarted := by
    simp [hstart]
  opened := hopened
  exited hmain := halive.trans (hexited hmain)
  exhausted hdead stream := by
    rw [hchannel]
    exact hsound.exhausted (halive.symm.trans hdead) stream

/-- Starting one thread leaves the others as they are. -/
theorem NotStarted.startThread {thread : Role × Stream} (hthread : s.NotStarted thread)
    (hne : thread ≠ (role, stream)) : (s.startThread role stream).NotStarted thread := by
  obtain ⟨other, otherStream⟩ := thread
  cases role <;> cases stream <;> cases other <;> cases otherStream <;>
    first | exact hthread | exact absurd rfl hne

/-- Starting a thread that has not been started moves no line. -/
theorem startThread_forward (hthread : s.NotStarted (role, stream)) (other : Stream) :
    (s.channel other).Forward ((s.startThread role stream).channel other) := by
  cases role with
  | enqueuer =>
    cases stream <;> cases other <;>
      first | exact .refl _ | exact Channel.forward_startEnqueuer hthread
  | reader =>
    cases stream <;> cases other <;>
      first | exact .refl _ | exact Channel.forward_startReader hthread

theorem Sound.startThread {rest : List (Role × Stream)} {commands : List String}
    (hsound : Sound written s) (hmain : s.main = .starting ((role, stream) :: rest) commands) :
    Sound written { s.startThread role stream with main := .starting rest commands } := by
  have hstart : s.main.toStart = (role, stream) :: rest := by
    rw [hmain]
    rfl
  obtain ⟨hnew, hrest⟩ := List.nodup_cons.mp (hstart ▸ hsound.startOnce)
  have hthread : s.NotStarted (role, stream) :=
    hsound.unstarted _ (hstart ▸ List.mem_cons_self)
  have hforward := startThread_forward hthread
  refine ⟨fun other => ?_, hrest, fun thread hmem => ?_, fun _ => ?_, fun hafter => hafter.elim,
    fun hdead other => ?_⟩
  · exact (hforward other).carried_eq.trans (hsound.carried other)
  · have hother : thread ≠ (role, stream) := fun heq => hnew (heq ▸ hmem)
    exact (hsound.unstarted thread (hstart ▸ List.mem_cons_of_mem _ hmem)).startThread hother
  · have hopened := hsound.opened (by rw [hmain]; trivial)
    cases role <;> cases stream <;> exact hopened
  · have halive : s.alive = false := by
      cases role <;> cases stream <;> exact hdead
    have hsuffix := (hforward other).toWrite_suffix
    rw [hsound.exhausted halive other] at hsuffix
    exact List.suffix_nil.mp hsuffix

/-- A step of the main thread keeps the invariant. -/
theorem Sound.mainStep (hsound : Sound written s) (hstep : MainStep s t) : Sound written t := by
  have hopened : s.main.BeforeClose → s.executor.closed = false := hsound.opened
  have hexited : s.main.AfterWait → s.alive = false := hsound.exited
  cases hstep with
  | startThread role stream rest commands hmain => exact hsound.startThread hmain
  | started commands hmain =>
    rw [hmain] at hopened
    exact hsound.of_same_streams (fun _ => rfl) rfl rfl hopened False.elim
  | send cmd rest hmain halive =>
    rw [hmain] at hopened
    exact hsound.of_same_streams (fun _ => rfl) rfl rfl hopened False.elim
  | brokenPipe cmd rest hmain hdead =>
    exact hsound.of_same_streams (fun _ => rfl) rfl rfl False.elim False.elim
  | sent hmain =>
    rw [hmain] at hopened
    exact hsound.of_same_streams (fun _ => rfl) rfl rfl hopened False.elim
  | isClosed hmain hclosed =>
    rw [hmain, hclosed] at hopened
    exact absurd (hopened trivial) Bool.noConfusion
  | close hmain hopen => exact hsound.of_same_streams (fun _ => rfl) rfl rfl False.elim False.elim
  | waited rc hmain hrc =>
    have hdead : s.alive = false := by
      rw [alive, hrc]
      rfl
    exact hsound.of_same_streams (fun _ => rfl) rfl rfl False.elim fun _ => hdead
  | polled hmain =>
    rw [hmain] at hexited
    exact hsound.of_same_streams (fun _ => rfl) rfl rfl False.elim hexited
  | foundEmpty stream rest hmain hempty =>
    rw [hmain] at hexited
    exact hsound.of_same_streams (fun _ => rfl) rfl rfl False.elim hexited
  | foundLine stream rest hmain hline =>
    rw [hmain] at hexited
    exact hsound.of_same_streams (fun _ => rfl) rfl rfl False.elim hexited
  | slept hmain =>
    rw [hmain] at hexited
    exact hsound.of_same_streams (fun _ => rfl) rfl rfl False.elim hexited
  | flush hmain =>
    rw [hmain] at hexited
    exact hsound.of_same_streams (fun _ => rfl) rfl rfl False.elim hexited
  | joinOut hmain =>
    rw [hmain] at hexited
    exact hsound.of_same_streams (fun _ => rfl) rfl rfl False.elim hexited
  | joinErr out hmain =>
    rw [hmain] at hexited
    exact hsound.of_same_streams (fun _ => rfl) rfl rfl False.elim hexited

/-- Every step of every party keeps the invariant. -/
theorem Sound.step (hsound : Sound written s) (hstep : s.step party = some t) :
    Sound written t := by
  cases step_cases hstep with
  | stream _ stream c _ hforward hunstarted => exact hsound.setChannel hforward hunstarted
  | exits rc hwritten =>
    exact ⟨hsound.carried, hsound.startOnce, hsound.unstarted, hsound.opened, fun _ => rfl,
      fun _ => hwritten⟩
  | main hmain => exact hsound.mainStep hmain

/-! ## What is returned -/

/-- What the main thread has joined so far is all that the shell has written. -/
def Delivered (written : Stream → List Line) (s : System) : Prop :=
  match s.main with
  | .joiningErr out => out = joined (written .out)
  | .returned _ out err => out = joined (written .out) ∧ err = joined (written .err)
  | _ => True

/-- Where the party is the main thread and joins a list, the stream of the list is
drained. -/
def JoinsDrained (s : System) : Party → Prop
  | .main =>
    match s.main with
    | .joiningOut => s.out.Drained
    | .joiningErr _ => s.err.Drained
    | _ => True
  | _ => True

instance (s : System) (party : Party) : Decidable (s.JoinsDrained party) := by
  unfold JoinsDrained
  split
  · split <;> infer_instance
  · infer_instance

/-- Joining the list of a stream gives all its text exactly if the stream is drained. -/
theorem Sound.join_lines_iff (hsound : Sound written s) (hexited : s.main.AfterWait)
    (stream : Stream) :
    String.join (s.channel stream).lines = joined (written stream) ↔
      (s.channel stream).Drained :=
  Channel.join_lines_iff (hsound.exhausted (hsound.exited hexited) stream)
    (hsound.carried stream)

/-- The step lemma: what has been joined is still all that was written exactly if the step
does not join the list of a stream with something left. -/
theorem delivered_step_iff (hsound : Sound written s) (hstep : s.step party = some t) :
    Delivered written t ↔ Delivered written s ∧ s.JoinsDrained party := by
  cases step_cases hstep with
  | stream _ stream c hparty _ _ =>
    have hguard : s.JoinsDrained party := by
      unfold JoinsDrained
      split
      · exact absurd rfl hparty
      · trivial
    unfold Delivered
    rw [setChannel_main]
    exact (and_iff_left hguard).symm
  | exits rc _ => exact (and_iff_left trivial).symm
  | main hmain =>
    cases hmain with
    | joinOut hmain =>
      have hexited : s.main.AfterWait := by
        rw [hmain]
        trivial
      simp only [Delivered, JoinsDrained, hmain, true_and]
      exact hsound.join_lines_iff hexited .out
    | joinErr out hmain =>
      have hexited : s.main.AfterWait := by
        rw [hmain]
        trivial
      simp only [Delivered, JoinsDrained, hmain]
      exact and_congr_right fun _ => hsound.join_lines_iff hexited .err
    | startThread _ _ _ _ hmain => simp [Delivered, JoinsDrained, hmain]
    | started _ hmain => simp [Delivered, JoinsDrained, hmain]
    | send _ _ hmain _ => simp [Delivered, JoinsDrained, hmain]
    | brokenPipe _ _ hmain _ => simp [Delivered, JoinsDrained, hmain]
    | sent hmain => simp [Delivered, JoinsDrained, hmain]
    | isClosed hmain _ => simp [Delivered, JoinsDrained, hmain]
    | close hmain _ => simp [Delivered, JoinsDrained, hmain]
    | waited _ hmain _ => simp [Delivered, JoinsDrained, hmain]
    | polled hmain => simp [Delivered, JoinsDrained, hmain]
    | foundEmpty _ _ hmain _ => simp [Delivered, JoinsDrained, hmain]
    | foundLine _ _ hmain _ => simp [Delivered, JoinsDrained, hmain]
    | slept hmain => simp [Delivered, JoinsDrained, hmain]
    | flush hmain => simp [Delivered, JoinsDrained, hmain]

/-- The shell has exited, and nothing of its output is left on the way to the lists. -/
structure Settled (s : System) : Prop where
  exited : s.alive = false
  drained : ∀ stream, (s.channel stream).Drained

/-- A settled system stays settled. -/
theorem Settled.step (hsettled : s.Settled) (hsound : Sound written s)
    (hstep : s.step party = some t) : t.Settled := by
  have hwritten := hsound.exhausted hsettled.exited
  cases step_cases hstep with
  | stream _ stream c _ hforward _ =>
    refine ⟨by rw [setChannel_alive]; exact hsettled.exited, fun other => ?_⟩
    by_cases hother : other = stream
    · subst hother
      rw [channel_setChannel]
      exact hforward.drained (hwritten other) (hsettled.drained other)
    · rw [channel_setChannel_of_ne c hother]
      exact hsettled.drained other
  | exits rc _ => exact ⟨rfl, hsettled.drained⟩
  | main hmain =>
    cases hmain with
    | startThread role stream rest commands hmain =>
      have hthread : s.NotStarted (role, stream) := by
        apply hsound.unstarted
        rw [hmain]
        exact List.mem_cons_self
      refine ⟨?_, fun other => ?_⟩
      · cases role <;> cases stream <;> exact hsettled.exited
      · exact (startThread_forward hthread other).drained (hwritten other)
          (hsettled.drained other)
    | _ => exact ⟨hsettled.exited, hsettled.drained⟩

/-- In a settled system the main thread joins drained streams only. -/
theorem Settled.joinsDrained (hsettled : s.Settled) (party : Party) : s.JoinsDrained party := by
  unfold JoinsDrained
  split
  · split
    · exact hsettled.drained .out
    · exact hsettled.drained .err
    · trivial
  · trivial

/-- From a settled state on, every run joins all that was written. -/
theorem Settled.loses_nothing {schedule : List Party} (hsettled : s.Settled)
    (hsound : Sound written s) (hdelivered : Delivered written s)
    (hrun : run System.step s schedule = some t) : Delivered written t := by
  have hrule : Sound written t ∧ t.Settled ∧ Delivered written t := by
    refine run_invariant (I := fun s => Sound written s ∧ s.Settled ∧ Delivered written s)
      (fun h hstep => ?_) ⟨hsound, hsettled, hdelivered⟩ hrun
    obtain ⟨hs, hset, hdel⟩ := h
    exact ⟨hs.step hstep, hset.step hs hstep,
      (delivered_step_iff hs hstep).mpr ⟨hdel, hset.joinsDrained _⟩⟩
  exact hrule.2.2

/-- What the main thread has joined are the first lines that the shell has written. -/
def InOrder (written : Stream → List Line) (s : System) : Prop :=
  match s.main with
  | .joiningErr out => ∃ n, out = joined ((written .out).take n)
  | .returned _ out err =>
    (∃ n, out = joined ((written .out).take n)) ∧ ∃ n, err = joined ((written .err).take n)
  | _ => True

/-- The list of a stream holds the first lines of the stream. -/
theorem Sound.join_lines_eq_take (hsound : Sound written s) (stream : Stream) :
    ∃ n, String.join (s.channel stream).lines = joined ((written stream).take n) := by
  have hprefix : (s.channel stream).lines <+: (written stream).map Line.text :=
    ⟨(s.channel stream).pending, hsound.carried stream⟩
  refine ⟨(s.channel stream).lines.length, ?_⟩
  rw [joined, List.map_take, ← List.prefix_iff_eq_take.mp hprefix]

theorem inOrder_step (hsound : Sound written s) (horder : InOrder written s)
    (hstep : s.step party = some t) : InOrder written t := by
  cases step_cases hstep with
  | stream _ stream c _ _ _ =>
    unfold InOrder
    rw [setChannel_main]
    exact horder
  | exits rc _ => exact horder
  | main hmain =>
    cases hmain with
    | joinOut hmain => exact hsound.join_lines_eq_take .out
    | joinErr out hmain =>
      have hout : ∃ n, out = joined ((written .out).take n) := by
        simpa only [InOrder, hmain] using horder
      exact ⟨hout, hsound.join_lines_eq_take .err⟩
    | _ => trivial

end System

/-! ## Whole runs -/

section

open OvirtArt.QeTools.AnsibleRunner.System

variable (playbook ansibleParams inventory : String) (written : Stream → List Line)

/-- `run_ansible_playbook` returns all that the shell has written to stdout and to stderr,
line by line and in order, exactly in the runs in which the main thread joins each list when
nothing of the stream is in the pipe, in the queue or in the hand of a thread any more. -/
theorem returned_all_iff {schedule : List Party} {t : System} {rc : Int} {out err : String}
    (hrun : run System.step (init playbook ansibleParams inventory written) schedule = some t)
    (hreturned : t.main = .returned rc out err) :
    (out = joined (written .out) ∧ err = joined (written .err)) ↔
      EveryStep System.step JoinsDrained (init playbook ansibleParams inventory written)
        schedule := by
  have hsteps := last_iff_everyStep (Q := Delivered written) Sound.step delivered_step_iff
    (sound_init playbook ansibleParams inventory written) hrun
  have hinit : Delivered written (init playbook ansibleParams inventory written) := trivial
  have hlast : Delivered written t ↔
      out = joined (written .out) ∧ err = joined (written .err) := by
    rw [Delivered, hreturned]
  rw [← hlast, hsteps]
  exact and_iff_right hinit

/-- Whatever the interleaving, what is returned are the first lines that the shell has
written, in order and none of them twice. -/
theorem returned_in_order {schedule : List Party} {t : System} {rc : Int} {out err : String}
    (hrun : run System.step (init playbook ansibleParams inventory written) schedule = some t)
    (hreturned : t.main = .returned rc out err) :
    (∃ n, out = joined ((written .out).take n)) ∧
      ∃ n, err = joined ((written .err).take n) := by
  have horder : Sound written t ∧ InOrder written t := by
    refine run_invariant (I := fun s => Sound written s ∧ InOrder written s)
      (fun h hstep => ⟨h.1.step hstep, inOrder_step h.1 h.2 hstep⟩) ?_ hrun
    exact ⟨sound_init playbook ansibleParams inventory written, trivial⟩
  simpa only [InOrder, hreturned] using horder.2

end

/-! ## The recap of a playbook -/

/-- A shell that writes two lines to stdout and one to stderr. -/
def recap : Stream → List Line
  | .out => [⟨"PLAY RECAP\n", by decide⟩, ⟨"host : ok=1\n", by decide⟩]
  | .err => [⟨"WARNING\n", by decide⟩]

/-- The main thread, from the start up to the head of `__exit__`. -/
def untilExit : List Party := List.replicate 8 .main

/-- The main thread, from the head of `__exit__` to the end, where it finds both queues
empty at once. -/
def exitAndJoin : List Party := List.replicate 8 .main

/-- All lines pass through the threads before the main thread looks at the queues, those of
one stream between those of the other. -/
def readInTime : List Party :=
  untilExit ++ [.writes .out, .writes .err, .enqueuer .out, .enqueuer .out, .writes .out,
    .reader .out, .reader .out, .reader .out, .reader .out, .enqueuer .err, .enqueuer .err,
    .reader .out, .reader .out, .enqueuer .out, .enqueuer .out, .enqueuer .out, .reader .err,
    .reader .err, .reader .out, .reader .out, .exits 0, .reader .err, .reader .err,
    .reader .out, .reader .out]

theorem returned_all_iff_recap :
    "PLAY RECAP\nhost : ok=1\n" = joined (recap .out) ∧ "WARNING\n" = joined (recap .err) := by
  have hrun : run System.step (System.init "site.yml" "" "./inventory" recap)
      (readInTime ++ exitAndJoin) = some _ := rfl
  exact (returned_all_iff "site.yml" "" "./inventory" recap hrun rfl).mpr (by decide)

theorem returned_in_order_recap :
    (∃ n, "PLAY RECAP\nhost : ok=1\n" = joined ((recap .out).take n)) ∧
      ∃ n, "WARNING\n" = joined ((recap .err).take n) := by
  have hrun : run System.step (System.init "site.yml" "" "./inventory" recap)
      (readInTime ++ exitAndJoin) = some _ := rfl
  exact returned_in_order "site.yml" "" "./inventory" recap hrun rfl

/-- The lines are in their lists before the main thread looks at the queues. -/
theorem loses_nothing_recap : ∃ t : System,
    t.main = .returned 0 "PLAY RECAP\nhost : ok=1\n" "WARNING\n" ∧ t.Delivered recap := by
  have hread : run System.step (System.init "site.yml" "" "./inventory" recap) readInTime =
      some _ := rfl
  have hsound := run_invariant System.Sound.step
    (System.sound_init "site.yml" "" "./inventory" recap) hread
  refine ⟨_, ?_, System.Settled.loses_nothing ⟨rfl, ?_⟩ hsound trivial
    (rfl : run System.step _ exitAndJoin = some _)⟩
  · rfl
  · exact fun stream => by cases stream <;> decide

/-- The shell writes its lines and exits; the main thread finds both queues empty before any
thread has read one of them. -/
theorem recap_is_lost :
    ¬ ∀ (written : Stream → List Line) (schedule : List Party) (t : System) (rc : Int)
      (out err : String),
      run System.step (System.init "site.yml" "" "./inventory" written) schedule = some t →
      t.main = .returned rc out err →
      out = joined (written .out) ∧ err = joined (written .err) := by
  intro hall
  have hlost := hall recap
    (untilExit ++ [.writes .out, .writes .err, .writes .out, .exits 0] ++ exitAndJoin) _ 0 "" ""
    rfl rfl
  exact absurd hlost.1 (by decide)

end OvirtArt.QeTools.AnsibleRunner
