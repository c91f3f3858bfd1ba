import Mathlib.Algebra.Order.Archimedean.Basic
import OvirtArt.CoreApi.PyText
import OvirtArt.CoreApi.TimeoutingSampler

set_option autoImplicit false

/-!
# Watching a log

`watch_for_remote_changes` and `watch_for_local_changes` of `rhevm_api/utils/log_listener.py`.  Each
reads what `tail` puts out, piece by piece, and searches all that it has read after each piece.  The
time is looked at between two reads only, and a read blocks as long as there is nothing to read.

The search is a parameter.  What a pipe or a channel delivers is any sequence of pieces, each
after some time; a piece that is never delivered blocks the watch.  The terminal and the log are
left out.
-/

namespace OvirtArt.Utils.LogWatching

open OvirtArt.CoreApi

/-- What a read returns, and how long it takes. -/
structure Reading where
  text : Text
  duration : ℚ≥0

/-- The output of the command, as its reads deliver it: `none` for a read that never returns.  There
is a least time that a read takes. -/
structure Delivery where
  read : Nat → Option Reading
  least : ℚ≥0
  least_pos : 0 < least
  least_le : ∀ i reading, read i = some reading → least ≤ reading.duration

/-- The reads of the channel: `recv(1024)`. -/
structure Channel extends Delivery where
  chunks : ∀ i reading, read i = some reading → reading.text.length ≤ 1024

/-- The reads of the pipe: `readline()`. -/
structure Pipe extends Delivery where
  lines : ∀ i reading, read i = some reading → '\n' ∉ reading.text.dropLast

/-- What a watch returns: the match, or the empty string. -/
inductive Watched (Match : Type) where
  | found (reg : Match)
  | emptyString

/-! ## The source -/

/-- The number of reads so far, the `recv` that they made up, and the time since the start. -/
structure Watching where
  reads : Nat
  recv : Text
  elapsed : ℚ≥0

/-- Before the first read. -/
def Watching.start : Watching where
  reads := 0
  recv := []
  elapsed := 0

/-- After one more read. -/
def Watching.next (w : Watching) (reading : Reading) : Watching where
  reads := w.reads + 1
  recv := w.recv ++ reading.text
  elapsed := w.elapsed + reading.duration

/-- `if self.time_out` and `if self.time_out < time.time() - start_time`. -/
def overdue (timeOut : Option ℚ≥0) (elapsed : ℚ≥0) : Bool :=
  match timeOut with
  | none => false
  | some timeOut => decide (timeOut ≠ 0) && decide (timeOut < elapsed)

section

variable {Match : Type} (search : Text → Option Match) (timeOut : Option ℚ≥0)

/-- The loop that both functions have, with fuel for so many rounds; `none` as long as it has not
returned. -/
def watch (delivery : Delivery) : Nat → Watching → Option (Watched Match)
  | 0, _ => none
  | fuel + 1, w =>
    if overdue timeOut w.elapsed then some .emptyString
    else
      match delivery.read w.reads with
      | none => none
      | some reading =>
        match search (w.next reading).recv with
        | some reg => some (.found reg)
        | none => watch delivery fuel (w.next reading)

/-- `watch_for_remote_changes`, where `search` is `re.search` for the regular expression. -/
def watchForRemoteChanges (channel : Channel) (fuel : Nat) : Option (Watched Match) :=
  watch search timeOut channel.toDelivery fuel .start

/-- `watch_for_local_changes`. -/
def watchForLocalChanges (pipe : Pipe) (fuel : Nat) : Option (Watched Match) :=
  watch search timeOut pipe.toDelivery fuel .start

end

/-! ## What is asked of it -/

/-- Where a watch is after so many reads, if each of them returns. -/
def Delivery.after (delivery : Delivery) : Nat → Option Watching
  | 0 => some .start
  | n + 1 => (delivery.after n).bind fun w => (delivery.read n).map w.next

/-- The call returns the value. -/
def Returns {β : Type} (result : Nat → Option β) (value : β) : Prop :=
  ∃ fuel, result fuel = some value

/-- There is a timeout: `0` is none, as `None` is. -/
def Limited (timeOut : Option ℚ≥0) : Prop := ∃ t, timeOut = some t ∧ t ≠ 0

section

variable {Match : Type} (search : Text → Option Match) (timeOut : Option ℚ≥0)
  (delivery : Delivery)

/-- No prefix that the first `n` reads deliver has a match. -/
def NoMatchTo (n : Nat) : Prop :=
  ∀ i < n, ∀ w, delivery.after (i + 1) = some w → search w.recv = none

/-- The shortest prefix with a match is that which the read after the first `n` ones delivers. -/
structure FirstMatch (n : Nat) (w : Watching) (reg : Match) : Prop where
  delivered : delivery.after (n + 1) = some w
  found : search w.recv = some reg
  first : NoMatchTo search delivery n

/-- The output ends: every read returns, and from some one on they yield nothing. -/
def OutputEnds : Prop :=
  ∃ n, ∀ i, ∃ reading, delivery.read i = some reading ∧ (n ≤ i → reading.text = [])

/-- A watch returns the match in the shortest prefix that has one, if it is delivered in time, and
the empty string if the timeout passes first; without a timeout it ends when the output does. -/
structure Watches (result : Nat → Option (Watched Match)) : Prop where
  finds : ∀ n w reg, FirstMatch search delivery n w reg → overdue timeOut w.elapsed = false →
    Returns result (.found reg)
  givesUp : Limited timeOut →
    (∀ n w reg, FirstMatch search delivery n w reg → overdue timeOut w.elapsed = true) →
      Returns result .emptyString
  ends : ¬ Limited timeOut → OutputEnds delivery → ∃ value, Returns result value

/-- With a timeout, the read that goes on when it passes returns, and does not deliver the first
match.  Without a timeout, there is a match unless the output does not end. -/
structure Audible : Prop where
  limited : Limited timeOut → ∀ n w, delivery.after n = some w →
    overdue timeOut w.elapsed = false → NoMatchTo search delivery n →
      ∃ reading, delivery.read n = some reading ∧
        (overdue timeOut (w.next reading).elapsed = true → search (w.next reading).recv = none)
  unlimited : ¬ Limited timeOut → OutputEnds delivery →
    ∃ n w reg, FirstMatch search delivery n w reg

end

/-! ## Where the loop comes to -/

section

variable {Match : Type} {search : Text → Option Match} {timeOut : Option ℚ≥0}
  {delivery : Delivery} {n : Nat} {v w : Watching} {reading : Reading} {reg : Match}

theorem after_succ_eq_some_iff : delivery.after (n + 1) = some v ↔
    ∃ w reading, delivery.after n = some w ∧ delivery.read n = some reading ∧
      v = w.next reading := by
  rw [Delivery.after]
  constructor
  · intro h
    obtain ⟨w, hw, h⟩ := Option.bind_eq_some_iff.mp h
    obtain ⟨reading, hreading, hv⟩ := Option.map_eq_some_iff.mp h
    exact ⟨w, reading, hw, hreading, hv.symm⟩
  · rintro ⟨w, reading, hw, hreading, rfl⟩
    exact Option.bind_eq_some_iff.mpr ⟨w, hw, Option.map_eq_some_iff.mpr ⟨reading, hreading, rfl⟩⟩

theorem after_succ (hw : delivery.after n = some w) (hreading : delivery.read n = some reading) :
    delivery.after (n + 1) = some (w.next reading) :=
  after_succ_eq_some_iff.mpr ⟨w, reading, hw, hreading, rfl⟩

theorem reads_after (h : delivery.after n = some w) : w.reads = n := by
  induction n generalizing w with
  | zero => rw [← Option.some.inj h]; rfl
  | succ n ih =>
    obtain ⟨v, reading, hv, -, rfl⟩ := after_succ_eq_some_iff.mp h
    exact congrArg (· + 1) (ih hv)

/-- Where a watch is after a number of reads, it has been after any lower one, and not later. -/
theorem after_of_le {m : Nat} (h : delivery.after n = some w) (hle : m ≤ n) :
    ∃ v, delivery.after m = some v ∧ v.elapsed ≤ w.elapsed := by
  induction n generalizing w with
  | zero =>
    obtain rfl := Nat.le_zero.mp hle
    exact ⟨w, h, le_rfl⟩
  | succ n ih =>
    rcases Nat.lt_or_eq_of_le hle with hlt | rfl
    · obtain ⟨u, reading, hu, -, rfl⟩ := after_succ_eq_some_iff.mp h
      obtain ⟨v, hv, hvle⟩ := ih hu (Nat.le_of_lt_succ hlt)
      exact ⟨v, hv, hvle.trans le_self_add⟩
    · exact ⟨w, h, le_rfl⟩

theorem overdue_mono {a b : ℚ≥0} (h : overdue timeOut b = false) (hle : a ≤ b) :
    overdue timeOut a = false := by
  unfold overdue at h ⊢
  cases timeOut with
  | none => rfl
  | some t =>
    rcases Bool.and_eq_false_iff.mp h with hzero | hlate
    · exact Bool.and_eq_false_iff.mpr (.inl hzero)
    · refine Bool.and_eq_false_iff.mpr (.inr (decide_eq_false ?_))
      exact fun hlt => of_decide_eq_false hlate (hlt.trans_le hle)

theorem limited_of_overdue {a : ℚ≥0} (h : overdue timeOut a = true) : Limited timeOut := by
  cases timeOut with
  | none => exact nomatch h
  | some t => exact ⟨t, rfl, of_decide_eq_true (Bool.and_eq_true_iff.mp h).1⟩

/-- The elapsed time is that of so many reads at least. -/
theorem least_mul_le (h : delivery.after n = some w) : n * delivery.least ≤ w.elapsed := by
  induction n generalizing w with
  | zero => rw [Nat.cast_zero, zero_mul]; exact zero_le
  | succ n ih =>
    obtain ⟨v, reading, hv, hreading, rfl⟩ := after_succ_eq_some_iff.mp h
    rw [Nat.cast_succ, add_mul, one_mul]
    exact add_le_add (ih hv) (delivery.least_le n reading hreading)

/-- The loop comes to its round after `n` reads: it was in time before each of them, and none has
delivered a match. -/
structure ComesTo (search : Text → Option Match) (timeOut : Option ℚ≥0) (delivery : Delivery)
    (n : Nat) (w : Watching) : Prop where
  at_round : delivery.after n = some w
  in_time : ∀ i < n, ∀ v, delivery.after i = some v → overdue timeOut v.elapsed = false
  unmatched : NoMatchTo search delivery n

theorem comesTo_zero : ComesTo search timeOut delivery 0 .start :=
  ⟨rfl, fun _ hi => absurd hi (Nat.not_lt_zero _), fun _ hi => absurd hi (Nat.not_lt_zero _)⟩

/-- A round that is in time and has no match leads to the next one. -/
theorem ComesTo.succ (h : ComesTo search timeOut delivery n w)
    (htime : overdue timeOut w.elapsed = false) (hreading : delivery.read n = some reading)
    (hnone : search (w.next reading).recv = none) :
    ComesTo search timeOut delivery (n + 1) (w.next reading) where
  at_round := after_succ h.at_round hreading
  in_time := by
    intro i hi v hv
    rcases Nat.lt_succ_iff_lt_or_eq.mp hi with hlt | rfl
    · exact h.in_time i hlt v hv
    · rw [← Option.some.inj (h.at_round.symm.trans hv)]
      exact htime
  unmatched := by
    intro i hi v hv
    rcases Nat.lt_succ_iff_lt_or_eq.mp hi with hlt | rfl
    · exact h.unmatched i hlt v hv
    · rw [← Option.some.inj ((after_succ h.at_round hreading).symm.trans hv)]
      exact hnone

/-- The loop comes to any round before which it is in time, up to the first match. -/
theorem comesTo_of_inTime (hw : delivery.after n = some w)
    (htime : overdue timeOut w.elapsed = false) (hnone : NoMatchTo search delivery n) :
    ComesTo search timeOut delivery n w where
  at_round := hw
  in_time := by
    intro i hi v hv
    obtain ⟨u, hu, hle⟩ := after_of_le hw hi.le
    rw [← Option.some.inj (hu.symm.trans hv)]
    exact overdue_mono htime hle
  unmatched := hnone

/-! ## One round -/

theorem watch_of_overdue (h : overdue timeOut w.elapsed = true) (fuel : Nat) :
    watch search timeOut delivery (fuel + 1) w = some .emptyString := by
  rw [watch, if_pos h]

theorem watch_of_found (htime : overdue timeOut w.elapsed = false)
    (hreading : delivery.read w.reads = some reading)
    (hfound : search (w.next reading).recv = some reg) (fuel : Nat) :
    watch search timeOut delivery (fuel + 1) w = some (.found reg) := by
  simp only [watch, htime, hreading, hfound, Bool.false_eq_true, if_false]

theorem watch_of_none (htime : overdue timeOut w.elapsed = false)
    (hreading : delivery.read w.reads = some reading)
    (hnone : search (w.next reading).recv = none) (fuel : Nat) :
    watch search timeOut delivery (fuel + 1) w =
      watch search timeOut delivery fuel (w.next reading) := by
  simp only [watch, htime, hreading, hnone, Bool.false_eq_true, if_false]

/-! ## The whole run -/

/-- The rounds up to one that the loop comes to only take fuel. -/
theorem ComesTo.watch_add (h : ComesTo search timeOut delivery n w) (fuel : Nat) :
    watch search timeOut delivery (n + fuel) .start = watch search timeOut delivery fuel w := by
  induction n generalizing w fuel with
  | zero => rw [Nat.zero_add, Option.some.inj h.at_round]
  | succ n ih =>
    obtain ⟨v, reading, hv, hreading, rfl⟩ := after_succ_eq_some_iff.mp h.at_round
    have hprevious : ComesTo search timeOut delivery n v :=
      ⟨hv, fun i hi => h.in_time i (Nat.lt_succ_of_lt hi),
        fun i hi => h.unmatched i (Nat.lt_succ_of_lt hi)⟩
    rw [Nat.succ_add_eq_add_succ, ih hprevious]
    exact watch_of_none (h.in_time n n.lt_succ_self v hv) (by rw [reads_after hv, hreading])
      (h.unmatched n n.lt_succ_self _ h.at_round) fuel

theorem ComesTo.returns_emptyString (h : ComesTo search timeOut delivery n w)
    (hlate : overdue timeOut w.elapsed = true) :
    Returns (fun fuel => watch search timeOut delivery fuel .start) .emptyString :=
  ⟨n + 1, (h.watch_add 1).trans (watch_of_overdue hlate 0)⟩

theorem ComesTo.returns_found (h : ComesTo search timeOut delivery n w)
    (htime : overdue timeOut w.elapsed = false) (hreading : delivery.read n = some reading)
    (hfound : search (w.next reading).recv = some reg) :
    Returns (fun fuel => watch search timeOut delivery fuel .start) (.found reg) :=
  ⟨n + 1, (h.watch_add 1).trans
    (watch_of_found htime (by rw [reads_after h.at_round, hreading]) hfound 0)⟩

/-- A round at which the loop returns: it is overdue there, or its read delivers a match. -/
inductive LeavesAt (search : Text → Option Match) (timeOut : Option ℚ≥0) (delivery : Delivery)
    (n : Nat) (w : Watching) : Watched Match → Prop where
  | late (hlate : overdue timeOut w.elapsed = true) :
      LeavesAt search timeOut delivery n w .emptyString
  | matched {reading : Reading} {reg : Match} (htime : overdue timeOut w.elapsed = false)
      (hreading : delivery.read n = some reading)
      (hfound : search (w.next reading).recv = some reg) :
      LeavesAt search timeOut delivery n w (.found reg)

/-- A loop that returns has come to a round at which it does. -/
theorem exists_leavesAt {fuel : Nat} {value : Watched Match}
    (hcomes : ComesTo search timeOut delivery n w)
    (h : watch search timeOut delivery fuel w = some value) :
    ∃ m v, ComesTo search timeOut delivery m v ∧ LeavesAt search timeOut delivery m v value := by
  induction fuel generalizing n w with
  | zero => exact nomatch h
  | succ fuel ih =>
    cases hlate : overdue timeOut w.elapsed with
    | true =>
      rw [watch_of_overdue hlate] at h
      rw [← Option.some.inj h]
      exact ⟨n, w, hcomes, .late hlate⟩
    | false =>
      have hreads := reads_after hcomes.at_round
      cases hreading : delivery.read n with
      | none =>
        simp only [watch, hlate, hreads, hreading, Bool.false_eq_true, if_false] at h
        exact nomatch h
      | some reading =>
        have hnow : delivery.read w.reads = some reading := by rw [hreads, hreading]
        cases hsearch : search (w.next reading).recv with
        | some reg =>
          rw [watch_of_found hlate hnow hsearch] at h
          rw [← Option.some.inj h]
          exact ⟨n, w, hcomes, .matched hlate hreading hsearch⟩
        | none =>
          rw [watch_of_none hlate hnow hsearch] at h
          exact ih (hcomes.succ hlate hreading hsearch) h

/-! ## When a watch does what is asked -/

/-- The first match is found if it is delivered in time. -/
theorem returns_found_of_firstMatch (h : FirstMatch search delivery n w reg)
    (htime : overdue timeOut w.elapsed = false) :
    Returns (fun fuel => watch search timeOut delivery fuel .start) (.found reg) := by
  obtain ⟨v, reading, hv, hreading, rfl⟩ := after_succ_eq_some_iff.mp h.delivered
  have hbefore : overdue timeOut v.elapsed = false := overdue_mono htime le_self_add
  exact (comesTo_of_inTime hv hbefore h.first).returns_found hbefore hreading h.found

/-- An audible log with a timeout: the loop is overdue at some round, unless a match is in time. -/
theorem returns_emptyString_of_audible (h : Audible search timeOut delivery)
    (hlimited : Limited timeOut)
    (hlate : ∀ n w reg, FirstMatch search delivery n w reg → overdue timeOut w.elapsed = true) :
    Returns (fun fuel => watch search timeOut delivery fuel .start) .emptyString := by
  by_contra hnever
  have hround : ∀ n, ∃ w, ComesTo search timeOut delivery n w ∧
      overdue timeOut w.elapsed = false := by
    intro n
    induction n with
    | zero =>
      refine ⟨.start, comesTo_zero, Bool.eq_false_iff.mpr fun hoverdue => ?_⟩
      exact hnever (comesTo_zero.returns_emptyString hoverdue)
    | succ n ih =>
      obtain ⟨w, hw, htime⟩ := ih
      obtain ⟨reading, hreading, hquiet⟩ :=
        h.limited hlimited n w hw.at_round htime hw.unmatched
      have hnone : search (w.next reading).recv = none := by
        rw [Option.eq_none_iff_forall_ne_some]
        intro reg hreg
        have hoverdue := hlate n _ reg ⟨after_succ hw.at_round hreading, hreg, hw.unmatched⟩
        exact nomatch hreg.symm.trans (hquiet hoverdue)
      have hnext := hw.succ htime hreading hnone
      exact ⟨_, hnext, Bool.eq_false_iff.mpr fun hoverdue =>
        hnever (hnext.returns_emptyString hoverdue)⟩
  obtain ⟨t, rfl, hpos⟩ := hlimited
  obtain ⟨n, hn⟩ := Archimedean.arch (t + 1) delivery.least_pos
  obtain ⟨w, hw, htime⟩ := hround n
  have hbelow : t < w.elapsed := by
    refine lt_of_lt_of_le ?_ (least_mul_le hw.at_round)
    rw [← nsmul_eq_mul]
    exact lt_of_lt_of_le (lt_add_one t) hn
  rw [overdue, decide_eq_true hpos, decide_eq_true hbelow] at htime
  exact nomatch htime

/-- A watch that must give up at a round where it goes on does not do what is asked. -/
theorem audible_of_watches
    (h : Watches search timeOut delivery fun fuel => watch search timeOut delivery fuel .start) :
    Audible search timeOut delivery where
  limited := by
    intro hlimited n w hw htime hnone
    have hcomes := comesTo_of_inTime hw htime hnone
    -- the loop is not overdue up to this round, so a watch that gives up leaves it later
    have hlater : ∀ m v, ComesTo search timeOut delivery m v →
        overdue timeOut v.elapsed = true → n < m := by
      intro m v hm hoverdue
      by_contra hle
      obtain ⟨u, hu, hule⟩ := after_of_le hw (Nat.le_of_not_lt hle)
      rw [← Option.some.inj (hm.at_round.symm.trans hu)] at hule
      exact nomatch hoverdue.symm.trans (overdue_mono htime hule)
    cases hreading : delivery.read n with
    | none =>
      obtain ⟨fuel, hreturn⟩ := h.givesUp hlimited fun k u reg hfirst => by
        rcases Nat.lt_or_ge k n with hlt | hge
        · exact nomatch hfirst.found.symm.trans (hnone k hlt u hfirst.delivered)
        · obtain ⟨x, hx, -⟩ := after_of_le hfirst.delivered (Nat.succ_le_succ hge)
          obtain ⟨_, _, _, hread, -⟩ := after_succ_eq_some_iff.mp hx
          exact nomatch hreading.symm.trans hread
      obtain ⟨m, v, hm, hleaves⟩ := exists_leavesAt comesTo_zero hreturn
      cases hleaves with
      | late hoverdue =>
        obtain ⟨x, hx, -⟩ := after_of_le hm.at_round (hlater m v hm hoverdue)
        obtain ⟨_, _, _, hread, -⟩ := after_succ_eq_some_iff.mp hx
        exact nomatch hreading.symm.trans hread
    | some reading =>
      refine ⟨reading, rfl, fun hoverdue => ?_⟩
      by_contra hmatch
      have hnext := after_succ hw hreading
      obtain ⟨fuel, hreturn⟩ := h.givesUp hlimited fun k u reg hfirst => by
        rcases Nat.lt_trichotomy k n with hlt | rfl | hgt
        · exact nomatch hfirst.found.symm.trans (hnone k hlt u hfirst.delivered)
        · rw [← Option.some.inj (hnext.symm.trans hfirst.delivered)]
          exact hoverdue
        · exact absurd (hfirst.first n hgt _ hnext) hmatch
      obtain ⟨m, v, hm, hleaves⟩ := exists_leavesAt comesTo_zero hreturn
      cases hleaves with
      | late hleft => exact hmatch (hm.unmatched n (hlater m v hm hleft) _ hnext)
  unlimited := by
    intro hunlimited hends
    obtain ⟨value, fuel, hreturn⟩ := h.ends hunlimited hends
    obtain ⟨m, v, hm, hleaves⟩ := exists_leavesAt comesTo_zero hreturn
    cases hleaves with
    | late hoverdue => exact absurd (limited_of_overdue hoverdue) hunlimited
    | matched htime hreading hfound =>
      exact ⟨m, _, _, after_succ hm.at_round hreading, hfound, hm.unmatched⟩

/-- A watch does what is asked exactly if the log is audible. -/
theorem watches_iff :
    (Watches search timeOut delivery fun fuel => watch search timeOut delivery fuel .start) ↔
      Audible search timeOut delivery := by
  constructor
  · exact audible_of_watches
  · intro h
    refine ⟨fun n w reg => returns_found_of_firstMatch, fun hlimited hlate =>
      returns_emptyString_of_audible h hlimited hlate, fun hunlimited hends => ?_⟩
    obtain ⟨n, w, reg, hfirst⟩ := h.unlimited hunlimited hends
    exact ⟨.found reg, returns_found_of_firstMatch hfirst
      (Bool.eq_false_iff.mpr fun hoverdue => hunlimited (limited_of_overdue hoverdue))⟩

end

/-! ## Chunks and lines of one output -/

/-- Two deliveries of one output: what the one has delivered goes on as what the other has. -/
def SameOutput (first second : Delivery) : Prop :=
  ∀ n w m v, first.after n = some w → second.after m = some v →
    w.recv <+: v.recv ∨ v.recv <+: w.recv

/-- A match stays what it is when more is read. -/
def Stable {Match : Type} (search : Text → Option Match) : Prop :=
  ∀ text more reg, search text = some reg → search (text ++ more) = some reg

/-- What is returned as a match is the match in a prefix that was delivered. -/
theorem exists_delivered_of_found {Match : Type} {search : Text → Option Match}
    {timeOut : Option ℚ≥0} {delivery : Delivery} {reg : Match}
    (h : Returns (fun fuel => watch search timeOut delivery fuel .start) (.found reg)) :
    ∃ n w, delivery.after n = some w ∧ search w.recv = some reg := by
  obtain ⟨fuel, hreturn⟩ := h
  obtain ⟨m, v, hm, hleaves⟩ := exists_leavesAt comesTo_zero hreturn
  cases hleaves with
  | matched htime hreading hfound =>
    exact ⟨m + 1, _, after_succ hm.at_round hreading, hfound⟩

/-- The two functions return one match for one output, however it is delivered and whenever they
give up, if a match stays what it is when more is read. -/
theorem same_match_of_sameOutput {Match : Type} {search : Text → Option Match}
    {remoteTimeOut localTimeOut : Option ℚ≥0} {channel : Channel} {pipe : Pipe} {reg other : Match}
    (hstable : Stable search) (hsame : SameOutput channel.toDelivery pipe.toDelivery)
    (hremote : Returns (watchForRemoteChanges search remoteTimeOut channel) (.found reg))
    (hlocal : Returns (watchForLocalChanges search localTimeOut pipe) (.found other)) :
    reg = other := by
  obtain ⟨n, w, hw, hreg⟩ := exists_delivered_of_found hremote
  obtain ⟨m, v, hv, hother⟩ := exists_delivered_of_found hlocal
  rcases hsame n w m v hw hv with ⟨more, hmore⟩ | ⟨more, hmore⟩
  · have hlater := hstable w.recv more reg hreg
    rw [hmore, hother] at hlater
    exact (Option.some.inj hlater).symm
  · have hlater := hstable v.recv more other hother
    rw [hmore, hreg] at hlater
    exact Option.some.inj hlater

/-- The read of an output that has ended. -/
def nothing : Reading where
  text := []
  duration := 1

theorem one_le_nothing (i : Nat) (reading : Reading)
    (h : (fun _ : Nat => some nothing) i = some reading) : 1 ≤ reading.duration := by
  rw [← Option.some.inj h]
  exact le_rfl

/-- An output that has ended before it is read. -/
def endedDelivery : Delivery where
  read := fun _ => some nothing
  least := 1
  least_pos := one_second_pos
  least_le := one_le_nothing

theorem length_nothing_le (i : Nat) (reading : Reading)
    (h : endedDelivery.read i = some reading) : reading.text.length ≤ 1024 := by
  rw [← Option.some.inj h]
  exact Nat.zero_le _

theorem newline_notMem_nothing (i : Nat) (reading : Reading)
    (h : endedDelivery.read i = some reading) : '\n' ∉ reading.text.dropLast := by
  rw [← Option.some.inj h]
  exact nofun

/-- A channel of that output. -/
def endedChannel : Channel where
  toDelivery := endedDelivery
  chunks := length_nothing_le

/-- A pipe of that output. -/
def endedPipe : Pipe where
  toDelivery := endedDelivery
  lines := newline_notMem_nothing

/-- A log that nothing is written to. -/
def quietDelivery : Delivery where
  read := fun _ => none
  least := 1
  least_pos := one_second_pos
  least_le := nofun

end OvirtArt.Utils.LogWatching
