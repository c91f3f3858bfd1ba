import OvirtArt.Foundation.LineBuffer
import OvirtArt.Utils.Mac2Ip

set_option autoImplicit false

/-!
# `rhevm_api/utils/mac2ip.py`: the lines of `tcpdump` over SSH

`SSHProducer` collects the output of `tcpdump` in pieces, as the channel has them, and hands
the complete lines to the parser.  The parser gets the same lines for every way of cutting the
output.

A round is what the channel has ready at one time, on either stream.  The session and its timeout
are left out.
-/

namespace OvirtArt.Utils.Mac2Ip

open OvirtArt.Foundation

/-! ## Line boundaries -/

/-- `str.splitlines(True)`: a byte string is cut behind `\r\n`, `\n` and `\r`. -/
def splitlines : Text → List Text
  | [] => []
  | '\r' :: '\n' :: text => ['\r', '\n'] :: splitlines text
  | c :: text =>
    if c = '\n' ∨ c = '\r' then [c] :: splitlines text
    else
      match splitlines text with
      | [] => [[c]]
      | line :: lines => (c :: line) :: lines

/-- `line.endswith('\n')`. -/
def endsLine (line : Text) : Bool := line.getLast? = some '\n'

/-! ## `SSHProducer` -/

/-- `SSHProducer`, with its parser; the lines that have been handed to the parser are a
ghost. -/
structure SSHProducer where
  p : TCPDumpParser
  out : Text
  ready : Bool
  handed : List Text

/-- What one round of `collecting` finds: `select` times out, or there may be new data, and
new output on the error stream. -/
inductive Round where
  | timeout
  | ready (data : Option Text) (stderr : Bool)

namespace SSHProducer

/-- `SSHProducer(parser, host)`. -/
def new (parser : TCPDumpParser) : SSHProducer := ⟨parser, [], false, []⟩

/-- `self.p.parse_line(line)` for each of these lines. -/
def parseLines (producer : SSHProducer) (lines : List Text) : SSHProducer :=
  { producer with p := producer.p.parseLines lines, handed := producer.handed ++ lines }

/-- `SSHProducer.parse`. -/
def parse (producer : SSHProducer) : SSHProducer :=
  let data := splitlines producer.out
  match data.getLast? with
  | none => producer
  | some last =>
    if endsLine last then ({ producer with out := [] }).parseLines data
    else ({ producer with out := last }).parseLines data.dropLast

/-- One round of the loop in `collecting`. -/
def round (producer : SSHProducer) : Round → SSHProducer
  | .timeout => producer
  | .ready data stderr =>
    let received :=
      match data with
      | none => producer
      | some data => { producer with out := producer.out ++ data, ready := true }
    let informed := if stderr then { received with ready := true } else received
    informed.parse

/-- The loop in `collecting`. -/
def collecting (producer : SSHProducer) (rounds : List Round) : SSHProducer :=
  rounds.foldl round producer

end SSHProducer

/-- The data of a round. -/
def Round.data : Round → Text
  | .timeout => []
  | .ready data _ => data.getD []

/-- What has been received in these rounds. -/
def stream (rounds : List Round) : Text := rounds.flatMap Round.data

/-! ## Streams whose lines end with `\n` or `\r\n` -/

/-- Behind a `\r` there is a `\n`, if there is anything yet. -/
def NewlineTerminated (text : Text) : Prop :=
  ∀ before after, text = before ++ '\r' :: after → after = [] ∨ ∃ rest, after = '\n' :: rest

theorem NewlineTerminated.of_append_left {first second : Text}
    (h : NewlineTerminated (first ++ second)) : NewlineTerminated first := by
  intro before after hfirst
  have hafter := h before (after ++ second) (by rw [hfirst, List.append_assoc]; rfl)
  cases after with
  | nil => exact Or.inl rfl
  | cons c rest =>
    rcases hafter with hnil | ⟨other, hother⟩
    · cases hnil
    · rw [List.cons_append, List.cons.injEq] at hother
      exact Or.inr ⟨rest, by rw [hother.1]⟩

theorem NewlineTerminated.of_append_right {first second : Text}
    (h : NewlineTerminated (first ++ second)) : NewlineTerminated second := by
  intro before after hsecond
  exact h (first ++ before) after (by rw [hsecond, List.append_assoc])

theorem NewlineTerminated.tail {c : Char} {text : Text} (h : NewlineTerminated (c :: text)) :
    NewlineTerminated text := @of_append_right [c] text h

/-- The rest of a text, as a line that is not complete, if there is one. -/
def pending (rest : Text) : List Text := if rest = [] then [] else [rest]

/-- In such a text `splitlines` finds the lines, and the rest. -/
theorem splitlines_eq {text : Text} (h : NewlineTerminated text) :
    splitlines text = linesOf '\n' text ++ pending (restOf '\n' text) := by
  fun_induction splitlines text with
  | case1 => rfl
  | case2 text ih =>
    have hcr : '\r' ≠ '\n' := by decide
    have hsome := @linesOf_terminator Char _ '\n' text
    rw [linesOf_cons_of_some hcr hsome, restOf_cons_of_some hcr hsome, restOf_terminator,
      ih h.tail.tail]
    rfl
  | case3 c text hpair hbreak ih =>
    rcases hbreak with rfl | rfl
    · rw [linesOf_terminator, restOf_terminator, ih h.tail]
      rfl
    · -- a `\r` that is not followed by a `\n` is the last character
      rcases h [] text rfl with rfl | ⟨rest, rfl⟩
      · rfl
      · exact absurd rfl (hpair rest rfl)
  | case4 c text hpair hbreak hnone ih =>
    have hc : c ≠ '\n' := fun heq => hbreak (Or.inl heq)
    rw [ih h.tail] at hnone
    obtain ⟨hlines, hpending⟩ := List.append_eq_nil_iff.mp hnone
    have hrest : restOf '\n' text = [] := by
      by_contra hne
      rw [pending, if_neg hne] at hpending
      cases hpending
    rw [linesOf_cons_of_none hc hlines, restOf_cons_of_none hc hlines, hrest]
    rfl
  | case5 c text hpair hbreak line lines hsome ih =>
    have hc : c ≠ '\n' := fun heq => hbreak (Or.inl heq)
    rw [ih h.tail] at hsome
    cases hlines : linesOf '\n' text with
    | nil =>
      rw [hlines, List.nil_append] at hsome
      rw [linesOf_cons_of_none hc hlines, restOf_cons_of_none hc hlines]
      unfold pending at hsome ⊢
      split at hsome
      · cases hsome
      · obtain ⟨rfl, rfl⟩ := List.cons.inj hsome
        rfl
    | cons first others =>
      rw [hlines, List.cons_append] at hsome
      obtain ⟨rfl, rfl⟩ := List.cons.inj hsome
      rw [linesOf_cons_of_some hc hlines, restOf_cons_of_some hc hlines]
      rfl

/-! ## What is handed to the parser -/

namespace SSHProducer

/-- Handing over no lines changes nothing. -/
theorem parseLines_nil (producer : SSHProducer) : producer.parseLines [] = producer := by
  unfold parseLines
  rw [List.append_nil]
  rfl

theorem endsLine_restOf (text : Text) : endsLine (restOf '\n' text) = false := by
  unfold endsLine
  rw [decide_eq_false_iff_not]
  intro hlast
  exact not_mem_restOf text (List.mem_of_getLast? hlast)

/-- `parse` hands over the complete lines and keeps the rest. -/
theorem parse_eq (producer : SSHProducer) (h : NewlineTerminated producer.out) :
    producer.parse =
      ({ producer with out := restOf '\n' producer.out }).parseLines
        (linesOf '\n' producer.out) := by
  have hwhole := @flatten_linesOf_append_restOf Char _ '\n' producer.out
  unfold parse
  rw [splitlines_eq h]
  by_cases hrest : restOf '\n' producer.out = []
  · rw [pending, if_pos hrest, List.append_nil, hrest]
    cases hlast : (linesOf '\n' producer.out).getLast? with
    | none =>
      have hlines : linesOf '\n' producer.out = [] := List.getLast?_eq_none_iff.mp hlast
      rw [hlines, hrest] at hwhole
      have hout : producer.out = [] := hwhole.symm
      rw [hlines, parseLines_nil, ← hout]
      rfl
    | some last =>
      have hends : endsLine last = true := by
        unfold endsLine
        rw [decide_eq_true_iff]
        exact getLast?_of_mem_linesOf (List.mem_of_getLast? hlast)
      simp only [hlast, hends, if_true]
  · rw [pending, if_neg hrest]
    simp only [List.getLast?_concat, endsLine_restOf, Bool.false_eq_true, if_false,
      List.dropLast_concat]

/-- From a producer that has kept a rest only, these lines have been handed over, and this is
kept. -/
structure Follows (producer next : SSHProducer) (received : Text) : Prop where
  out : next.out = restOf '\n' (producer.out ++ received)
  handed : next.handed = producer.handed ++ linesOf '\n' (producer.out ++ received)
  p : next.p = producer.p.parseLines (linesOf '\n' (producer.out ++ received))

/-- A producer that has kept a rest only. -/
def Keeps (producer : SSHProducer) : Prop := linesOf '\n' producer.out = []

variable {producer : SSHProducer}

theorem Keeps.restOf_out (hkeeps : producer.Keeps) : restOf '\n' producer.out = producer.out := by
  have hwhole := @flatten_linesOf_append_restOf Char _ '\n' producer.out
  have hlines : linesOf '\n' producer.out = [] := hkeeps
  rw [hlines] at hwhole
  exact hwhole

theorem follows_nil (hkeeps : producer.Keeps) : producer.Follows producer [] := by
  have hlines : linesOf '\n' producer.out = [] := hkeeps
  refine ⟨?_, ?_, ?_⟩
  · rw [List.append_nil, hkeeps.restOf_out]
  · rw [List.append_nil, hlines, List.append_nil]
  · rw [List.append_nil, hlines]
    rfl

/-- A round takes in its data and hands over the lines that are complete then. -/
theorem follows_round {r : Round} (hkeeps : producer.Keeps)
    (h : NewlineTerminated (producer.out ++ r.data)) :
    producer.Follows (producer.round r) r.data := by
  cases r with
  | timeout => exact follows_nil hkeeps
  | ready data stderr =>
    have hparse : ∀ informed : SSHProducer,
        informed.out = producer.out ++ (Round.ready data stderr).data →
          informed.handed = producer.handed → informed.p = producer.p →
            producer.Follows informed.parse (Round.ready data stderr).data := by
      intro informed hout hhanded hp
      rw [← hout] at h
      rw [parse_eq informed h]
      refine ⟨congrArg (restOf '\n') hout, ?_, ?_⟩
      · rw [← hout, ← hhanded]
        rfl
      · rw [← hout, ← hp]
        rfl
    cases data with
    | none => cases stderr <;> exact hparse _ (List.append_nil _).symm rfl rfl
    | some data => cases stderr <;> exact hparse _ rfl rfl rfl

theorem Follows.keeps {next : SSHProducer} {received : Text}
    (hfollows : producer.Follows next received) : next.Keeps := by
  have hnone : '\n' ∉ next.out := by
    rw [hfollows.out]
    exact not_mem_restOf _
  exact linesOf_of_not_mem hnone

theorem Follows.trans {next last : SSHProducer} {first second : Text}
    (hfirst : producer.Follows next first) (hsecond : next.Follows last second) :
    producer.Follows last (first ++ second) := by
  obtain ⟨hout, hhanded, hp⟩ := hfirst
  obtain ⟨hout', hhanded', hp'⟩ := hsecond
  refine ⟨?_, ?_, ?_⟩
  · rw [hout', hout, ← restOf_append, List.append_assoc]
  · rw [hhanded', hhanded, hout, List.append_assoc, ← linesOf_append, List.append_assoc]
  · rw [hp', hp, hout, ← List.append_assoc, linesOf_append (producer.out ++ first) second]
    exact (List.foldl_append ..).symm

/-- All rounds together take in the stream. -/
theorem follows_collecting {rounds : List Round} {producer : SSHProducer}
    (hkeeps : producer.Keeps) (h : NewlineTerminated (producer.out ++ stream rounds)) :
    producer.Follows (producer.collecting rounds) (stream rounds) := by
  induction rounds generalizing producer with
  | nil => exact follows_nil hkeeps
  | cons r rest ih =>
    have hstream : stream (r :: rest) = r.data ++ stream rest := rfl
    rw [hstream, ← List.append_assoc] at h
    have hround := follows_round hkeeps h.of_append_left
    rw [hstream]
    apply hround.trans
    apply ih hround.keeps
    rw [hround.out]
    have hwhole := @flatten_linesOf_append_restOf Char _ '\n' (producer.out ++ r.data)
    rw [← hwhole, List.append_assoc] at h
    exact h.of_append_right

end SSHProducer

/-- Whatever way the stream is cut, exactly its lines are handed to the parser, in their order
and with their terminators, and what follows the last one is kept. -/
theorem collecting_hands_lines (parser : TCPDumpParser) (rounds : List Round)
    (hterminated : NewlineTerminated (stream rounds)) :
    ((SSHProducer.new parser).collecting rounds).handed = linesOf '\n' (stream rounds) ∧
      ((SSHProducer.new parser).collecting rounds).out = restOf '\n' (stream rounds) ∧
      ((SSHProducer.new parser).collecting rounds).p =
        parser.parseLines (linesOf '\n' (stream rounds)) := by
  have hfollows := @SSHProducer.follows_collecting rounds (SSHProducer.new parser) rfl hterminated
  exact ⟨hfollows.handed, hfollows.out, hfollows.p⟩

/-- A stream that is cut between `\r` and `\n`, with a round without data. -/
def cutRounds : List Round :=
  [.ready (some ['a', '\r']) false, .ready none true, .timeout, .ready (some ['\n', 'b']) false]

theorem collecting_hands_lines_cut :
    ((SSHProducer.new (.new fun _ => none)).collecting cutRounds).handed =
      [['a', '\r', '\n']] := by
  have hterminated : NewlineTerminated (stream cutRounds) := by
    intro before after h
    change ['a', '\r', '\n', 'b'] = before ++ '\r' :: after at h
    rcases before with _ | ⟨a, _ | ⟨b, _ | ⟨c, _ | ⟨d, before⟩⟩⟩⟩ <;> simp at h
    exact Or.inr ⟨['b'], h.2.symm⟩
  exact (collecting_hands_lines (.new fun _ => none) cutRounds hterminated).1

end OvirtArt.Utils.Mac2Ip
