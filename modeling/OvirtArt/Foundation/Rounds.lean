import Mathlib.Data.List.Basic
import Mathlib.Data.List.Count

set_option autoImplicit false

/-!
# Logs that are made of rounds

Each round of a loop leaves one tick in the log, and some rounds leave a mark after it.  When the
log has the mark exactly once, and after how many ticks.

The log is cut at its ticks.  Where the rounds cannot be told from the log, because a mark stands
elsewhere, nothing is said.
-/

namespace OvirtArt.Foundation

variable {κ : Type} [DecidableEq κ]

/-- The mark stands in the log once, and after so many ticks. -/
def OnceAfter (mark tick : κ) (log : List κ) (n : Nat) : Prop :=
  ∃ before after, log = before ++ mark :: after ∧ mark ∉ before ∧ mark ∉ after ∧
    before.count tick = n

/-- A round has one tick, and if it is marked, one mark after that. -/
structure IsRound (mark tick : κ) (marked : Prop) (round : List κ) : Prop where
  ticks : round.count tick = 1
  marks : marked → OnceAfter mark tick round 1
  bare : ¬ marked → mark ∉ round

/-- The rounds, of which those with these numbers are marked. -/
def AreRounds (mark tick : κ) (marked : Nat → Prop) (rounds : List (List κ)) : Prop :=
  ∀ i round, rounds[i]? = some round → IsRound mark tick (marked i) round

section

variable {mark tick : κ} {marked : Nat → Prop} {rounds : List (List κ)} {round log rest : List κ}
  {m n : Nat}

theorem OnceAfter.mem (h : OnceAfter mark tick log n) : mark ∈ log := by
  obtain ⟨before, after, rfl, -⟩ := h
  exact List.mem_append_right _ List.mem_cons_self

/-- A log has its first mark in one place. -/
theorem OnceAfter.unique (hm : OnceAfter mark tick log m) (hn : OnceAfter mark tick log n) :
    m = n := by
  obtain ⟨before, after, rfl, hbefore, hafter, rfl⟩ := hm
  obtain ⟨before', after', heq, hbefore', hafter', rfl⟩ := hn
  rw [((List.append_cons_inj_of_notMem hbefore hafter).mp heq).1]

theorem OnceAfter.append_right (h : OnceAfter mark tick log n) (hrest : mark ∉ rest) :
    OnceAfter mark tick (log ++ rest) n := by
  obtain ⟨before, after, rfl, hbefore, hafter, hcount⟩ := h
  refine ⟨before, after ++ rest, by rw [List.append_assoc, List.cons_append], hbefore, ?_, hcount⟩
  exact fun hmem => (List.mem_append.mp hmem).elim hafter hrest

theorem OnceAfter.append_left (h : OnceAfter mark tick log n) (hround : mark ∉ round) :
    OnceAfter mark tick (round ++ log) (round.count tick + n) := by
  obtain ⟨before, after, rfl, hbefore, hafter, rfl⟩ := h
  refine ⟨round ++ before, after, by rw [List.append_assoc], ?_, hafter, List.count_append⟩
  exact fun hmem => (List.mem_append.mp hmem).elim hround hbefore

/-- The mark is in one of two parts. -/
theorem OnceAfter.of_append (h : OnceAfter mark tick (log ++ rest) n) :
    OnceAfter mark tick log n ∧ mark ∉ rest ∨
      mark ∉ log ∧ ∃ m, n = log.count tick + m ∧ OnceAfter mark tick rest m := by
  obtain ⟨before, after, heq, hbefore, hafter, rfl⟩ := h
  rcases List.append_eq_append_iff.mp heq with ⟨more, rfl, rfl⟩ | ⟨more, rfl, hmore⟩
  · rw [List.mem_append, not_or] at hbefore
    refine .inr ⟨hbefore.1, more.count tick, List.count_append, ?_⟩
    exact ⟨more, after, rfl, hbefore.2, hafter, rfl⟩
  · cases more with
    | nil =>
      rw [List.append_nil]
      exact .inr ⟨hbefore, 0, rfl, [], after, hmore.symm, List.not_mem_nil, hafter, rfl⟩
    | cons c more =>
      rw [List.cons_append] at hmore
      obtain ⟨rfl, rfl⟩ := List.cons.inj hmore
      rw [List.mem_append, not_or] at hafter
      exact .inl ⟨⟨before, more, rfl, hbefore, hafter.1, rfl⟩, hafter.2⟩

theorem IsRound.congr {p q : Prop} (h : IsRound mark tick p round) (hiff : p ↔ q) :
    IsRound mark tick q round :=
  ⟨h.ticks, fun hq => h.marks (hiff.mpr hq), fun hq => h.bare fun hp => hq (hiff.mp hp)⟩

/-- A round of a beginning with the tick, of what is left under a condition, and of an end. -/
theorem isRound_of_parts {base extra more : List κ} {p : Prop} [Decidable p]
    (hbase : base.count tick = 1 ∧ mark ∉ base) (hextra : OnceAfter mark tick extra 0)
    (hticks : tick ∉ extra) (hmore : tick ∉ more ∧ mark ∉ more) :
    IsRound mark tick p (base ++ (if p then extra else []) ++ more) where
  ticks := by
    rw [List.count_append, List.count_append, hbase.1, List.count_eq_zero_of_not_mem hmore.1]
    split
    · rw [List.count_eq_zero_of_not_mem hticks]
    · rfl
  marks := by
    intro hp
    rw [if_pos hp]
    have hmarked := (hextra.append_left hbase.2).append_right hmore.2
    rwa [hbase.1] at hmarked
  bare := by
    intro hp hmem
    rw [if_neg hp, List.append_nil] at hmem
    exact (List.mem_append.mp hmem).elim hbase.2 hmore.2

theorem isRound_of_base {base extra : List κ} {p : Prop} [Decidable p]
    (hbase : base.count tick = 1 ∧ mark ∉ base) (hextra : OnceAfter mark tick extra 0)
    (hticks : tick ∉ extra) : IsRound mark tick p (base ++ (if p then extra else [])) := by
  rw [← List.append_nil (base ++ _)]
  exact isRound_of_parts hbase hextra hticks ⟨List.not_mem_nil, List.not_mem_nil⟩

theorem areRounds_cons : AreRounds mark tick marked (round :: rounds) ↔
    IsRound mark tick (marked 0) round ∧
      AreRounds mark tick (fun i => marked (i + 1)) rounds := by
  constructor
  · intro h
    exact ⟨h 0 round rfl, fun i next hnext => h (i + 1) next hnext⟩
  · rintro ⟨hfirst, hrest⟩ i next hnext
    cases i with
    | zero =>
      obtain rfl : round = next := Option.some.inj hnext
      exact hfirst
    | succ i => exact hrest i next hnext

/-- The rounds have the mark if one of them is marked. -/
theorem AreRounds.mem_flatten_iff (h : AreRounds mark tick marked rounds) :
    mark ∈ rounds.flatten ↔ ∃ i < rounds.length, marked i := by
  rw [List.mem_flatten]
  constructor
  · rintro ⟨round, hround, hmark⟩
    obtain ⟨i, hi⟩ := List.mem_iff_getElem?.mp hround
    refine ⟨i, (List.getElem?_eq_some_iff.mp hi).1, ?_⟩
    by_contra hnot
    exact (h i round hi).bare hnot hmark
  · rintro ⟨i, hi, hmarked⟩
    have hround := h i _ (List.getElem?_eq_getElem hi)
    exact ⟨_, List.getElem_mem hi, (hround.marks hmarked).mem⟩

/-- The mark stands once, after the tick of a round, if this is the only marked one. -/
theorem AreRounds.onceAfter_flatten_iff (h : AreRounds mark tick marked rounds) :
    OnceAfter mark tick rounds.flatten n ↔
      ∃ i < rounds.length, marked i ∧ n = i + 1 ∧ ∀ j < rounds.length, marked j → j = i := by
  induction rounds generalizing marked n with
  | nil =>
    refine iff_of_false (fun hmem => List.not_mem_nil hmem.mem) ?_
    rintro ⟨i, hi, -⟩
    exact nomatch hi
  | cons round rounds ih =>
    obtain ⟨hfirst, hrest⟩ := areRounds_cons.mp h
    constructor
    · intro hlog
      rcases hlog.of_append with ⟨hround, hnot⟩ | ⟨hnot, m, rfl, hflatten⟩
      · have hmarked : marked 0 := by
          by_contra hbare
          exact hfirst.bare hbare hround.mem
        refine ⟨0, Nat.succ_pos _, hmarked, hround.unique (hfirst.marks hmarked), ?_⟩
        intro j hj hj'
        cases j with
        | zero => rfl
        | succ j =>
          exact absurd (hrest.mem_flatten_iff.mpr ⟨j, Nat.lt_of_succ_lt_succ hj, hj'⟩) hnot
      · obtain ⟨i, hi, hmarked, rfl, honly⟩ := (ih hrest).mp hflatten
        refine ⟨i + 1, Nat.succ_lt_succ hi, hmarked, by rw [hfirst.ticks, Nat.add_comm], ?_⟩
        intro j hj hj'
        cases j with
        | zero => exact absurd (hfirst.marks hj').mem hnot
        | succ j => rw [honly j (Nat.lt_of_succ_lt_succ hj) hj']
    · rintro ⟨i, hi, hmarked, rfl, honly⟩
      cases i with
      | zero =>
        refine (hfirst.marks hmarked).append_right fun hmem => ?_
        obtain ⟨j, hj, hj'⟩ := hrest.mem_flatten_iff.mp hmem
        exact absurd (honly (j + 1) (Nat.succ_lt_succ hj) hj') (Nat.succ_ne_zero j)
      | succ i =>
        have hbare : ¬ marked 0 := fun hzero =>
          absurd (honly 0 (Nat.succ_pos _) hzero) (Nat.succ_ne_zero i).symm
        have hflatten : OnceAfter mark tick rounds.flatten (i + 1) := by
          refine (ih hrest).mpr ⟨i, Nat.lt_of_succ_lt_succ hi, hmarked, rfl, ?_⟩
          intro j hj hj'
          exact Nat.succ.inj (honly (j + 1) (Nat.succ_lt_succ hj) hj')
        have hlog := hflatten.append_left (hfirst.bare hbare)
        rwa [hfirst.ticks, Nat.add_comm] at hlog

end

/-! ## The first round that reaches something -/

section

variable {mark tick : κ} {marked reached : Nat → Prop} {rounds : List (List κ)}
  {front back : List κ}

/-- The first number with the property. -/
def IsFirst (reached : Nat → Prop) (n : Nat) : Prop := reached n ∧ ∀ m < n, ¬ reached m

/-- The marked rounds are among those that reach it, and each round that reaches it before a marked
one is marked.  The mark stands exactly once, in the first round that reaches it, if exactly one
round is marked. -/
theorem exists_first_onceAfter_iff (h : AreRounds mark tick marked rounds)
    (hfront : mark ∉ front ∧ tick ∉ front) (hback : mark ∉ back)
    (hmarked : ∀ n, marked n → reached n)
    (hdown : ∀ m n, m ≤ n → reached m → marked n → marked m) :
    (∃ n, IsFirst reached n ∧ OnceAfter mark tick (front ++ rounds.flatten ++ back) (n + 1)) ↔
      ∃! n, n < rounds.length ∧ marked n := by
  have hlog : ∀ n, OnceAfter mark tick (front ++ rounds.flatten ++ back) n ↔
      OnceAfter mark tick rounds.flatten n := by
    intro n
    constructor
    · intro hall
      rcases hall.of_append with ⟨hbegin, -⟩ | ⟨-, m, -, hend⟩
      · rcases hbegin.of_append with ⟨hwrong, -⟩ | ⟨-, m, rfl, hflatten⟩
        · exact absurd hwrong.mem hfront.1
        · rwa [List.count_eq_zero_of_not_mem hfront.2, Nat.zero_add]
      · exact absurd hend.mem hback
    · intro hflatten
      have hbegin := (hflatten.append_left hfront.1).append_right hback
      rwa [List.count_eq_zero_of_not_mem hfront.2, Nat.zero_add] at hbegin
  constructor
  · rintro ⟨n, -, honce⟩
    obtain ⟨i, hi, hi', -, honly⟩ := h.onceAfter_flatten_iff.mp ((hlog _).mp honce)
    exact ⟨i, ⟨hi, hi'⟩, fun j hj => honly j hj.1 hj.2⟩
  · rintro ⟨n, ⟨hn, hn'⟩, honly⟩
    refine ⟨n, ⟨hmarked n hn', fun m hm hreached => ?_⟩, (hlog _).mpr ?_⟩
    · have hm' : marked m := hdown m n (Nat.le_of_lt hm) hreached hn'
      exact absurd (honly m ⟨Nat.lt_trans hm hn, hm'⟩) (Nat.ne_of_lt hm)
    · exact h.onceAfter_flatten_iff.mpr ⟨n, hn, hn', rfl, fun j hj hj' => honly j ⟨hj, hj'⟩⟩

end

end OvirtArt.Foundation
