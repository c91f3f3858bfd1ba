import OvirtArt.CoreApi.TimeoutingSampler

set_option autoImplicit false

/-!
# Loops over a new sampler

A `for` loop over a `TimeoutingSampler` that has not been iterated over before.  Its body goes on
in a new state, or leaves the loop with a value; where it goes on with every sample that is handed
out, the sampler raises.

Nothing is said about a sampler that has been used before: no caller loops over one twice.  The
loops of the waiters are instances of these rules.
-/

namespace OvirtArt.CoreApi

variable {σ R β : Type}

/-- What the body of a loop comes to. -/
inductive BodyFlow (σ β : Type) where
  | goesOn (state : σ)
  | leaves (value : β)

/-- The value with which the loop is left. -/
def BodyFlow.value? : BodyFlow σ β → Option β
  | .goesOn _ => none
  | .leaves value => some value

/-- The loop over these samples. -/
def runBody (body : σ → R → BodyFlow σ β) : σ → List R → BodyFlow σ β
  | state, [] => .goesOn state
  | state, sample :: rest =>
    match body state sample with
    | .goesOn next => runBody body next rest
    | .leaves value => .leaves value

/-- A body that keeps no state. -/
def stateless (verdict : R → Option β) (_ : Unit) (sample : R) : BodyFlow Unit β :=
  match verdict sample with
  | none => .goesOn ⟨⟩
  | some value => .leaves value

section

variable {body : σ → R → BodyFlow σ β} {state : σ} {value : β} {samples more : List R}

theorem value?_eq_some_iff {flow : BodyFlow σ β} :
    flow.value? = some value ↔ flow = .leaves value := by
  cases flow with
  | goesOn next => exact iff_of_false nofun nofun
  | leaves other => exact Option.some_inj.trans ⟨congrArg BodyFlow.leaves, BodyFlow.leaves.inj⟩

/-- A loop that has been left does not see what comes later. -/
theorem runBody_append_of_leaves (h : runBody body state samples = .leaves value)
    (more : List R) : runBody body state (samples ++ more) = .leaves value := by
  induction samples generalizing state with
  | nil => exact nomatch h
  | cons sample rest ih =>
    rw [List.cons_append, runBody]
    rw [runBody] at h
    cases hbody : body state sample with
    | goesOn next =>
      simp only [hbody] at h
      exact ih h
    | leaves other =>
      simp only [hbody] at h
      exact h

/-- A loop without a state is left at the first sample that has a verdict. -/
theorem value?_runBody_stateless (verdict : R → Option β) (samples : List R) :
    (runBody (stateless verdict) ⟨⟩ samples).value? = samples.findSome? verdict := by
  induction samples with
  | nil => rfl
  | cons sample rest ih =>
    rw [runBody, List.findSome?_cons, stateless]
    cases verdict sample with
    | none => exact ih
    | some value => rfl

end

namespace TimeoutingSampler

section

variable (sampler : TimeoutingSampler R) (clock : ℚ≥0)

/-- What the call with this number returns. -/
def resultAt (i : Nat) : R := (sampler.func i).result

/-- The first results. -/
def firstResults (n : Nat) : List R := (List.range n).map sampler.resultAt

/-- The sampler comes to this sample before it raises, if the loop is not left. -/
def InTime (i : Nat) : Prop :=
  ∀ j < i, sampler.completion (created clock) j ≤ clock + sampler.timeout

/-- The `for` loop over the sampler, which begins at `clock`; without a value if the sampler
raises. -/
def forLoop (body : σ → R → BodyFlow σ β) (state : σ) : Option β :=
  let iteration := (sampler.iter (fun results => (runBody body state results).value?.isSome)
    (created clock)).1
  match iteration.ended with
  | .left => (runBody body state (iteration.samples.map Yielded.result)).value?
  | .raised => none

end

section

variable {sampler : TimeoutingSampler R} {clock : ℚ≥0} {body : σ → R → BodyFlow σ β} {state : σ}
  {value : β} {verdict : R → Option β}

theorem inTime_zero (sampler : TimeoutingSampler R) (clock : ℚ≥0) : sampler.InTime clock 0 :=
  fun _ hj => absurd hj (Nat.not_lt_zero _)

variable {n : Nat}

theorem InTime.mono {m : Nat} (h : sampler.InTime clock n) (hle : m ≤ n) :
    sampler.InTime clock m := fun j hj => h j (Nat.lt_of_lt_of_le hj hle)

/-- When samples complete depends on the sleep and the durations only. -/
theorem completion_congr {R' : Type} {other : TimeoutingSampler R'}
    (hsleep : sampler.sleep = other.sleep)
    (hduration : ∀ i, (sampler.func i).duration = (other.func i).duration) (progress : Progress)
    (i : Nat) : sampler.completion progress i = other.completion progress i := by
  induction i with
  | zero =>
    rw [completion, completion, hduration]
  | succ i ih =>
    rw [completion, completion, ih, hsleep, hduration]

theorem InTime.congr {R' : Type} {other : TimeoutingSampler R'}
    (htimeout : sampler.timeout = other.timeout) (hsleep : sampler.sleep = other.sleep)
    (hduration : ∀ i, (sampler.func i).duration = (other.func i).duration)
    (h : sampler.InTime clock n) : other.InTime clock n := by
  intro j hj
  rw [← completion_congr hsleep hduration, ← htimeout]
  exact h j hj

theorem resultsTo_created (i : Nat) :
    sampler.resultsTo (created clock) i = sampler.firstResults (i + 1) := by
  refine List.map_congr_left fun j _ => ?_
  change (sampler.func (0 + j)).result = (sampler.func j).result
  rw [Nat.zero_add]

theorem firstResults_succ (n : Nat) :
    sampler.firstResults (n + 1) = sampler.firstResults n ++ [sampler.resultAt n] := by
  rw [firstResults, List.range_succ, List.map_append, List.map_singleton, firstResults]

theorem mem_firstResults {result : R} :
    result ∈ sampler.firstResults n ↔ ∃ i < n, sampler.resultAt i = result := by
  simp only [firstResults, List.mem_map, List.mem_range]

theorem firstResults_prefix {m : Nat} (hle : m ≤ n) :
    sampler.firstResults m <+: sampler.firstResults n := by
  obtain ⟨k, rfl⟩ := Nat.exists_eq_add_of_le hle
  rw [firstResults, firstResults, List.range_add, List.map_append]
  exact List.prefix_append _ _

/-- A value that the loop is left with is the one after any more samples. -/
theorem value?_firstResults_mono {m : Nat} (hle : m ≤ n)
    (h : (runBody body state (sampler.firstResults m)).value? = some value) :
    (runBody body state (sampler.firstResults n)).value? = some value := by
  obtain ⟨more, hmore⟩ := sampler.firstResults_prefix hle
  rw [← hmore]
  exact value?_eq_some_iff.mpr (runBody_append_of_leaves (value?_eq_some_iff.mp h) more)

/-- The loop ends at a sample in time: either it is left there, or there is no later one. -/
theorem exists_last (sampler : TimeoutingSampler R) (clock : ℚ≥0) (body : σ → R → BodyFlow σ β)
    (state : σ) : ∃ n, sampler.InTime clock n ∧
      sampler.forLoop clock body state =
        (runBody body state (sampler.firstResults (n + 1))).value? ∧
      (sampler.forLoop clock body state = none → ∀ m, sampler.InTime clock m → m ≤ n) := by
  obtain ⟨n, hn⟩ := @exists_endsAt_iter R sampler
    (fun results => (runBody body state results).value?.isSome) (created clock)
  unfold forLoop
  generalize (sampler.iter _ (created clock)).1 = iteration at hn
  refine ⟨n, fun j hj => (hn.goes_on j hj).2, ?_⟩
  have hended := hn.ended
  cases hcase : iteration.ended with
  | left =>
    simp only [hcase, resultsTo_created] at hended ⊢
    rw [hn.results, resultsTo_created]
    refine ⟨rfl, fun hnone => ?_⟩
    rw [hnone] at hended
    exact nomatch hended
  | raised =>
    simp only [hcase, resultsTo_created] at hended ⊢
    refine ⟨(Option.not_isSome_iff_eq_none.mp (Bool.eq_false_iff.mp hended.1)).symm,
      fun _ m hm => ?_⟩
    by_contra hlt
    exact absurd (hm n (Nat.lt_of_not_le hlt)) (not_le.mpr hended.2)

/-- The loop is left with a value exactly if it is at some sample in time. -/
theorem forLoop_eq_some_iff : sampler.forLoop clock body state = some value ↔
    ∃ n, sampler.InTime clock n ∧
      (runBody body state (sampler.firstResults (n + 1))).value? = some value := by
  obtain ⟨last, htime, hloop, hlast⟩ := sampler.exists_last clock body state
  constructor
  · intro h
    exact ⟨last, htime, hloop.symm.trans h⟩
  · rintro ⟨n, hn, hvalue⟩
    rcases Nat.le_total n last with hle | hle
    · exact hloop.trans (value?_firstResults_mono (Nat.succ_le_succ hle) hvalue)
    · cases hcase : sampler.forLoop clock body state with
      | none =>
        obtain rfl := Nat.le_antisymm (hlast hcase n hn) hle
        exact (hcase.symm.trans hloop).trans hvalue
      | some other =>
        have hother := value?_firstResults_mono (Nat.succ_le_succ hle) (hloop.symm.trans hcase)
        exact hother.symm.trans hvalue

/-- The sampler raises exactly if the loop is not left at any sample in time. -/
theorem forLoop_eq_none_iff : sampler.forLoop clock body state = none ↔
    ∀ n, sampler.InTime clock n →
      (runBody body state (sampler.firstResults (n + 1))).value? = none := by
  constructor
  · intro h n hn
    by_contra hsome
    obtain ⟨value, hvalue⟩ := Option.ne_none_iff_exists'.mp hsome
    exact nomatch h.symm.trans (forLoop_eq_some_iff.mpr ⟨n, hn, hvalue⟩)
  · intro h
    obtain ⟨last, htime, hloop, -⟩ := sampler.exists_last clock body state
    exact hloop.trans (h last htime)

/-! ## Loops without a state -/

/-- The loop comes to this sample: it is in time, and none before has a verdict. -/
def Reached (sampler : TimeoutingSampler R) (clock : ℚ≥0) (verdict : R → Option β) (n : Nat) :
    Prop := sampler.InTime clock n ∧ ∀ i < n, verdict (sampler.resultAt i) = none

theorem findSome?_firstResults_succ (h : ∀ i < n, verdict (sampler.resultAt i) = none) :
    (sampler.firstResults (n + 1)).findSome? verdict = verdict (sampler.resultAt n) := by
  have hbefore : (sampler.firstResults n).findSome? verdict = none := by
    rw [List.findSome?_eq_none_iff]
    intro result hresult
    obtain ⟨i, hi, rfl⟩ := mem_firstResults.mp hresult
    exact h i hi
  rw [firstResults_succ, List.findSome?_append, hbefore, Option.none_or,
    List.findSome?_singleton]

/-- The first sample with a verdict among so many. -/
theorem exists_first_verdict (h : (sampler.firstResults n).findSome? verdict = some value) :
    ∃ i < n, (∀ j < i, verdict (sampler.resultAt j) = none) ∧
      verdict (sampler.resultAt i) = some value := by
  induction n with
  | zero => exact nomatch h
  | succ n ih =>
    rw [firstResults_succ, List.findSome?_append] at h
    cases hbefore : (sampler.firstResults n).findSome? verdict with
    | some other =>
      rw [hbefore] at h
      obtain ⟨i, hi, hfirst⟩ := ih (hbefore.trans h)
      exact ⟨i, Nat.lt_succ_of_lt hi, hfirst⟩
    | none =>
      rw [hbefore, List.findSome?_singleton] at h
      refine ⟨n, n.lt_succ_self, fun j hj => ?_, h⟩
      exact List.findSome?_eq_none_iff.mp hbefore _ (mem_firstResults.mpr ⟨j, hj, rfl⟩)

/-- A loop without a state is left with the verdict on the sample that it comes to. -/
theorem forLoop_stateless_eq_some_iff :
    sampler.forLoop clock (stateless verdict) ⟨⟩ = some value ↔
      ∃ n, sampler.Reached clock verdict n ∧ verdict (sampler.resultAt n) = some value := by
  rw [forLoop_eq_some_iff]
  simp only [value?_runBody_stateless]
  constructor
  · rintro ⟨n, htime, hvalue⟩
    obtain ⟨i, hi, hbefore, hfirst⟩ := exists_first_verdict hvalue
    exact ⟨i, ⟨htime.mono (Nat.le_of_lt_succ hi), hbefore⟩, hfirst⟩
  · rintro ⟨n, ⟨htime, hbefore⟩, hvalue⟩
    exact ⟨n, htime, (findSome?_firstResults_succ hbefore).trans hvalue⟩

theorem forLoop_stateless_eq_none_iff :
    sampler.forLoop clock (stateless verdict) ⟨⟩ = none ↔
      ∀ n, sampler.InTime clock n → verdict (sampler.resultAt n) = none := by
  rw [forLoop_eq_none_iff]
  simp only [value?_runBody_stateless, List.findSome?_eq_none_iff]
  constructor
  · intro h n htime
    exact h n htime _ (mem_firstResults.mpr ⟨n, n.lt_succ_self, rfl⟩)
  · intro h n htime result hresult
    obtain ⟨i, hi, rfl⟩ := mem_firstResults.mp hresult
    exact h i (htime.mono (Nat.le_of_lt_succ hi))

/-- The loop is left with this verdict exactly if some sample in time has it, and no other verdict
comes before. -/
theorem forLoop_stateless_eq_some_iff_exists :
    sampler.forLoop clock (stateless verdict) ⟨⟩ = some value ↔
      ∃ n, sampler.InTime clock n ∧ verdict (sampler.resultAt n) = some value ∧
        ∀ i < n, ∀ other, verdict (sampler.resultAt i) = some other → other = value := by
  constructor
  · intro h
    obtain ⟨n, hreached, hvalue⟩ := forLoop_stateless_eq_some_iff.mp h
    exact ⟨n, hreached.1, hvalue, fun i hi other hother =>
      nomatch (hreached.2 i hi).symm.trans hother⟩
  · rintro ⟨n, htime, hvalue, hbefore⟩
    cases hloop : sampler.forLoop clock (stateless verdict) ⟨⟩ with
    | none => exact nomatch hvalue.symm.trans (forLoop_stateless_eq_none_iff.mp hloop n htime)
    | some other =>
      obtain ⟨m, hreached, hother⟩ := forLoop_stateless_eq_some_iff.mp hloop
      rcases Nat.lt_trichotomy m n with hlt | rfl | hlt
      · rw [hbefore m hlt other hother]
      · exact hother.symm.trans hvalue
      · exact nomatch hvalue.symm.trans (hreached.2 n hlt)

/-- Where all verdicts are the same, the loop is left with it exactly if some sample in time has
one. -/
theorem forLoop_constant_eq_some_iff
    (hconstant : ∀ result other, verdict result = some other → other = value) :
    sampler.forLoop clock (stateless verdict) ⟨⟩ = some value ↔
      ∃ n, sampler.InTime clock n ∧ verdict (sampler.resultAt n) = some value := by
  rw [forLoop_stateless_eq_some_iff_exists]
  refine exists_congr fun n => and_congr_right fun _ => and_iff_left ?_
  exact fun i _ other hother => hconstant _ other hother

/-! ## Loops that end at the same sample -/

/-- The loop is left at this sample, with this value. -/
def LeftAt (sampler : TimeoutingSampler R) (clock : ℚ≥0) (verdict : R → Option β) (n : Nat)
    (value : β) : Prop :=
  sampler.Reached clock verdict n ∧ verdict (sampler.resultAt n) = some value

/-- Two verdicts agree on all samples that the loop with the first one comes to. -/
def AgreeOn (sampler : TimeoutingSampler R) (clock : ℚ≥0) (verdict other : R → Option β) : Prop :=
  ∀ n, sampler.Reached clock verdict n →
    other (sampler.resultAt n) = verdict (sampler.resultAt n)

theorem Reached.before {i : Nat} (h : sampler.Reached clock verdict n) (hi : i < n) :
    sampler.Reached clock verdict i :=
  ⟨h.1.mono hi.le, fun j hj => h.2 j (hj.trans hi)⟩

/-- Where the verdicts agree, the loops come to the same samples. -/
theorem AgreeOn.reached_iff {other : R → Option β}
    (h : sampler.AgreeOn clock verdict other) (n : Nat) :
    sampler.Reached clock other n ↔ sampler.Reached clock verdict n := by
  constructor
  · intro hother
    refine ⟨hother.1, fun i => ?_⟩
    induction i using Nat.strongRecOn with
    | ind i ih =>
      intro hi
      have hreached : sampler.Reached clock verdict i :=
        ⟨hother.1.mono hi.le, fun j hj => ih j hj (hj.trans hi)⟩
      rw [← h i hreached]
      exact hother.2 i hi
  · intro hreached
    refine ⟨hreached.1, fun i hi => ?_⟩
    rw [h i (hreached.before hi)]
    exact hreached.2 i hi

/-- Two loops over the same samples are left at the same sample with the same value, or neither is
left, exactly if their verdicts agree until then. -/
theorem leftAt_congr_iff {other : R → Option β} :
    (∀ n value, sampler.LeftAt clock other n value ↔ sampler.LeftAt clock verdict n value) ↔
      sampler.AgreeOn clock verdict other := by
  constructor
  · intro h n
    induction n using Nat.strongRecOn with
    | ind n ih =>
      intro hreached
      have hother : sampler.Reached clock other n := by
        refine ⟨hreached.1, fun i hi => ?_⟩
        rw [ih i hi (hreached.before hi)]
        exact hreached.2 i hi
      cases hvalue : verdict (sampler.resultAt n) with
      | some value => exact ((h n value).mpr ⟨hreached, hvalue⟩).2
      | none =>
        apply Option.eq_none_iff_forall_ne_some.mpr
        intro value hsome
        exact nomatch hvalue.symm.trans ((h n value).mp ⟨hother, hsome⟩).2
  · intro h n value
    unfold LeftAt
    rw [h.reached_iff]
    refine and_congr_right fun hreached => ?_
    rw [h n hreached]

/-- A loop that waits for something, and raises if it finds that something is gone. -/
theorem forLoop_watch_iff {ε : Type} {verdict : R → Option (Except ε β)} {gone done : Nat → Prop}
    (hgone : ∀ i, gone i → ∃ e, verdict (sampler.resultAt i) = some (.error e))
    (hdone : ∀ i, ¬ gone i → done i → verdict (sampler.resultAt i) = some (.ok value))
    (hwait : ∀ i, ¬ gone i → ¬ done i → verdict (sampler.resultAt i) = none) :
    sampler.forLoop clock (stateless verdict) ⟨⟩ = some (.ok value) ↔
      ∃ n, sampler.InTime clock n ∧ done n ∧ ∀ i ≤ n, ¬ gone i := by
  have hnot : ∀ i, verdict (sampler.resultAt i) = some (.ok value) → ¬ gone i := by
    intro i hvalue hi
    obtain ⟨e, he⟩ := hgone i hi
    exact nomatch he.symm.trans hvalue
  rw [forLoop_stateless_eq_some_iff_exists]
  refine exists_congr fun n => and_congr_right fun _ => ?_
  constructor
  · rintro ⟨hvalue, hbefore⟩
    constructor
    · by_contra hn
      exact nomatch (hwait n (hnot n hvalue) hn).symm.trans hvalue
    · intro i hi
      rcases Nat.lt_or_eq_of_le hi with hlt | rfl
      · intro higone
        obtain ⟨e, he⟩ := hgone i higone
        exact nomatch hbefore i hlt _ he
      · exact hnot i hvalue
  · rintro ⟨hn, hnone⟩
    refine ⟨hdone n (hnone n le_rfl) hn, fun i hi other hother => ?_⟩
    have hi := hnone i hi.le
    by_cases hdonei : done i
    · exact Option.some.inj (hother.symm.trans (hdone i hi hdonei))
    · exact nomatch (hwait i hi hdonei).symm.trans hother

end

end TimeoutingSampler

end OvirtArt.CoreApi
