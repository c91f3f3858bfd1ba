import OvirtArt.CoreApi.SampledLoops
import OvirtArt.TestsLib.EngineJobs

set_option autoImplicit false

/-!
# Waiting for jobs, in `low_level/jobs.py`

`wait_for_jobs` polls the engine until none of the jobs that it is given is started.  It then looks
each of them up once more, to log how long it took, and raises where that raises.

The polls are those of a sampler, over any stream of replies; what the log says is left out.
-/

namespace OvirtArt.TestsLib.WaitForJobs

open OvirtArt.CoreApi OvirtArt.Foundation OvirtArt.TestsLib.EngineJobs

/-- What the wait raises. -/
inductive WaitException where
  /-- `APITimeout`, which the sampler of `apis_utils` raises. -/
  | apiTimeout
  | jobs (e : JobsException)

section

variable (api : JobsApi) (jobDescriptions : List Text) (lastUpdated : Job → Option Int)

/-! ## The source -/

/-- The search for the first of the jobs that a description matches. -/
def firstMatch (jobs : List Job) (jobDescription : Text) : Except JobsException (List Job) :=
  match jobs with
  | [] => .ok []
  | job :: rest => do
    if ← api.reMatch jobDescription job.description then return [job]
    firstMatch rest jobDescription

/-- `get_active_jobs`, by the reply to its request; for a refused one it returns `[True]`, which is
`none` here.  No description is `None` or an empty list. -/
def getActiveJobs : Option (List Job) → Except JobsException (Option (List Job))
  | none => .ok none
  | some jobs =>
    let jobs := jobs.filter (·.status == "started".toList)
    if jobDescriptions.isEmpty then .ok (some jobs)
    else (extendAll (firstMatch api jobs) [] jobDescriptions).map some

/-- `get_job_object`, by the reply to its request: a refused one gives no list. -/
def getJobObject (description : Text) : Option (List Job) → Except JobsException (Option Job)
  | none => .error .typeError
  | some jobs =>
    (extendAll (selectJob api description "finished".toList) [] jobs).map argmaxStart

/-- `get_job_execution_time`, in seconds. -/
def getJobExecutionTime (job : Job) : Except JobsException Int :=
  match lastUpdated job with
  | some time => .ok (time - job.startTime)
  | none => .error .typeError

/-- The body of the loop in which the times are logged. -/
def logTime (reply : Option (List Job)) (jobDescription : Text) : Except JobsException Unit := do
  match ← getJobObject api jobDescription reply with
  | some job => discard (getJobExecutionTime lastUpdated job)
  | none => return

/-- That loop, by the replies to the lookups. -/
def logTimes (later : Text → Option (List Job)) : Except JobsException Unit :=
  jobDescriptions.foldlM (fun _ description =>
    logTime api lastUpdated (later description) description) ⟨⟩

/-- The body of the loop of `wait_for_jobs`, up to its return. -/
def idleVerdict (reply : Option (List Job)) : Option (Except JobsException Unit) :=
  match getActiveJobs api jobDescriptions reply with
  | .error e => some (.error e)
  | .ok (some []) => some (.ok ⟨⟩)
  | .ok _ => none

/-- `wait_for_jobs`, with the replies to the polls, and to the lookups after them. -/
def waitForJobs (execTime : Bool) (sampler : TimeoutingSampler (Option (List Job))) (clock : ℚ≥0)
    (later : Text → Option (List Job)) : Except WaitException Unit :=
  match sampler.forLoop clock (stateless (idleVerdict api jobDescriptions)) ⟨⟩ with
  | none => .error .apiTimeout
  | some (.error e) => .error (.jobs e)
  | some (.ok _) =>
    if execTime then (logTimes api jobDescriptions lastUpdated later).mapError .jobs else .ok ⟨⟩

/-! ## What ends the wait -/

/-- No job that is waited for is started; without descriptions, these are all. -/
def Idle (jobs : List Job) : Prop :=
  ∀ job ∈ jobs, job.status = "started".toList →
    jobDescriptions ≠ [] ∧
      ∀ description ∈ jobDescriptions, api.reMatch description job.description = .ok false

/-- The engine lists its jobs, the description can be matched with each, and the latest that it
matches, if there is one, has the time of its last update. -/
def Timed (reply : Option (List Job)) (description : Text) : Prop :=
  ∃ jobs, reply = some jobs ∧ Readable { api with jobs := jobs } description ∧
    ∀ job, argmaxStart (matching { api with jobs := jobs } description "finished".toList) = some job →
      lastUpdated job ≠ none

end

variable {api : JobsApi} {jobDescriptions : List Text} {lastUpdated : Job → Option Int}
  {jobs : List Job} {reply : Option (List Job)} {description : Text}

theorem firstMatch_eq_nil_iff : firstMatch api jobs description = .ok [] ↔
    ∀ job ∈ jobs, api.reMatch description job.description = .ok false := by
  induction jobs with
  | nil => exact iff_of_true rfl nofun
  | cons job rest ih =>
    rw [firstMatch, List.forall_mem_cons, ← ih]
    cases api.reMatch description job.description with
    | error e => exact iff_of_false nofun fun h => nomatch h.1
    | ok answer =>
      cases answer with
      | true => exact iff_of_false nofun fun h => nomatch h.1
      | false => exact (and_iff_right rfl).symm

theorem getActiveJobs_eq_nil_iff : getActiveJobs api jobDescriptions reply = .ok (some []) ↔
    ∃ jobs, reply = some jobs ∧ Idle api jobDescriptions jobs := by
  cases reply with
  | none => exact iff_of_false nofun nofun
  | some jobs =>
    simp only [Option.some.injEq, exists_eq_left', Idle, getActiveJobs, List.isEmpty_iff]
    split
    case isTrue hempty =>
      simp [hempty, List.filter_eq_nil_iff]
    case isFalse hne =>
      rw [map_eq_ok_iff]
      simp only [Option.some.injEq, exists_eq_right, extendAll_eq_nil_iff, firstMatch_eq_nil_iff,
        List.mem_filter, beq_iff_eq, and_imp, ne_eq, hne, not_false_eq_true, true_and]
      exact ⟨fun h job hjob hstarted d hd => h d hd job hjob hstarted,
        fun h d hd job hjob hstarted => h job hjob hstarted d hd⟩

theorem logTime_eq_ok_iff :
    logTime api lastUpdated reply description = .ok ⟨⟩ ↔
      Timed api lastUpdated reply description := by
  cases reply with
  | none => exact iff_of_false nofun nofun
  | some jobs =>
    constructor
    · intro h
      obtain ⟨latest, hlatest, h⟩ := bind_eq_ok_iff.mp h
      obtain ⟨found, hfound, rfl⟩ := map_eq_ok_iff.mp hlatest
      have hreadable : Readable { api with jobs := jobs } description :=
        readable_of_extendAll hfound
      refine ⟨jobs, rfl, hreadable, fun job hjob hnone => ?_⟩
      have hall := extendAll_selectJob hreadable "finished".toList
      rw [Except.ok.inj (hfound.symm.trans hall), hjob] at h
      simp [getJobExecutionTime, hnone, discard, Functor.mapConst, Except.map] at h
    · rintro ⟨_, heq, hreadable, htimes⟩
      obtain rfl := Option.some.inj heq
      have hall := extendAll_selectJob hreadable "finished".toList
      refine bind_eq_ok_iff.mpr ⟨_, map_eq_ok_iff.mpr ⟨_, hall, rfl⟩, ?_⟩
      cases hjob : argmaxStart _ with
      | none => rfl
      | some job =>
        obtain ⟨time, htime⟩ := Option.ne_none_iff_exists'.mp (htimes job hjob)
        simp only [getJobExecutionTime, htime]
        rfl

/-- `wait_for_jobs` returns exactly if some poll in time finds none of the jobs started, no poll
until then raises, and, if the times are to be logged, each of the descriptions is timed. -/
theorem wait_for_jobs_returns_iff (execTime : Bool)
    (sampler : TimeoutingSampler (Option (List Job))) (clock : ℚ≥0)
    (later : Text → Option (List Job)) :
    waitForJobs api jobDescriptions lastUpdated execTime sampler clock later = .ok ⟨⟩ ↔
      (∃ n, sampler.InTime clock n ∧
        (∃ jobs, sampler.resultAt n = some jobs ∧ Idle api jobDescriptions jobs) ∧
        ∀ i ≤ n, ∀ e, getActiveJobs api jobDescriptions (sampler.resultAt i) ≠ .error e) ∧
      (execTime = true → ∀ description ∈ jobDescriptions,
        Timed api lastUpdated (later description) description) := by
  have hloop : sampler.forLoop clock (stateless (idleVerdict api jobDescriptions)) ⟨⟩ =
      some (.ok ⟨⟩) ↔ ∃ n, sampler.InTime clock n ∧
        getActiveJobs api jobDescriptions (sampler.resultAt n) = .ok (some []) ∧
        ∀ i ≤ n, ¬ ∃ e, getActiveJobs api jobDescriptions (sampler.resultAt i) = .error e := by
    apply TimeoutingSampler.forLoop_watch_iff
    · rintro i ⟨e, he⟩
      exact ⟨e, by rw [idleVerdict, he]⟩
    · intro i _ hdone
      rw [idleVerdict, hdone]
    · intro i hgone hdone
      unfold idleVerdict
      split
      case h_1 e he => exact absurd ⟨e, he⟩ hgone
      case h_2 hnil => exact absurd hnil hdone
      case h_3 => rfl
  simp only [getActiveJobs_eq_nil_iff, not_exists] at hloop
  rw [← hloop, waitForJobs]
  split
  case h_1 hnone => exact iff_of_false nofun fun h => nomatch hnone.symm.trans h.1
  case h_2 e he => exact iff_of_false nofun fun h => nomatch he.symm.trans h.1
  case h_3 hleft =>
    rw [and_iff_right hleft]
    cases execTime with
    | false => exact iff_of_true rfl nofun
    | true =>
      have hlogs : (∃ done, logTimes api jobDescriptions lastUpdated later = .ok done) ↔
          ∀ description ∈ jobDescriptions, Timed api lastUpdated (later description) description :=
        foldlM_returns_iff fun _ description =>
          ⟨fun ⟨_, h⟩ => logTime_eq_ok_iff.mp h, fun h => ⟨⟨⟩, logTime_eq_ok_iff.mpr h⟩⟩
      rw [if_pos rfl, forall_prop_of_true rfl, ← hlogs]
      cases logTimes api jobDescriptions lastUpdated later with
      | ok done => exact iff_of_true rfl ⟨done, rfl⟩
      | error e => exact iff_of_false nofun fun h => nomatch h.choose_spec

end OvirtArt.TestsLib.WaitForJobs
