import Mathlib.Data.List.MinMax
import OvirtArt.CoreApi.PyText
import OvirtArt.Foundation.Collecting
import OvirtArt.Foundation.Effects

set_option autoImplicit false

/-!
# `low_level/jobs.py`

A job of the engine is looked up by its description and its status.  Steps are added to the job
that is found, and jobs and steps are ended.

`re.match` is a parameter of the engine that may raise.  The requests are left out beyond what
they find or return.
-/

namespace OvirtArt.TestsLib.EngineJobs

open OvirtArt.CoreApi OvirtArt.Foundation

/-- A `Job` of the engine. -/
structure Job where
  id : Text
  description : Option Text
  status : Text
  startTime : Int
  deriving DecidableEq, Repr

/-- A `Step` of a job. -/
structure Step where
  id : Text
  description : Text
  deriving DecidableEq, Repr

/-- The step that `add_step` creates. -/
structure NewStep where
  description : Text
  job : Job
  parentStep : Option Step
  status : Text
  type_ : Text
  deriving DecidableEq, Repr

/-- What the functions can raise. -/
inductive JobsException where
  | valueError
  | typeError
  | reError
  | attributeError
  deriving DecidableEq, Repr

/-- The engine, and `re.match`. -/
structure JobsApi where
  /-- `JOBS_API.get(abs_link=False)`. -/
  jobs : List Job
  /-- `re.match(description, job.get_description())`. -/
  reMatch : Text → Option Text → Except JobsException Bool
  /-- `STEPS_API.getElemFromLink(job, link_name='steps', attr='step', get_href=False)`. -/
  steps : Job → List Step
  /-- `STEPS_API.create(step_obj, True, collection=steps_obj)[1]`. -/
  createStep : NewStep → Bool
  /-- `JOBS_API.syncAction(job_object, "end", True, status=end_status)`. -/
  endJob : Job → Text → Bool
  /-- `STEPS_API.syncAction(step_obj, "end", True, succeeded=end_status)`. -/
  endStep : Step → Text → Bool

/-! ## The lookup -/

/-- What `check_recent_job` returns: a pair, or for an empty description three values. -/
inductive Recent where
  | pair (found : Bool) (job : Option Job)
  | triple
  deriving DecidableEq, Repr

/-- `_, job_obj = ...`. -/
def Recent.unpacked : Recent → Except JobsException (Option Job)
  | pair _ job => .ok job
  | triple => .error .valueError

/-- `...[1]`. -/
def Recent.second : Recent → Option Job
  | pair _ job => job
  | triple => none

section

variable (api : JobsApi)

/-- The job alone, if it is one of those that are looked for. -/
def selectJob (description jobStatus : Text) (job : Job) : Except JobsException (List Job) := do
  return if (← api.reMatch description job.description) && job.status == jobStatus then [job]
    else []

/-- The first of these jobs with the greatest start time. -/
def argmaxStart (jobs : List Job) : Option Job :=
  @List.argmax Job Int Int.instLinearOrder.toPreorder _ Job.startTime jobs

/-- `max(required_jobs, key=lambda j: j.get_start_time())`. -/
def lastJob (requiredJobs : List Job) : Except JobsException Job :=
  match argmaxStart requiredJobs with
  | some job => .ok job
  | none => .error .valueError

/-- `check_recent_job`, with all jobs or a number of them. -/
def checkRecentJob (description : Text) (lastJobsNum : Option Nat) (jobStatus : Text) :
    Except JobsException Recent :=
  if description.isEmpty then .ok .triple
  else do
    let jobs := (lastJobsNum.map api.jobs.take).getD api.jobs
    let requiredJobs ← extendAll (selectJob api description jobStatus.lower) [] jobs
    return .pair true (some (← lastJob requiredJobs))

/-! ## Steps -/

/-- `step_by_description`. -/
def stepByDescription (job : Job) (stepDescription : Text) : Option Step :=
  (api.steps job).find? fun step => (Text.index? stepDescription step.description).isSome

/-- The statuses that `add_step` tries. -/
def triedStatuses : List Text :=
  ["started".toList, "finished".toList, "failed".toList, "aborted".toList, "unknown".toList]

/-- The parent step that a job has, if one is named. -/
def parentStep (parentStepDescription : Text) (job : Job) : Option Step :=
  if parentStepDescription.isEmpty then none else stepByDescription api job parentStepDescription

/-- The loop of `add_step`: the job and the parent step after it.  An empty description of the
parent step stands for none. -/
def searchJob (jobDescription parentStepDescription : Text) :
    List Text → Option Job × Option Step → Except JobsException (Option Job × Option Step)
  | [], found => .ok found
  | status :: rest, found => do
      match ← (← checkRecentJob api jobDescription none status).unpacked with
      | none => searchJob jobDescription parentStepDescription rest (none, found.2)
      | some job =>
        let parent := parentStep api parentStepDescription job
        if parentStepDescription.isEmpty || parent.isSome then .ok (some job, parent)
        else searchJob jobDescription parentStepDescription rest (some job, parent)

/-- The step that is created under a job. -/
def newStep (stepDescription stepType stepState : Text) (job : Job) (parent : Option Step) :
    NewStep where
  description := stepDescription
  job := job
  parentStep := parent
  status := stepState
  type_ := stepType.lower

/-- What `add_step` does after its loop. -/
def createUnder (stepDescription stepType stepState parentStepDescription : Text) :
    Option Job × Option Step → EStateM JobsException (List NewStep) Bool
  | (none, _) => return false
  | (some job, parent) => do
      if !parentStepDescription.isEmpty && parent.isNone then
        return false
      let stepObj := newStep stepDescription stepType stepState job parent
      modify (· ++ [stepObj])
      return api.createStep stepObj

/-- `add_step`, with the steps that have been sent to the engine. -/
def addStep (jobDescription stepDescription stepType stepState parentStepDescription : Text) :
    EStateM JobsException (List NewStep) Bool := do
  let found ←
    fromExcept (searchJob api jobDescription parentStepDescription triedStatuses (none, none))
  createUnder api stepDescription stepType stepState parentStepDescription found

/-! ## Ending -/

/-- `end_job`. -/
def endJob (jobDescription jobStatus endStatus : Text) : Except JobsException Bool := do
  match ← (← checkRecentJob api jobDescription none jobStatus).unpacked with
  | some job => return api.endJob job endStatus
  | none => return false

/-- `end_step`. -/
def endStep (jobDescription jobStatus stepDescription endStatus : Text) :
    Except JobsException Bool := do
  match (← checkRecentJob api jobDescription none jobStatus).second with
  | none => return false
  | some job =>
    match stepByDescription api job stepDescription with
    | some step => return api.endStep step endStatus
    | none => throw .attributeError

end

/-! ## The jobs that match -/

section

variable (api : JobsApi)

/-- `re.match` of the description returns for every job. -/
def Readable (description : Text) : Prop :=
  ∀ job ∈ api.jobs, ∃ answer, api.reMatch description job.description = .ok answer

/-- The description and the status match. -/
def matchesJob (description jobStatus : Text) (job : Job) : Bool :=
  match api.reMatch description job.description with
  | .ok answer => answer && job.status == jobStatus.lower
  | .error _ => false

/-- The jobs of the engine that match. -/
def matching (description jobStatus : Text) : List Job :=
  api.jobs.filter (matchesJob api description jobStatus)

end

variable {api : JobsApi} {description jobStatus parent : Text} {result : Option Job × Option Step}
  {jobs : List Job} {job : Job} {status : Text}

theorem selectJob_of_ok {answer : Bool} (h : api.reMatch description job.description = .ok answer) :
    selectJob api description jobStatus.lower job
      = .ok (if matchesJob api description jobStatus job then [job] else []) := by
  rw [selectJob, matchesJob, h]
  rfl

theorem selectJob_of_error {e : JobsException}
    (h : api.reMatch description job.description = .error e) (status : Text) :
    selectJob api description status job = .error e := by
  rw [selectJob, h]
  rfl

theorem flatMap_ite_eq_filter {α : Type} (p : α → Bool) (xs : List α) :
    (xs.flatMap fun x => if p x then [x] else []) = xs.filter p := by
  induction xs with
  | nil => rfl
  | cons x xs ih =>
    rw [List.flatMap_cons, ih, List.filter_cons]
    split
    case isTrue => rfl
    case isFalse => rfl

theorem extendAll_selectJob (h : Readable api description) (jobStatus : Text) :
    extendAll (selectJob api description jobStatus.lower) [] api.jobs
      = .ok (matching api description jobStatus) := by
  have hround : ∀ job ∈ api.jobs, selectJob api description jobStatus.lower job
      = .ok (if matchesJob api description jobStatus job then [job] else []) := by
    intro job hjob
    obtain ⟨answer, hanswer⟩ := h job hjob
    exact selectJob_of_ok hanswer
  rw [extendAll_ok hround, List.nil_append, flatMap_ite_eq_filter]
  rfl

theorem readable_of_extendAll {found : List Job}
    (h : extendAll (selectJob api description status) [] api.jobs = .ok found) :
    Readable api description := by
  intro job hjob
  obtain ⟨selected, hselected⟩ := extendAll_returns_iff.mp ⟨found, h⟩ job hjob
  cases hmatch : api.reMatch description job.description with
  | ok answer => exact ⟨answer, rfl⟩
  | error e =>
    rw [selectJob_of_error hmatch] at hselected
    cases hselected

theorem lastJob_eq_ok_iff : lastJob jobs = .ok job ↔ argmaxStart jobs = some job := by
  unfold lastJob
  cases argmaxStart jobs with
  | none => exact iff_of_false nofun nofun
  | some other =>
    rw [Except.ok.injEq, Option.some.injEq]

/-- `check_recent_job` with all jobs returns for a description that is not empty exactly the
latest started job that matches, the first of them if there are several. -/
theorem checkRecentJob_eq_ok_iff (hne : description ≠ []) {recent : Recent} :
    checkRecentJob api description none jobStatus = .ok recent ↔
      Readable api description ∧ ∃ job,
        argmaxStart (matching api description jobStatus) = some job ∧
        recent = .pair true (some job) := by
  rw [checkRecentJob, if_neg fun hempty => hne (List.isEmpty_iff.mp hempty)]
  constructor
  · intro h
    obtain ⟨required, hrequired, h⟩ := bind_eq_ok_iff.mp h
    have hreadable := readable_of_extendAll hrequired
    obtain ⟨job, hjob, h⟩ := bind_eq_ok_iff.mp h
    refine ⟨hreadable, job, ?_, (Except.ok.inj h).symm⟩
    have hsame : required = matching api description jobStatus :=
      Except.ok.inj (hrequired.symm.trans (extendAll_selectJob hreadable jobStatus))
    rw [← hsame]
    exact lastJob_eq_ok_iff.mp hjob
  · rintro ⟨hreadable, job, hjob, rfl⟩
    refine bind_eq_ok_iff.mpr ⟨_, extendAll_selectJob hreadable jobStatus, ?_⟩
    exact bind_eq_ok_iff.mpr ⟨job, lastJob_eq_ok_iff.mpr hjob, rfl⟩

theorem checkRecentJob_nil (api : JobsApi) (lastJobsNum : Option Nat) (jobStatus : Text) :
    checkRecentJob api [] lastJobsNum jobStatus = .ok .triple :=
  rfl

theorem exists_argmax_iff : (∃ job, argmaxStart jobs = some job) ↔ jobs ≠ [] := by
  rw [argmaxStart, ← Option.isSome_iff_exists, Option.isSome_iff_ne_none, ne_eq,
    List.argmax_eq_none]

/-! ## What the lookup returns -/

/-- The latest started of these jobs. -/
def LatestOf (jobs : List Job) (job : Job) : Prop :=
  job ∈ jobs ∧ ∀ other ∈ jobs, other.startTime ≤ job.startTime

theorem latestOf_of_argmax (h : argmaxStart jobs = some job) : LatestOf jobs job :=
  ⟨List.argmax_mem h, fun _ hother => List.le_of_mem_argmax hother h⟩

/-- `check_recent_job` returns the latest started job that matches if there is one, and
`(False, None)` if there is none. -/
def LooksUp (api : JobsApi) (description jobStatus : Text) : Prop :=
  (∃ job, LatestOf (matching api description jobStatus) job ∧
    checkRecentJob api description none jobStatus = .ok (.pair true (some job))) ∨
  (matching api description jobStatus = [] ∧
    checkRecentJob api description none jobStatus = .ok (.pair false none))

theorem looksUp_iff : LooksUp api description jobStatus ↔
    description ≠ [] ∧ Readable api description ∧ matching api description jobStatus ≠ [] := by
  constructor
  · intro h
    have hne : description ≠ [] := by
      rintro rfl
      rcases h with ⟨job, -, h⟩ | ⟨-, h⟩
      · cases h
      · cases h
    rcases h with ⟨job, -, h⟩ | ⟨-, h⟩
    · obtain ⟨hreadable, job, hjob, -⟩ := (checkRecentJob_eq_ok_iff hne).mp h
      exact ⟨hne, hreadable, exists_argmax_iff.mp ⟨job, hjob⟩⟩
    · obtain ⟨-, job, -, heq⟩ := (checkRecentJob_eq_ok_iff hne).mp h
      cases heq
  · rintro ⟨hne, hreadable, hsome⟩
    obtain ⟨job, hjob⟩ := exists_argmax_iff.mpr hsome
    exact .inl ⟨job, latestOf_of_argmax hjob,
      (checkRecentJob_eq_ok_iff hne).mpr ⟨hreadable, job, hjob, rfl⟩⟩

/-! ## Ending jobs and steps that are not there -/

/-- Without a job that matches the lookup raises, or returns three values. -/
theorem checkRecentJob_of_matching_nil (h : matching api description jobStatus = [])
    {recent : Recent} (hok : checkRecentJob api description none jobStatus = .ok recent) :
    description = [] ∧ recent = .triple := by
  by_cases hne : description = []
  · rw [hne, checkRecentJob_nil] at hok
    exact ⟨hne, (Except.ok.inj hok).symm⟩
  · obtain ⟨-, job, hjob, -⟩ := (checkRecentJob_eq_ok_iff hne).mp hok
    exact absurd h (exists_argmax_iff.mp ⟨job, hjob⟩)

/-- `end_job` returns `False` if there is no such job, which is only so if there is one. -/
theorem endJob_of_no_job_iff (endStatus : Text) :
    (matching api description jobStatus = [] →
      endJob api description jobStatus endStatus = .ok false) ↔
      matching api description jobStatus ≠ [] := by
  constructor
  · intro h hnil
    obtain ⟨recent, hrecent, hrest⟩ := bind_eq_ok_iff.mp (h hnil)
    obtain ⟨-, rfl⟩ := checkRecentJob_of_matching_nil hnil hrecent
    cases hrest
  · intro h hnil
    exact absurd hnil h

/-- `end_step` returns `False` if there is no such job, which is only so if there is one or the
description is empty. -/
theorem endStep_of_no_job_iff (stepDescription endStatus : Text) :
    (matching api description jobStatus = [] →
      endStep api description jobStatus stepDescription endStatus = .ok false) ↔
      matching api description jobStatus ≠ [] ∨ description = [] := by
  constructor
  · intro h
    by_contra hneither
    rw [not_or, not_not] at hneither
    obtain ⟨recent, hrecent, -⟩ := bind_eq_ok_iff.mp (h hneither.1)
    exact hneither.2 (checkRecentJob_of_matching_nil hneither.1 hrecent).1
  · rintro (h | rfl) hnil
    · exact absurd hnil h
    · rfl

/-! ## Adding a step -/

section

variable (api : JobsApi) (description parent : Text)

/-- The job that the lookup finds for this status. -/
def latestJob (jobStatus : Text) : Option Job :=
  argmaxStart (matching api description jobStatus)

/-- The job has the parent step, if one is named. -/
def HasParent (job : Job) : Prop := parent = [] ∨ (parentStep api parent job).isSome = true

/-- A job with this status is found, with the parent step. -/
def Decisive (jobStatus : Text) : Prop :=
  ∃ job, latestJob api description jobStatus = some job ∧ HasParent api parent job

/-- A job with this status is found, but without the parent step. -/
def Passed (jobStatus : Text) : Prop :=
  ∃ job, latestJob api description jobStatus = some job ∧ ¬ HasParent api parent job

/-- Each status that comes before the first decisive one has a job that matches. -/
def ReachedFound (statuses : List Text) : Prop :=
  ∀ before status after, statuses = before ++ status :: after →
    (∀ earlier ∈ before, ¬ Decisive api description parent earlier) →
      matching api description status ≠ []

/-- `add_step` creates the step under a job of one of the statuses, which has the parent step if
one is named, if there is such a job, and returns `False` if there is none. -/
def AddsStep (stepDescription stepType stepState : Text) : Prop :=
  ((∃ status ∈ triedStatuses, Decisive api description parent status) →
    ∃ status ∈ triedStatuses, ∃ job, latestJob api description status = some job ∧
      HasParent api parent job ∧
      (addStep api description stepDescription stepType stepState parent).run []
        = .ok (api.createStep
            (newStep stepDescription stepType stepState job (parentStep api parent job)))
          [newStep stepDescription stepType stepState job (parentStep api parent job)]) ∧
  ((¬ ∃ status ∈ triedStatuses, Decisive api description parent status) →
    (addStep api description stepDescription stepType stepState parent).run [] = .ok false [])

end

theorem hasParent_iff : HasParent api parent job ↔
    (parent.isEmpty || (parentStep api parent job).isSome) = true := by
  rw [Bool.or_eq_true, List.isEmpty_iff]
  rfl

section

variable {found : Option Job × Option Step} {status : Text} {rest : List Text}

/-- One round of the loop, for a job that is found. -/
theorem searchJob_cons {job : Job} (hne : description ≠ []) (hreadable : Readable api description)
    (hjob : latestJob api description status = some job) :
    searchJob api description parent (status :: rest) found
      = if parent.isEmpty || (parentStep api parent job).isSome then
          .ok (some job, parentStep api parent job)
        else searchJob api description parent rest (some job, parentStep api parent job) := by
  have hcheck : checkRecentJob api description none status = .ok (.pair true (some job)) :=
    (checkRecentJob_eq_ok_iff hne).mpr ⟨hreadable, job, hjob, rfl⟩
  rw [searchJob, hcheck]
  rfl

theorem searchJob_of_decisive (hne : description ≠ []) (hreadable : Readable api description)
    (h : Decisive api description parent status) :
    ∃ job, latestJob api description status = some job ∧ HasParent api parent job ∧
      searchJob api description parent (status :: rest) found
        = .ok (some job, parentStep api parent job) := by
  obtain ⟨job, hjob, hparent⟩ := h
  refine ⟨job, hjob, hparent, ?_⟩
  rw [searchJob_cons hne hreadable hjob, if_pos (hasParent_iff.mp hparent)]

theorem searchJob_of_passed (hne : description ≠ []) (hreadable : Readable api description)
    (h : Passed api description parent status) :
    parent ≠ [] ∧ ∃ job, searchJob api description parent (status :: rest) found
      = searchJob api description parent rest (some job, none) := by
  obtain ⟨job, hjob, hparent⟩ := h
  have hnone : parentStep api parent job = none := by
    cases hstep : parentStep api parent job with
    | none => rfl
    | some step => exact absurd (.inr (by rw [hstep]; rfl)) hparent
  refine ⟨fun hnil => hparent (.inl hnil), job, ?_⟩
  rw [searchJob_cons hne hreadable hjob, if_neg fun hfound => hparent (hasParent_iff.mpr hfound),
    hnone]

/-- A status without a job that matches raises. -/
theorem searchJob_of_missing (hne : description ≠ [])
    (h : matching api description status = []) {result : Option Job × Option Step} :
    searchJob api description parent (status :: rest) found ≠ .ok result := by
  intro hok
  rw [searchJob] at hok
  obtain ⟨recent, hrecent, -⟩ := bind_eq_ok_iff.mp hok
  exact hne (checkRecentJob_of_matching_nil h hrecent).1

end

/-- Every status is decisive, passed, or without a job. -/
theorem status_cases (api : JobsApi) (description parent status : Text) :
    Decisive api description parent status ∨ Passed api description parent status ∨
      matching api description status = [] := by
  by_cases hnil : matching api description status = []
  · exact .inr (.inr hnil)
  · obtain ⟨job, hjob⟩ := exists_argmax_iff.mpr hnil
    by_cases hparent : HasParent api parent job
    · exact .inl ⟨job, hjob, hparent⟩
    · exact .inr (.inl ⟨job, hjob, hparent⟩)

theorem Passed.not_decisive (h : Passed api description parent status) :
    ¬ Decisive api description parent status := by
  rintro ⟨job, hjob, hparent⟩
  obtain ⟨other, hother, hnot⟩ := h
  obtain rfl : job = other := Option.some.inj (hjob.symm.trans hother)
  exact hnot hparent

theorem ReachedFound.tail {rest : List Text}
    (h : ReachedFound api description parent (status :: rest))
    (hnot : ¬ Decisive api description parent status) :
    ReachedFound api description parent rest := by
  intro before next after heq hbefore
  refine h (status :: before) next after (by rw [heq]; rfl) ?_
  rw [List.forall_mem_cons]
  exact ⟨hnot, hbefore⟩

/-- How the loop ends when every status that it reaches has a job: at the first decisive one, or
after all of them without the parent step. -/
theorem searchJob_of_reachedFound (hne : description ≠ []) (hreadable : Readable api description)
    {statuses : List Text} (h : ReachedFound api description parent statuses)
    (found : Option Job × Option Step) :
    (∃ status ∈ statuses, ∃ job, latestJob api description status = some job ∧
      HasParent api parent job ∧ searchJob api description parent statuses found
        = .ok (some job, parentStep api parent job)) ∨
    ((∀ status ∈ statuses, ¬ Decisive api description parent status) ∧
      ∃ last, searchJob api description parent statuses found = .ok last ∧
        (last = found ∨ parent ≠ [] ∧ last.2 = none)) := by
  induction statuses generalizing found with
  | nil =>
    exact .inr ⟨fun _ hstatus => absurd hstatus List.not_mem_nil, found, rfl, .inl rfl⟩
  | cons status rest ih =>
    rcases status_cases api description parent status with hdecisive | hpassed | hnil
    · obtain ⟨job, hjob, hparent, hsearch⟩ := searchJob_of_decisive hne hreadable hdecisive
      exact .inl ⟨status, List.mem_cons_self, job, hjob, hparent, hsearch⟩
    · obtain ⟨hsome, job, hsearch⟩ := searchJob_of_passed hne hreadable hpassed
      rw [hsearch]
      rcases ih (h.tail hpassed.not_decisive) (some job, none) with hfirst | hnone
      · obtain ⟨next, hnext, hrest⟩ := hfirst
        exact .inl ⟨next, List.mem_cons_of_mem _ hnext, hrest⟩
      · obtain ⟨hrest, last, hlast, hend⟩ := hnone
        refine .inr ⟨?_, last, hlast, .inr ⟨hsome, ?_⟩⟩
        · rw [List.forall_mem_cons]
          exact ⟨hpassed.not_decisive, hrest⟩
        · rcases hend with rfl | hend
          · rfl
          · exact hend.2
    · exact absurd hnil (h [] status rest rfl fun _ hmem => absurd hmem List.not_mem_nil)

/-- Where the loop returns, every status that it reaches has a job. -/
theorem reachedFound_of_searchJob (hne : description ≠ []) (hreadable : Readable api description)
    {statuses : List Text} {found : Option Job × Option Step}
    (h : searchJob api description parent statuses found = .ok result) :
    ReachedFound api description parent statuses := by
  induction statuses generalizing found with
  | nil =>
    intro before status after heq
    exact absurd heq.symm (by simp)
  | cons first rest ih =>
    intro before status after heq hbefore hnil
    cases before with
    | nil =>
      obtain ⟨rfl, rfl⟩ := List.cons.inj heq
      exact searchJob_of_missing hne hnil h
    | cons other before =>
      obtain ⟨rfl, hrest⟩ := List.cons.inj heq
      rw [List.forall_mem_cons] at hbefore
      rcases status_cases api description parent first with hdecisive | hpassed | hmissing
      · exact hbefore.1 hdecisive
      · obtain ⟨-, job, hsearch⟩ := searchJob_of_passed hne hreadable hpassed
        rw [hsearch] at h
        exact ih h before status after hrest hbefore.2 hnil
      · exact searchJob_of_missing hne hmissing h

theorem not_searchJob_of_not_readable (hne : description ≠ []) (hnot : ¬ Readable api description) :
    searchJob api description parent triedStatuses (none, none) ≠ .ok result := by
  intro hok
  rw [triedStatuses, searchJob] at hok
  obtain ⟨recent, hrecent, -⟩ := bind_eq_ok_iff.mp hok
  exact hnot ((checkRecentJob_eq_ok_iff hne).mp hrecent).1

section

variable {stepDescription stepType stepState : Text} {found : Option Job × Option Step}

theorem run_addStep (h : searchJob api description parent triedStatuses (none, none) = .ok found) :
    (addStep api description stepDescription stepType stepState parent).run []
      = (createUnder api stepDescription stepType stepState parent found).run [] := by
  rw [addStep, h]
  rfl

theorem searchJob_of_run {answer : Bool} {steps : List NewStep}
    (h : (addStep api description stepDescription stepType stepState parent).run []
      = .ok answer steps) :
    ∃ found, searchJob api description parent triedStatuses (none, none) = .ok found := by
  rw [addStep] at h
  obtain ⟨found, _, hfound, -⟩ := run_bind_eq_ok_iff.mp h
  exact ⟨found, (run_fromExcept_eq_ok_iff.mp hfound).1⟩

theorem run_createUnder_of_hasParent {job : Job} (h : HasParent api parent job) :
    (createUnder api stepDescription stepType stepState parent
        (some job, parentStep api parent job)).run []
      = .ok (api.createStep
          (newStep stepDescription stepType stepState job (parentStep api parent job)))
        [newStep stepDescription stepType stepState job (parentStep api parent job)] := by
  have hgo : (!parent.isEmpty && (parentStep api parent job).isNone) = false := by
    rcases h with rfl | h
    · rfl
    · rw [Option.isSome_iff_ne_none, ne_eq, ← Option.isNone_iff_eq_none] at h
      rw [Bool.eq_false_iff.mpr h, Bool.and_false]
  rw [createUnder, hgo]
  rfl

theorem run_createUnder_of_no_parent (h : found = (none, none) ∨ parent ≠ [] ∧ found.2 = none) :
    (createUnder api stepDescription stepType stepState parent found).run [] = .ok false [] := by
  rcases h with rfl | h
  · rfl
  · obtain ⟨job, step⟩ := found
    obtain ⟨hsome, rfl⟩ := h
    cases job with
    | none => rfl
    | some job =>
      have hstop : (!parent.isEmpty && (none : Option Step).isNone) = true := by
        rw [List.isEmpty_eq_false_iff.mpr hsome]
        rfl
      rw [createUnder, hstop]
      rfl

/-- `add_step` adds the step, or returns `False`, exactly if every status up to the decisive one
has a job that matches. -/
theorem addsStep_iff : AddsStep api description parent stepDescription stepType stepState ↔
    description ≠ [] ∧ Readable api description ∧
      ReachedFound api description parent triedStatuses := by
  constructor
  · intro h
    obtain ⟨answer, steps, hrun⟩ : ∃ answer steps,
        (addStep api description stepDescription stepType stepState parent).run []
          = .ok answer steps := by
      by_cases hdecisive : ∃ status ∈ triedStatuses, Decisive api description parent status
      · obtain ⟨_, _, _, _, _, hrun⟩ := h.1 hdecisive
        exact ⟨_, _, hrun⟩
      · exact ⟨_, _, h.2 hdecisive⟩
    obtain ⟨found, hfound⟩ := searchJob_of_run hrun
    have hne : description ≠ [] := by
      rintro rfl
      cases hfound
    have hreadable : Readable api description := by
      by_contra hnot
      exact not_searchJob_of_not_readable hne hnot hfound
    exact ⟨hne, hreadable, reachedFound_of_searchJob hne hreadable hfound⟩
  · rintro ⟨hne, hreadable, hreached⟩
    rcases searchJob_of_reachedFound hne hreadable hreached (none, none) with hfirst | hnone
    · obtain ⟨status, hstatus, job, hjob, hparent, hsearch⟩ := hfirst
      refine ⟨fun _ => ⟨status, hstatus, job, hjob, hparent, ?_⟩, ?_⟩
      · rw [run_addStep hsearch, run_createUnder_of_hasParent hparent]
      · intro hno
        exact absurd ⟨status, hstatus, job, hjob, hparent⟩ hno
    · obtain ⟨hno, last, hsearch, hend⟩ := hnone
      refine ⟨?_, fun _ => ?_⟩
      · rintro ⟨status, hstatus, hdecisive⟩
        exact absurd hdecisive (hno status hstatus)
      · rw [run_addStep hsearch]
        exact run_createUnder_of_no_parent hend

end

/-- The lookup of a job, and the functions that rely on it, do what they should exactly if there
is a job to be found wherever they look for one. -/
theorem job_lookup_iff (api : JobsApi) (description : Text) :
    (∀ jobStatus, LooksUp api description jobStatus ↔
      description ≠ [] ∧ Readable api description ∧ matching api description jobStatus ≠ []) ∧
    (∀ parent stepDescription stepType stepState,
      AddsStep api description parent stepDescription stepType stepState ↔
        description ≠ [] ∧ Readable api description ∧
          ReachedFound api description parent triedStatuses) ∧
    (∀ jobStatus endStatus, (matching api description jobStatus = [] →
        endJob api description jobStatus endStatus = .ok false) ↔
      matching api description jobStatus ≠ []) ∧
    (∀ jobStatus stepDescription endStatus, (matching api description jobStatus = [] →
        endStep api description jobStatus stepDescription endStatus = .ok false) ↔
      matching api description jobStatus ≠ [] ∨ description = []) :=
  ⟨fun _ => looksUp_iff, fun _ _ _ _ => addsStep_iff, fun _ => endJob_of_no_job_iff,
    fun _ => endStep_of_no_job_iff⟩

/-- An engine with one finished job, and a pattern that matches it. -/
def oneFinished : JobsApi where
  jobs := [⟨"1".toList, some "Creating VM".toList, "finished".toList, 0⟩]
  reMatch _ _ := .ok true
  steps _ := []
  createStep _ := true
  endJob _ _ := true
  endStep _ _ := true

/-- No job is started: the lookup raises, and with it all functions that rely on it. -/
theorem started_job_not_looked_up :
    ¬ LooksUp oneFinished "Creating VM".toList "STARTED".toList ∧
    ¬ AddsStep oneFinished "Creating VM".toList [] [] [] [] ∧
    endJob oneFinished "Creating VM".toList "STARTED".toList [] = .error .valueError := by
  refine ⟨?_, ?_, by rfl⟩
  · rw [looksUp_iff]
    rintro ⟨-, -, hsome⟩
    exact hsome (by rfl)
  · rw [addsStep_iff]
    rintro ⟨-, -, hreached⟩
    exact hreached [] _ _ rfl (fun _ hmem => absurd hmem List.not_mem_nil) (by rfl)

end OvirtArt.TestsLib.EngineJobs
