import OvirtArt.CoreApi.RestUtilHeaders
import OvirtArt.Foundation.Polling

set_option autoImplicit false

/-!
# `RestUtil.waitForElemStatus` of `core_api/rest_utils.py`

An element is asked for until its status is one of those that are waited for, its status is
final, or the time is over.

A poll counts as the sleep after it, as in the account of the source; how long a request takes is
left out.  An element that has no status is told from one whose status is `None`, with which the
loop cannot go on.
-/

namespace OvirtArt.CoreApi

open OvirtArt.Foundation

/-- `DEF_SLEEP`. -/
def defSleep : Nat := 10

/-- The session, and how often an element has been asked for. -/
structure Waiting where
  session : Session
  polls : Nat

namespace RestUtil

variable {Obj : Type} (py : Objects Obj) (self : RestUtil)
  (server : Nat → Except PyException Reply)

/-! ## The source -/

/-- `self.get(restElement.href)`. -/
def getAgain (restElement : Obj) : Api Obj := do
  let href ← fromExcept (py.getattr restElement "href".toList)
  self.get py server { href := py.asText href }

/-- A procedure of the client that asks for the element. -/
def asking {α : Type} (m : Api α) : EStateM PyException Waiting α := fun w =>
  match m.run w.session with
  | .ok a session => .ok a ⟨session, w.polls + 1⟩
  | .error e session => .error e ⟨session, w.polls + 1⟩

/-- `value.lower()`. -/
def lowered (value : Obj) : Except PyException Text :=
  match py.asText value with
  | none => .error (.attributeError "lower".toList)
  | some text => .ok text.lower

/-- `elemStat`, if the element has an attribute for it. -/
def elemStat (restElement : Obj) : Except PyException (Option Text) :=
  match py.getattr restElement "snapshot_status".toList with
  | .ok value => (lowered py value).map some
  | .error _ =>
    match py.getattr restElement "status".toList with
    | .ok value => (lowered py value).map some
    | .error _ => .ok none

/-- `waitForElemStatus` from `handleTimeout` on; the sleep is the time that is added. -/
def waitFrom (status : Text) (timeout : Nat) (ignoreFinalStates : Bool) (handleTimeout : Nat)
    (restElement : Obj) : EStateM PyException Waiting Bool :=
  if handleTimeout ≤ timeout then do
    let restElement ← asking (self.getAgain py server restElement)
    match ← fromExcept (elemStat py restElement) with
    | none => pure false
    | some elemStat =>
      if elemStat ∈ status.lower.words then pure true
      else if elemStat.find "fail".toList ≠ -1 ∧ ignoreFinalStates = false then pure false
      else if elemStat = "up".toList ∧ ignoreFinalStates = false then pure false
      else waitFrom status timeout ignoreFinalStates (handleTimeout + defSleep) restElement
  else pure false
termination_by timeout + 1 - handleTimeout
decreasing_by
  unfold defSleep
  omega

/-- `waitForElemStatus`. -/
def waitForElemStatus (restElement : Obj) (status : Text) (timeout : Nat)
    (ignoreFinalStates : Bool) : EStateM PyException Waiting Bool :=
  self.waitFrom py server status timeout ignoreFinalStates 0 restElement

/-! ## What the server reports -/

/-- What a poll shows of the element. -/
inductive Report where
  /-- The request itself raises. -/
  | raises (e : PyException)
  /-- No element, or one without a status. -/
  | noStatus
  /-- A status that is `None`. -/
  | noneStatus
  | status (text : Text)
  deriving DecidableEq

/-- What the attribute says. -/
def reportOf (value : Obj) : Report :=
  match py.asText value with
  | none => .noneStatus
  | some text => .status text

/-- What the element says. -/
def report (restElement : Obj) : Report :=
  match py.getattr restElement "snapshot_status".toList with
  | .ok value => reportOf py value
  | .error _ =>
    match py.getattr restElement "status".toList with
    | .ok value => reportOf py value
    | .error _ => .noStatus

/-- What the polls show one after the other, each asking for the element of the one before. -/
def reports : Nat → Obj → Session → Report
  | 0, restElement, s =>
    match (self.getAgain py server restElement).run s with
    | .error e _ => .raises e
    | .ok restElement _ => report py restElement
  | i + 1, restElement, s =>
    match (self.getAgain py server restElement).run s with
    | .error e _ => .raises e
    | .ok restElement t => reports i restElement t

namespace Report

variable (status : Text) (ignoreFinalStates : Bool)

/-- A status that is waited for. -/
def Requested : Report → Prop
  | .status text => text.lower ∈ status.lower.words
  | _ => False

/-- No status, or one that is final where final ones are not ignored. -/
def Final : Report → Prop
  | .raises _ => False
  | .noStatus => True
  | .noneStatus => True
  | .status text => ignoreFinalStates = false ∧
      ("fail".toList <:+: text.lower ∨ text.lower = "up".toList)

/-- A status that is not waited for, and not final. -/
def Waits (report : Report) : Prop :=
  ¬ report.Requested status ∧ ¬ report.Final ignoreFinalStates ∧ ∃ text, report = .status text

/-- The status cannot be read. -/
def Raising (report : Report) : Prop :=
  report = .noneStatus ∨ ∃ e, report = .raises e

/-- What the loop makes of a poll. -/
def verdict : Report → Verdict PyException Bool
  | .raises e => .raise e
  | .noStatus => .stop false
  | .noneStatus => .raise (.attributeError "lower".toList)
  | .status text =>
    if text.lower ∈ status.lower.words then .stop true
    else if text.lower.find "fail".toList ≠ -1 ∧ ignoreFinalStates = false then .stop false
    else if text.lower = "up".toList ∧ ignoreFinalStates = false then .stop false
    else .wait

end Report

/-- In at most so many polls as there is time for, the wait ends with a value, which is true
exactly if a requested status is shown before any poll that is final. -/
def Answers (status : Text) (timeout : Nat) (ignoreFinalStates : Bool) (restElement : Obj)
    (w : Waiting) : Prop :=
  ∃ found t,
    (self.waitForElemStatus py server restElement status timeout ignoreFinalStates).run w =
      .ok found t ∧
    t.polls ≤ w.polls + (timeout / defSleep + 1) ∧
    (found = true ↔ ∃ i ≤ timeout / defSleep,
      (self.reports py server i restElement w.session).Requested status ∧
        ∀ j < i, ¬ (self.reports py server j restElement w.session).Final ignoreFinalStates)

/-- A poll that comes after statuses to wait on, and in time, can be read. -/
def Readable (status : Text) (timeout : Nat) (ignoreFinalStates : Bool) (restElement : Obj)
    (w : Waiting) : Prop :=
  ∀ i ≤ timeout / defSleep,
    (∀ j < i, (self.reports py server j restElement w.session).Waits status ignoreFinalStates) →
      ¬ (self.reports py server i restElement w.session).Raising

end RestUtil

/-! ## Verdicts -/

namespace Text

theorem isSome_index?_iff (part text : Text) :
    (index? part text).isSome = true ↔ part <:+: text := by
  induction text with
  | nil =>
    unfold index?
    rw [List.infix_nil]
    split
    case isTrue h => exact iff_of_true rfl (List.isEmpty_iff.mp h)
    case isFalse h => exact iff_of_false Bool.false_ne_true fun hnil => h (hnil ▸ rfl)
  | cons c rest ih =>
    unfold index?
    rw [List.infix_cons_iff, ← ih]
    split
    case isTrue h => exact iff_of_true rfl (Or.inl (List.isPrefixOf_iff_prefix.mp h))
    case isFalse h =>
        have hprefix : ¬ part <+: c :: rest := fun hprefix =>
          h (List.isPrefixOf_iff_prefix.mpr hprefix)
        rw [Option.isSome_map, or_iff_right hprefix]

/-- `find` finds what is a part. -/
theorem find_ne_iff (text part : Text) : text.find part ≠ -1 ↔ part <:+: text := by
  rw [← isSome_index?_iff]
  unfold find
  cases index? part text with
  | none => exact iff_of_false (fun h => h rfl) Bool.false_ne_true
  | some position => exact iff_of_true (by simp) rfl

end Text

namespace RestUtil

namespace Report

variable {status : Text} {ignoreFinalStates : Bool} {report : Report}

/-- A status is requested, or final, or waited on. -/
theorem verdict_status (text : Text) :
    ((Report.status text).Requested status ∧
        (Report.status text).verdict status ignoreFinalStates = .stop true) ∨
      (¬ (Report.status text).Requested status ∧
        (Report.status text).Final ignoreFinalStates ∧
        (Report.status text).verdict status ignoreFinalStates = .stop false) ∨
      (¬ (Report.status text).Requested status ∧
        ¬ (Report.status text).Final ignoreFinalStates ∧
        (Report.status text).verdict status ignoreFinalStates = .wait) := by
  simp only [verdict]
  by_cases hrequested : text.lower ∈ status.lower.words
  · exact Or.inl ⟨hrequested, if_pos hrequested⟩
  rw [if_neg hrequested]
  by_cases hfail : text.lower.find "fail".toList ≠ -1 ∧ ignoreFinalStates = false
  · rw [if_pos hfail]
    exact Or.inr (Or.inl ⟨hrequested, ⟨hfail.2, Or.inl ((Text.find_ne_iff _ _).mp hfail.1)⟩, rfl⟩)
  rw [if_neg hfail]
  by_cases hup : text.lower = "up".toList ∧ ignoreFinalStates = false
  · rw [if_pos hup]
    exact Or.inr (Or.inl ⟨hrequested, ⟨hup.2, Or.inr hup.1⟩, rfl⟩)
  rw [if_neg hup]
  refine Or.inr (Or.inr ⟨hrequested, ?_, rfl⟩)
  rintro ⟨hfinal, hin | heq⟩
  · exact hfail ⟨(Text.find_ne_iff _ _).mpr hin, hfinal⟩
  · exact hup ⟨heq, hfinal⟩

theorem verdict_eq_true_iff :
    report.verdict status ignoreFinalStates = .stop true ↔ report.Requested status := by
  cases report with
  | raises e => exact iff_of_false (fun h => by cases h) id
  | noStatus => exact iff_of_false (fun h => by cases h) id
  | noneStatus => exact iff_of_false (fun h => by cases h) id
  | status text =>
    rcases @verdict_status status ignoreFinalStates text with
      ⟨hrequested, h⟩ | ⟨hrequested, _, h⟩ | ⟨hrequested, _, h⟩
    · exact iff_of_true h hrequested
    · rw [h]
      exact iff_of_false (fun h => by cases h) hrequested
    · rw [h]
      exact iff_of_false (fun h => by cases h) hrequested

theorem verdict_eq_wait_iff :
    report.verdict status ignoreFinalStates = .wait ↔
      report.Waits status ignoreFinalStates := by
  cases report with
  | raises e => exact iff_of_false (fun h => by cases h) fun ⟨_, _, _, h⟩ => by cases h
  | noStatus => exact iff_of_false (fun h => by cases h) fun ⟨_, _, _, h⟩ => by cases h
  | noneStatus => exact iff_of_false (fun h => by cases h) fun ⟨_, _, _, h⟩ => by cases h
  | status text =>
    rcases @verdict_status status ignoreFinalStates text with
      ⟨hrequested, h⟩ | ⟨_, hfinal, h⟩ | ⟨hrequested, hfinal, h⟩
    · rw [h]
      exact iff_of_false (fun h => by cases h) fun hwaits => hwaits.1 hrequested
    · rw [h]
      exact iff_of_false (fun h => by cases h) fun hwaits => hwaits.2.1 hfinal
    · exact iff_of_true h ⟨hrequested, hfinal, text, rfl⟩

theorem verdict_eq_raise_iff :
    (∃ e, report.verdict status ignoreFinalStates = .raise e) ↔ report.Raising := by
  cases report with
  | raises e => exact iff_of_true ⟨e, rfl⟩ (Or.inr ⟨e, rfl⟩)
  | noStatus => exact iff_of_false (by simp [verdict]) (by simp [Raising])
  | noneStatus => exact iff_of_true ⟨_, rfl⟩ (Or.inl rfl)
  | status text =>
    refine iff_of_false ?_ (by simp [Raising])
    rcases @verdict_status status ignoreFinalStates text with
      ⟨_, h⟩ | ⟨_, _, h⟩ | ⟨_, _, h⟩
    · simp [h]
    · simp [h]
    · simp [h]

end Report

/-! ## The loop -/

section

variable {Obj : Type} {py : Objects Obj} {self : RestUtil}
  {server : Nat → Except PyException Reply} {status : Text} {timeout : Nat}
  {ignoreFinalStates : Bool}

/-- What the source reads of an element is what the element shows. -/
theorem elemStat_eq (restElement : Obj) :
    elemStat py restElement =
      match report py restElement with
      | .raises e => .error e
      | .noStatus => .ok none
      | .noneStatus => .error (.attributeError "lower".toList)
      | .status text => .ok (some text.lower) := by
  have hvalue : ∀ value, (lowered py value).map some =
      match reportOf py value with
      | .raises e => .error e
      | .noStatus => .ok none
      | .noneStatus => .error (.attributeError "lower".toList)
      | .status text => .ok (some text.lower) := by
    intro value
    unfold lowered reportOf
    cases py.asText value with
    | none => rfl
    | some text => rfl
  unfold elemStat report
  cases py.getattr restElement "snapshot_status".toList with
  | ok value => exact hvalue value
  | error e =>
    cases py.getattr restElement "status".toList with
    | ok value => exact hvalue value
    | error e => rfl

variable (py self server status ignoreFinalStates) in
/-- What the loop makes of the polls. -/
def verdicts (restElement : Obj) (s : Session) : Nat → Verdict PyException Bool := fun i =>
  (self.reports py server i restElement s).verdict status ignoreFinalStates

/-- The outcome in a state. -/
def outcomeIn (t : Waiting) : Except PyException Bool → EStateM.Result PyException Waiting Bool
  | .ok found => .ok found t
  | .error e => .error e t

/-- The branches of the source are the verdict. -/
theorem branches_eq (text : Text) (next : EStateM PyException Waiting Bool) :
    (if text.lower ∈ status.lower.words then pure true
      else if text.lower.find "fail".toList ≠ -1 ∧ ignoreFinalStates = false then pure false
      else if text.lower = "up".toList ∧ ignoreFinalStates = false then pure false
      else next) =
      match (Report.status text).verdict status ignoreFinalStates with
      | .wait => next
      | .stop found => pure found
      | .raise e => throw e := by
  simp only [Report.verdict]
  split
  · rfl
  split
  · rfl
  split
  · rfl
  · rfl

theorem run_asking {α : Type} (m : Api α) (w : Waiting) :
    (asking m).run w =
      match m.run w.session with
      | .ok a session => .ok a ⟨session, w.polls + 1⟩
      | .error e session => .error e ⟨session, w.polls + 1⟩ := rfl

variable {s s' : Session} {found : Obj}

theorem reports_of_error {restElement : Obj} {e : PyException}
    (h : (self.getAgain py server restElement).run s = .error e s') :
    self.reports py server 0 restElement s = .raises e := by
  rw [reports, h]

theorem reports_zero {restElement : Obj}
    (h : (self.getAgain py server restElement).run s = .ok found s') :
    self.reports py server 0 restElement s = report py found := by
  rw [reports, h]

theorem reports_succ {restElement : Obj}
    (h : (self.getAgain py server restElement).run s = .ok found s') (i : Nat) :
    self.reports py server (i + 1) restElement s = self.reports py server i found s' := by
  rw [reports, h]

theorem verdicts_succ {restElement : Obj}
    (h : (self.getAgain py server restElement).run s = .ok found s') :
    (fun i => verdicts py self server status ignoreFinalStates restElement s (i + 1)) =
      verdicts py self server status ignoreFinalStates found s' := by
  funext i
  rw [verdicts, reports_succ h, verdicts]

/-- What a round does: it ends the loop, by an exception or with a value, or goes on with the
element that it has found. -/
inductive Round (py : Objects Obj) (self : RestUtil) (server : Nat → Except PyException Reply)
    (status : Text) (timeout : Nat) (ignoreFinalStates : Bool) (handleTimeout : Nat)
    (restElement : Obj) (w : Waiting) (verdict : Verdict PyException Bool)
    (result : EStateM.Result PyException Waiting Bool) : Prop where
  | raise (e : PyException) (s' : Session) (hverdict : verdict = .raise e)
      (hresult : result = .error e ⟨s', w.polls + 1⟩)
  | stop (found : Bool) (s' : Session) (hverdict : verdict = .stop found)
      (hresult : result = .ok found ⟨s', w.polls + 1⟩)
  | wait (found : Obj) (s' : Session) (hverdict : verdict = .wait)
      (hrun : (self.getAgain py server restElement).run w.session = .ok found s')
      (hresult : result = (self.waitFrom py server status timeout ignoreFinalStates
        (handleTimeout + defSleep) found).run ⟨s', w.polls + 1⟩)

theorem round_of_le {handleTimeout : Nat} (hin : handleTimeout ≤ timeout) (restElement : Obj)
    (w : Waiting) :
    Round py self server status timeout ignoreFinalStates handleTimeout restElement w
      ((self.reports py server 0 restElement w.session).verdict status ignoreFinalStates)
      ((self.waitFrom py server status timeout ignoreFinalStates handleTimeout
        restElement).run w) := by
  rw [waitFrom, if_pos hin, EStateM.run_bind, run_asking]
  cases hrun : (self.getAgain py server restElement).run w.session with
  | error e s' =>
    rw [reports_of_error hrun]
    exact .raise e s' rfl rfl
  | ok found s' =>
    rw [reports_zero hrun]
    simp only [EStateM.run_bind, run_fromExcept, elemStat_eq]
    cases report py found with
    | raises e => exact .raise e s' rfl rfl
    | noStatus => exact .stop false s' rfl rfl
    | noneStatus => exact .raise _ s' rfl rfl
    | status text =>
      simp only [branches_eq]
      cases hcase : (Report.status text).verdict status ignoreFinalStates with
      | wait => exact .wait found s' rfl hrun rfl
      | stop value => exact .stop value s' rfl rfl
      | raise e => exact .raise e s' rfl rfl

/-- The loop is a polling of what the server reports. -/
theorem run_waitFrom (rounds handleTimeout : Nat)
    (hrounds : (timeout + defSleep - handleTimeout) / defSleep = rounds) (restElement : Obj)
    (w : Waiting) :
    ∃ t, (self.waitFrom py server status timeout ignoreFinalStates handleTimeout
        restElement).run w =
      outcomeIn t (poll false rounds
        (verdicts py self server status ignoreFinalStates restElement w.session)).1 ∧
      t.polls = w.polls + (poll false rounds
        (verdicts py self server status ignoreFinalStates restElement w.session)).2 := by
  induction rounds generalizing handleTimeout restElement w with
  | zero =>
    have hover : ¬ handleTimeout ≤ timeout := by
      unfold defSleep at hrounds
      omega
    rw [waitFrom, if_neg hover]
    exact ⟨w, rfl, rfl⟩
  | succ rounds ih =>
    have hin : handleTimeout ≤ timeout := by
      unfold defSleep at hrounds
      omega
    have hnext : (timeout + defSleep - (handleTimeout + defSleep)) / defSleep = rounds := by
      unfold defSleep at hrounds ⊢
      omega
    cases @round_of_le Obj py self server status timeout ignoreFinalStates _ hin restElement
      w with
    | raise e s' hverdict hresult =>
      rw [poll_of_raise hverdict]
      exact ⟨_, hresult, rfl⟩
    | stop found s' hverdict hresult =>
      rw [poll_of_stop hverdict]
      exact ⟨_, hresult, rfl⟩
    | wait found s' hverdict hrun hresult =>
      rw [poll_of_wait hverdict, verdicts_succ hrun]
      obtain ⟨t, hrun', hpolls⟩ := ih _ hnext found ⟨s', w.polls + 1⟩
      refine ⟨t, hresult.trans hrun', hpolls.trans ?_⟩
      rw [Nat.add_assoc, Nat.add_comm 1]

/-- What is neither requested nor final is waited on, if it can be read. -/
theorem Report.waits_of_not_raising {report : Report} (hraising : ¬ report.Raising)
    (hrequested : ¬ report.Requested status) (hfinal : ¬ report.Final ignoreFinalStates) :
    report.Waits status ignoreFinalStates := by
  refine ⟨hrequested, hfinal, ?_⟩
  cases report with
  | raises e => exact absurd (Or.inr ⟨e, rfl⟩) hraising
  | noStatus => exact absurd trivial hfinal
  | noneStatus => exact absurd trivial hfinal
  | status text => exact ⟨text, rfl⟩

variable {restElement : Obj} {w : Waiting}

/-- Of polls that can be read, the first that is requested comes after polls to wait on. -/
theorem exists_first_requested
    (hreadable : self.Readable py server status timeout ignoreFinalStates restElement w)
    {i : Nat} (hi : i ≤ timeout / defSleep)
    (hrequested : (self.reports py server i restElement w.session).Requested status)
    (hfinal : ∀ j < i,
      ¬ (self.reports py server j restElement w.session).Final ignoreFinalStates) :
    ∃ k ≤ timeout / defSleep,
      (∀ j < k,
        (self.reports py server j restElement w.session).Waits status ignoreFinalStates) ∧
      (self.reports py server k restElement w.session).Requested status := by
  induction i using Nat.strongRecOn with
  | ind i ih =>
    by_cases hearlier : ∃ j < i,
        (self.reports py server j restElement w.session).Requested status
    · obtain ⟨j, hj, hrequested'⟩ := hearlier
      exact ih j hj (by omega) hrequested' fun k hk => hfinal k (by omega)
    · refine ⟨i, hi, fun j hj => ?_, hrequested⟩
      induction j using Nat.strongRecOn with
      | ind j ihj =>
        have hwaits := hreadable j (by omega) fun k hk => ihj k hk (by omega)
        exact Report.waits_of_not_raising hwaits (fun h => hearlier ⟨j, hj, h⟩) (hfinal j hj)

/-- The polling ends with a value exactly if every poll that is reached can be read. -/
theorem poll_returns_iff_readable :
    (∃ found, (poll false (timeout / defSleep + 1)
        (verdicts py self server status ignoreFinalStates restElement w.session)).1 =
      .ok found) ↔
      self.Readable py server status timeout ignoreFinalStates restElement w := by
  rw [poll_returns_iff]
  unfold Readable
  simp only [WaitsUntil, verdicts, Report.verdict_eq_wait_iff, Nat.lt_succ_iff,
    ← @Report.verdict_eq_raise_iff status ignoreFinalStates, not_exists, Ne]

/-- It ends with `True` exactly if a requested status is shown before any that is final. -/
theorem poll_true_iff
    (hreadable : self.Readable py server status timeout ignoreFinalStates restElement w) :
    (poll false (timeout / defSleep + 1)
        (verdicts py self server status ignoreFinalStates restElement w.session)).1 =
      .ok true ↔
      ∃ i ≤ timeout / defSleep,
        (self.reports py server i restElement w.session).Requested status ∧
          ∀ j < i,
            ¬ (self.reports py server j restElement w.session).Final ignoreFinalStates := by
  rw [poll_eq_ok_iff (by decide)]
  simp only [WaitsUntil, verdicts, Report.verdict_eq_wait_iff, Report.verdict_eq_true_iff,
    Nat.lt_succ_iff]
  constructor
  · rintro ⟨i, hi, hwaits, hrequested⟩
    exact ⟨i, hi, hrequested, fun j hj => (hwaits j hj).2.1⟩
  · rintro ⟨i, hi, hrequested, hfinal⟩
    exact exists_first_requested hreadable hi hrequested hfinal

/-- What the wait makes of the polls, where final states are not ignored: its outcome, and how many
of them there are. -/
def waitOn (status : Text) (timeout : Nat) (reports : Nat → Report) :
    Except PyException Bool × Nat :=
  poll false (timeout / defSleep + 1) fun i => (reports i).verdict status false

/-- The wait of the source comes to what `waitOn` makes of the reports of the server. -/
theorem run_waitForElemStatus (restElement : Obj) (w : Waiting) :
    ∃ t, (self.waitForElemStatus py server restElement status timeout false).run w =
        outcomeIn t (waitOn status timeout fun i =>
          self.reports py server i restElement w.session).1 ∧
      t.polls = w.polls + (waitOn status timeout fun i =>
        self.reports py server i restElement w.session).2 := by
  have hrounds : (timeout + defSleep - 0) / defSleep = timeout / defSleep + 1 := by
    unfold defSleep
    omega
  exact run_waitFrom _ 0 hrounds restElement w

/-- A wait that ends with its first poll. -/
theorem run_waitForElemStatus_of_stop {found restElement : Obj} {w : Waiting} {s : Session}
    {value : Bool} (hrun : (self.getAgain py server restElement).run w.session = .ok found s)
    (hverdict : (report py found).verdict status ignoreFinalStates = .stop value) :
    (self.waitForElemStatus py server restElement status timeout ignoreFinalStates).run w =
      .ok value ⟨s, w.polls + 1⟩ := by
  unfold waitForElemStatus
  rw [waitFrom, if_pos (Nat.zero_le _), EStateM.run_bind, run_asking, hrun]
  simp only [EStateM.run_bind, run_fromExcept, elemStat_eq]
  cases hreport : report py found with
  | raises e =>
    rw [hreport] at hverdict
    exact nomatch hverdict
  | noneStatus =>
    rw [hreport] at hverdict
    exact nomatch hverdict
  | noStatus =>
    rw [hreport] at hverdict
    cases hverdict
    rfl
  | status text =>
    rw [hreport] at hverdict
    simp only [branches_eq, hverdict]
    rfl

/-- It comes to `True` exactly if the first poll that is not waited on shows a requested status. -/
theorem waitOn_eq_true_iff {reports : Nat → Report} :
    (waitOn status timeout reports).1 = .ok true ↔
      ∃ i ≤ timeout / defSleep, (reports i).Requested status ∧
        ∀ j < i, (reports j).Waits status false := by
  unfold waitOn
  rw [poll_eq_ok_iff (by decide)]
  simp only [WaitsUntil, Report.verdict_eq_wait_iff, Report.verdict_eq_true_iff, Nat.lt_succ_iff]
  exact exists_congr fun i => and_congr_right fun _ => and_comm

/-- The wait answers as it should exactly if no poll that it reaches has a status that is
`None`, and no request raises. -/
theorem answers_iff :
    self.Answers py server status timeout ignoreFinalStates restElement w ↔
      self.Readable py server status timeout ignoreFinalStates restElement w := by
  have hrounds : (timeout + defSleep - 0) / defSleep = timeout / defSleep + 1 := by
    unfold defSleep
    omega
  obtain ⟨t, hrun, hpolls⟩ := @run_waitFrom Obj py self server status timeout
    ignoreFinalStates _ 0 hrounds restElement w
  unfold Answers waitForElemStatus
  constructor
  · rintro ⟨found, t', hok, -, -⟩
    rw [hrun] at hok
    refine poll_returns_iff_readable.mp ⟨found, ?_⟩
    revert hok
    cases (poll false (timeout / defSleep + 1)
        (verdicts py self server status ignoreFinalStates restElement w.session)).1 with
    | error e =>
      intro hok
      cases hok
    | ok value =>
      intro hok
      cases hok
      rfl
  · intro hreadable
    obtain ⟨found, hfound⟩ := poll_returns_iff_readable.mpr hreadable
    have htrue := poll_true_iff hreadable
    rw [hfound, Except.ok.injEq] at htrue
    refine ⟨found, t, ?_, ?_, htrue⟩
    · rw [hrun, hfound]
      rfl
    · rw [hpolls]
      exact Nat.add_le_add_left polls_le _

end

/-- For every server, element, list of statuses, time and flag: the wait ends with a boolean,
after at most one poll more than there are sleeps in the time, and it is true exactly if a
requested status is shown before any poll that is final, exactly if no poll that comes after
statuses to wait on has a status that is `None`, or raises. -/
theorem wait_for_elem_status_iff {Obj : Type} (py : Objects Obj) (self : RestUtil)
    (server : Nat → Except PyException Reply) (status : Text) (timeout : Nat)
    (ignoreFinalStates : Bool) (restElement : Obj) (w : Waiting) :
    self.Answers py server status timeout ignoreFinalStates restElement w ↔
      self.Readable py server status timeout ignoreFinalStates restElement w :=
  answers_iff

/-! ## An element without a status -/

/-- `None`, a text, or an element with its status. -/
inductive Doc where
  | none
  | text (text : Text)
  | element (status : Option Text)
  deriving DecidableEq

/-- The attributes of an element: its address and its status. -/
def Doc.getattr : Doc → Text → Except PyException Doc
  | .element status, name =>
    if name = "href".toList then .ok (.text "/ovirt-engine/api/hosts/1".toList)
    else if name = "status".toList then .ok (match status with
      | .none => .none
      | some status => .text status)
    else .error (.attributeError name)
  | _, name => .error (.attributeError name)

/-- Objects of which each body is the status of an element, none if it is empty. -/
def docObjects : Objects Doc where
  none := .none
  text := .text
  list _ := .none
  truthy doc := doc ≠ .none
  equal doc other := doc = other
  isList _ := false
  isFault _ := false
  asText
    | .text text => some text
    | _ => Option.none
  str _ := []
  items _ := .ok []
  getattr := Doc.getattr
  call _ := .error (.external "TypeError")
  parse body := .ok (.element (if body.isEmpty then Option.none else some body))
  dumpEntity _ _ := .ok []
  compareElements _ _ _ := .ok true
  assertValid _ := .ok ()
  expand href _ := .ok href
  makeAction _ _ := .ok .none
  apiError _ _ _ := .none

/-- A server that reports an element without a value for its status. -/
def statuslessServer : Nat → Except PyException Reply := fun _ => .ok (bareReply 200 Option.none)

/-- A status that is `None` raises. -/
theorem none_status_raises :
    (∃ t, (hostApi.waitForElemStatus docObjects statuslessServer (.element Option.none)
        "up".toList 900 false).run ⟨Session.init adminOpts, 0⟩ =
      .error (.attributeError "lower".toList) t) ∧
      ¬ hostApi.Answers docObjects statuslessServer "up".toList 900 false
        (.element Option.none) ⟨Session.init adminOpts, 0⟩ := by
  have hreport : hostApi.reports docObjects statuslessServer 0 (.element Option.none)
      (Session.init adminOpts) = .noneStatus := by decide
  constructor
  · obtain ⟨t, hrun, _⟩ := @run_waitFrom Doc docObjects hostApi statuslessServer "up".toList 900
      false 91 0 (by decide) (.element Option.none) ⟨Session.init adminOpts, 0⟩
    refine ⟨t, hrun.trans ?_⟩
    rw [poll_of_raise (by rw [verdicts, hreport]; rfl), outcomeIn]
  · rw [answers_iff]
    exact fun hreadable => hreadable 0 (Nat.zero_le _)
      (fun j hj => absurd hj (Nat.not_lt_zero j)) (Or.inl hreport)

end RestUtil

end OvirtArt.CoreApi
