import OvirtArt.Foundation.Effects
import OvirtArt.Utils.InventoryDumps

set_option autoImplicit false

/-!
# `pytest_customization/_pytest_art/leftoversinfo.py`

The hooks that dump the state of the engine around the package of each team, and collect
what has changed for the report.

The hooks are called in the order of the packages.  A dump is any state of the engine or an
exception; its comparison is that of the inventory, and the log is left out.
-/

namespace OvirtArt.PytestArt.Leftovers

open OvirtArt.Foundation OvirtArt.Utils.Inventory

/-- What a hook can raise. -/
inductive HookException where
  | inventory (exception : PyException)
  | unicodeEncodeError
  deriving DecidableEq

/-- The attributes of the plugin. -/
structure LeftoversInfo (α : Type) where
  summary : AList fun _ : String => GeDiff α := ∅
  geState : GeState α := fun _ => none
  team : Option String := none

/-- A hook, which keeps what it has stored if it raises. -/
abbrev Hook (α β : Type) := EStateM HookException (LeftoversInfo α) β

/-- A row of a table: the attributes of a resource. -/
abbrev Row (α : Type) := List (String × Value α)

section

variable {α : Type}

/-- A call of the inventory. -/
def call {β : Type} (result : Except PyException β) : Hook α β :=
  fromExcept (result.mapError HookException.inventory)

theorem run_call_eq_ok_iff {β : Type} {result : Except PyException β} {s t : LeftoversInfo α}
    {b : β} : (call result).run s = .ok b t ↔ result = .ok b ∧ s = t := by
  unfold call
  rw [run_fromExcept_eq_ok_iff]
  cases result with
  | ok a =>
    change (Except.ok a : Except HookException β) = .ok b ∧ s = t ↔ _
    simp
  | error e =>
    change (Except.error (.inventory e) : Except HookException β) = .ok b ∧ s = t ↔ _
    simp

/-! ## The table of what is there -/

/-- `short_report_attrs`. -/
def shortReportAttrs : List String := ["name", "status"]

/-- `ignore_rsrc_names`. -/
def ignoreRsrcNames (α : Type) : List (Value α) := [.text "OVF_STORE"]

/-- `resource_dict`. -/
def shortRow (resource : Resource α) : Row α :=
  shortReportAttrs.filterMap fun attr =>
    (resource.items.lookup attr).map fun value => (attr, value)

/-- `short_summary[resource_type]`. -/
def shortSummary [DecidableEq α] (resources : List (Resource α)) : List (Row α) :=
  (resources.filter fun resource => resource.name ∉ ignoreRsrcNames α).map shortRow

/-- Whether a text can be put into a byte string. -/
def isAscii (text : String) : Bool := text.toList.all fun char => decide (char.toNat < 128)

/-- The section of the report for one type, which is a byte string. -/
def formatSection (resourceType table : String) : Except HookException String :=
  if isAscii table then
    .ok ("\n" ++ resourceType.capitalize ++ "\n" ++
      String.ofList (List.replicate resourceType.length '*') ++ "\n" ++ table)
  else .error .unicodeEncodeError

section

variable [DecidableEq α] (tabulate : List (Row α) → String)

/-- The sections of the types that were dumped. -/
def fullShortSummary (geState : GeState α) : Except HookException (List String) :=
  resourceTypesToDump.foldlM (fun sections resourceType =>
    match geState resourceType.collection with
    | none => .ok sections
    | some resources =>
      (formatSection resourceType.collection (tabulate (shortSummary resources))).map
        fun text => sections ++ [text]) []

/-- `pretty_print_ge_state_report`. -/
def prettyPrintGeStateReport : Hook α String := do
  let self ← get
  let sections ← fromExcept (fullShortSummary tabulate self.geState)
  return String.intercalate "\n" sections

/-! ## The hooks -/

/-- `if self.team`. -/
def LeftoversInfo.currentTeam (self : LeftoversInfo α) : Option String :=
  self.team.filter fun team => team ≠ ""

/-- `pytest_rhv_teardown`. -/
def pytestRhvTeardown (engine : Engine α) (team : String) : Hook α Unit := do
  let newGeState ← call (getSummaryReport engine)
  let self ← get
  let diffSummary ← call (compareGeState self.geState newGeState)
  set { self with summary := self.summary.insert team diffSummary }

/-- The call of `pytest_rhv_teardown` for the team that is running. -/
def teardownCurrent (engine : Engine α) : Hook α Unit := do
  let self ← get
  match self.currentTeam with
  | some team => pytestRhvTeardown engine team
  | none => pure ()

/-- `pytest_rhv_setup`, where the previous team's teardown and the setup of this one see
the engine one after the other. -/
def pytestRhvSetup (before start : Engine α) (team : String) : Hook α Unit := do
  teardownCurrent before
  let geState ← call (getSummaryReport start)
  let self ← get
  set { self with geState := geState, team := some team }
  let _ ← prettyPrintGeStateReport tabulate

/-- `pytest_unconfigure`: what is written into the file. -/
def pytestUnconfigure (finish : Engine α) : Hook α (AList fun _ : String => GeDiff α) := do
  teardownCurrent finish
  let self ← get
  return self.summary

/-- The package of a team, with the engine as it is at its start and at its end. -/
structure Package (α : Type) where
  team : String
  start : Engine α
  finish : Engine α

/-- The hooks of a run: a setup for each package, which also ends the package before, and
the end of the run. -/
def runPackages : Engine α → List (Package α) → Hook α (AList fun _ : String => GeDiff α)
  | before, [] => pytestUnconfigure before
  | before, package :: rest => do
      pytestRhvSetup tabulate before package.start package.team
      runPackages package.finish rest

/-! ## When the hooks return -/

/-- The tables of an engine can be put into the message. -/
def Printable (engine : Engine α) : Prop :=
  ∀ collection ∈ collections, ∀ resources, dumped engine collection = some resources →
    isAscii (tabulate (shortSummary resources)) = true

theorem fullShortSummary_returns_iff {engine : Engine α} :
    (∃ sections, fullShortSummary tabulate (dumpedState engine) = .ok sections) ↔
      Printable tabulate engine := by
  unfold fullShortSummary Printable collections
  rw [List.forall_mem_map]
  refine (@foldlM_returns_iff _ _ _ _ (fun resourceType : ResourceType =>
    ∀ resources, dumpedState engine resourceType.collection = some resources →
      isAscii (tabulate (shortSummary resources)) = true) ?_ _ _).trans ?_
  · intro sections resourceType
    cases dumpedState engine resourceType.collection with
    | none => simp
    | some resources =>
      unfold formatSection
      cases hascii : isAscii (tabulate (shortSummary resources)) with
      | false => simp [hascii, Except.map]
      | true => simp [hascii, Except.map]
  · refine forall_congr' fun resourceType => forall_congr' fun hmem => ?_
    have hcollection : resourceType.collection ∈ collections := List.mem_map_of_mem hmem
    unfold dumpedState
    rw [if_pos hcollection]

variable {s t : LeftoversInfo α} {report : AList fun _ : String => GeDiff α} {package : Package α}
  {entries : List (Sigma fun _ : String => GeDiff α)} {finish : Engine α} {team : String}

/-- The teardown of a package whose start was dumped returns exactly if its end is dumped
and compared, and then the difference is stored under the name of the team. -/
theorem run_pytestRhvTeardown_iff :
    (pytestRhvTeardown finish team).run s = .ok ⟨⟩ t ↔
      DumpsAll finish ∧ ∃ diff, compareGeState s.geState (dumpedState finish) = .ok diff ∧
        t = { s with summary := s.summary.insert team diff } := by
  unfold pytestRhvTeardown
  rw [run_bind_eq_ok_iff]
  simp only [run_call_eq_ok_iff, getSummaryReport_eq_ok_iff, run_bind_eq_ok_iff]
  constructor
  · rintro ⟨_, _, ⟨⟨hall, rfl⟩, rfl⟩, _, _, hget, diff, _, ⟨hdiff, rfl⟩, hset⟩
    cases hget
    cases hset
    exact ⟨hall, diff, hdiff, rfl⟩
  · rintro ⟨hall, diff, hdiff, rfl⟩
    exact ⟨_, _, ⟨⟨hall, rfl⟩, rfl⟩, s, s, rfl, diff, s, ⟨hdiff, rfl⟩, rfl⟩

theorem run_teardownCurrent_of_none (h : s.currentTeam = none) :
    (teardownCurrent finish).run s = .ok ⟨⟩ s := by
  unfold teardownCurrent
  rw [EStateM.run_bind, EStateM.run_get]
  simp only [h]
  rfl

theorem run_teardownCurrent_of_some (h : s.currentTeam = some team) :
    (teardownCurrent finish).run s = (pytestRhvTeardown finish team).run s := by
  unfold teardownCurrent
  rw [EStateM.run_bind, EStateM.run_get]
  simp only [h]

/-- The setup of a package returns exactly if the previous one is ended, and the engine is
dumped and printed. -/
theorem run_pytestRhvSetup_iff {before start : Engine α} {u : LeftoversInfo α} :
    (pytestRhvSetup tabulate before start team).run s = .ok ⟨⟩ u ↔
      ∃ t, (teardownCurrent before).run s = .ok ⟨⟩ t ∧
        (DumpsAll start ∧ Printable tabulate start) ∧
          u = { t with geState := dumpedState start, team := some team } := by
  unfold pytestRhvSetup prettyPrintGeStateReport
  rw [run_bind_eq_ok_iff]
  simp only [run_call_eq_ok_iff, getSummaryReport_eq_ok_iff, run_bind_eq_ok_iff,
    run_fromExcept_eq_ok_iff]
  constructor
  · rintro ⟨_, t, hend, _, _, ⟨⟨hall, rfl⟩, rfl⟩, _, _, hget, _, _, hset, _, _,
      ⟨_, _, hself, sections, _, ⟨hsections, rfl⟩, htext⟩, hdone⟩
    cases hget
    cases hset
    cases hself
    cases htext
    cases hdone
    exact ⟨t, hend, ⟨hall, (fullShortSummary_returns_iff tabulate).mp ⟨sections, hsections⟩⟩,
      rfl⟩
  · rintro ⟨t, hend, ⟨hall, hprintable⟩, rfl⟩
    obtain ⟨sections, hsections⟩ := (fullShortSummary_returns_iff tabulate).mpr hprintable
    exact ⟨⟨⟩, t, hend, _, t, ⟨⟨hall, rfl⟩, rfl⟩, t, t, rfl, ⟨⟩, _, rfl, _, _,
      ⟨_, _, rfl, sections, _, ⟨hsections, rfl⟩, rfl⟩, rfl⟩

/-! ## A package while it runs -/

/-- The setup of a package has returned. -/
structure Started (package : Package α) (s : LeftoversInfo α) : Prop where
  team : s.team = some package.team
  geState : s.geState = dumpedState package.start
  dumps : DumpsAll package.start

/-- The engine at the start of a package is dumped and printed. -/
def Starts (package : Package α) : Prop :=
  DumpsAll package.start ∧ Printable tabulate package.start

/-- The engine at the end of a package is dumped, and compared with the start. -/
def Ends (package : Package α) : Prop :=
  DumpsAll package.finish ∧ CanCompare package.start package.finish

variable {tabulate}

theorem run_pytestRhvSetup {before : Engine α} (hend : (teardownCurrent before).run s = .ok ⟨⟩ t)
    (hstart : Starts tabulate package) :
    (pytestRhvSetup tabulate before package.start package.team).run s =
      .ok ⟨⟩ { t with geState := dumpedState package.start, team := some package.team } :=
  (run_pytestRhvSetup_iff tabulate).mpr ⟨t, hend, hstart, rfl⟩

omit [DecidableEq α] in
theorem currentTeam_of_started (h : Started package s) (hne : package.team ≠ "") :
    s.currentTeam = some package.team := by
  unfold LeftoversInfo.currentTeam
  rw [h.team]
  exact Option.filter_some_pos (decide_eq_true hne)

/-- The end of a package is stored under the name of its team. -/
theorem run_teardownCurrent_iff (h : Started package s) (hne : package.team ≠ "") :
    (teardownCurrent package.finish).run s = .ok ⟨⟩ t ↔
      DumpsAll package.finish ∧ ∃ diff,
        compareGeState (dumpedState package.start) (dumpedState package.finish) = .ok diff ∧
          t = { s with summary := s.summary.insert package.team diff } := by
  rw [run_teardownCurrent_of_some (currentTeam_of_started h hne), run_pytestRhvTeardown_iff,
    h.geState]

theorem exists_teardownCurrent (h : Started package s) (hne : package.team ≠ "")
    (hends : Ends package) :
    ∃ diff, IsDiff package.start package.finish diff ∧
      (teardownCurrent package.finish).run s =
        .ok ⟨⟩ { s with summary := s.summary.insert package.team diff } := by
  obtain ⟨diff, hdiff⟩ := (compareGeState_returns_iff h.dumps hends.1).mpr hends.2
  exact ⟨diff, isDiff_of_compareGeState hdiff,
    (run_teardownCurrent_iff h hne).mpr ⟨hends.1, diff, hdiff, rfl⟩⟩

/-- A package that has ended leaves no key but the name of its team, which is not empty. -/
theorem ended_of_run (h : Started package s)
    (hrun : (teardownCurrent package.finish).run s = .ok ⟨⟩ t) :
    (package.team ≠ "" → Ends package) ∧
      ∀ key ∈ t.summary, key ∈ s.summary ∨ key = package.team ∧ key ≠ "" := by
  by_cases hne : package.team = ""
  · have hcurrent : s.currentTeam = none := by
      unfold LeftoversInfo.currentTeam
      rw [h.team, hne]
      rfl
    rw [run_teardownCurrent_of_none hcurrent] at hrun
    cases hrun
    exact ⟨fun hne' => absurd hne hne', fun _ hkey => Or.inl hkey⟩
  · obtain ⟨hall, diff, hdiff, rfl⟩ := (run_teardownCurrent_iff h hne).mp hrun
    refine ⟨fun _ => ⟨hall, (compareGeState_returns_iff h.dumps hall).mp ⟨diff, hdiff⟩⟩, ?_⟩
    intro key hkey
    rcases (AList.mem_insert _).mp hkey with rfl | hold
    · exact Or.inr ⟨rfl, hne⟩
    · exact Or.inl hold

theorem run_pytestUnconfigure_iff :
    (pytestUnconfigure finish).run s = .ok report t ↔
      (teardownCurrent finish).run s = .ok ⟨⟩ t ∧ report = t.summary := by
  unfold pytestUnconfigure
  rw [run_bind_eq_ok_iff]
  constructor
  · rintro ⟨_, _, hend, hrest⟩
    cases hrest
    exact ⟨hend, rfl⟩
  · rintro ⟨hend, rfl⟩
    exact ⟨⟨⟩, t, hend, rfl⟩

/-! ## Whole runs -/

/-- A run that returns has started all packages and ended those whose team has a name, and
its report has no other keys than these names. -/
theorem of_runPackages {rest : List (Package α)} (h : Started package s)
    (hrun : (runPackages tabulate package.finish rest).run s = .ok report t) :
    (∀ other ∈ rest, Starts tabulate other) ∧
      (∀ other ∈ package :: rest, other.team ≠ "" → Ends other) ∧
        ∀ key ∈ report, key ∈ s.summary ∨
          key ≠ "" ∧ ∃ other ∈ package :: rest, other.team = key := by
  induction rest generalizing package s with
  | nil =>
    obtain ⟨hend, rfl⟩ := run_pytestUnconfigure_iff.mp hrun
    obtain ⟨hends, hkeys⟩ := ended_of_run h hend
    refine ⟨fun _ hother => absurd hother List.not_mem_nil, ?_, fun key hkey => ?_⟩
    · intro other hother
      rw [List.mem_singleton.mp hother]
      exact hends
    · exact (hkeys key hkey).imp_right fun hteam =>
        ⟨hteam.2, package, List.mem_cons_self, hteam.1.symm⟩
  | cons next rest ih =>
    obtain ⟨_, u, hsetup, hrest⟩ := run_bind_eq_ok_iff.mp hrun
    obtain ⟨middle, hend, hstarts, rfl⟩ := (run_pytestRhvSetup_iff tabulate).mp hsetup
    obtain ⟨hends, hkeys⟩ := ended_of_run h hend
    obtain ⟨hstartsRest, hendsRest, hkeysRest⟩ := ih ⟨rfl, rfl, hstarts.1⟩ hrest
    refine ⟨List.forall_mem_cons.mpr ⟨hstarts, hstartsRest⟩,
      List.forall_mem_cons.mpr ⟨hends, hendsRest⟩, fun key hkey => ?_⟩
    rcases hkeysRest key hkey with hold | ⟨hne, other, hother, hteam⟩
    · exact (hkeys key hold).imp_right fun hteam =>
        ⟨hteam.2, package, List.mem_cons_self, hteam.1.symm⟩
    · exact Or.inr ⟨hne, other, List.mem_cons_of_mem _ hother, hteam⟩

/-- An entry of the report that is right for a package. -/
def EntryOf (package : Package α) (entry : Sigma fun _ : String => GeDiff α) : Prop :=
  entry.1 = package.team ∧ IsDiff package.start package.finish entry.2

/-- Where all packages start and end, and their teams have different names, each gets its
entry. -/
theorem exists_runPackages {rest : List (Package α)} (h : Started package s)
    (hstarts : ∀ other ∈ rest, Starts tabulate other)
    (hends : ∀ other ∈ package :: rest, Ends other)
    (hnames : ∀ other ∈ package :: rest, other.team ≠ "")
    (hnodup : ((package :: rest).map Package.team).Nodup)
    (hnew : ∀ other ∈ package :: rest, other.team ∉ s.summary) :
    ∃ report t, (runPackages tabulate package.finish rest).run s = .ok report t ∧
      ∃ entries, List.Forall₂ EntryOf (package :: rest) entries ∧
        report.entries.Perm (entries ++ s.summary.entries) := by
  obtain ⟨diff, hdiff, hend⟩ := exists_teardownCurrent h
    (hnames package List.mem_cons_self) (hends package List.mem_cons_self)
  have hentries : (s.summary.insert package.team diff).entries =
      ⟨package.team, diff⟩ :: s.summary.entries :=
    AList.entries_insert_of_notMem (hnew package List.mem_cons_self)
  induction rest generalizing package s diff with
  | nil =>
    refine ⟨_, _, run_pytestUnconfigure_iff.mpr ⟨hend, rfl⟩, [⟨package.team, diff⟩],
      List.Forall₂.cons ⟨rfl, hdiff⟩ List.Forall₂.nil, ?_⟩
    rw [hentries]
    exact List.Perm.refl _
  | cons next rest ih =>
    obtain ⟨hstart, hstartsRest⟩ := List.forall_mem_cons.mp hstarts
    obtain ⟨_, hendsRest⟩ := List.forall_mem_cons.mp hends
    obtain ⟨_, hnamesRest⟩ := List.forall_mem_cons.mp hnames
    obtain ⟨_, hnewRest⟩ := List.forall_mem_cons.mp hnew
    rw [List.map_cons, List.nodup_cons] at hnodup
    have hsetup := run_pytestRhvSetup hend hstart
    have hstarted : Started next
        { s with
          summary := s.summary.insert package.team diff
          geState := dumpedState next.start
          team := some next.team } := ⟨rfl, rfl, hstart.1⟩
    have hnew' : ∀ other ∈ next :: rest,
        other.team ∉ s.summary.insert package.team diff := fun other hother hmem => by
      rcases (AList.mem_insert _).mp hmem with heq | hold
      · exact hnodup.1 (heq ▸ List.mem_map_of_mem hother)
      · exact hnewRest other hother hold
    obtain ⟨diff', hdiff', hend'⟩ := exists_teardownCurrent hstarted
      (hnamesRest next List.mem_cons_self) (hendsRest next List.mem_cons_self)
    obtain ⟨report, t, hrun, entries, hall, hperm⟩ := ih hstarted hstartsRest hendsRest
      hnamesRest hnodup.2 hnew' diff' hdiff' hend'
      (AList.entries_insert_of_notMem (hnew' next List.mem_cons_self))
    refine ⟨report, t, run_bind_eq_ok_iff.mpr ⟨⟨⟩, _, hsetup, hrun⟩,
      ⟨package.team, diff⟩ :: entries, List.Forall₂.cons ⟨rfl, hdiff⟩ hall, ?_⟩
    refine hperm.trans ?_
    rw [hentries]
    exact List.perm_middle

/-- The run returns, and its report has an entry for each package. -/
def ReportRight (tabulate : List (Row α) → String) (before : Engine α)
    (packages : List (Package α)) : Prop :=
  ∃ report info, (runPackages tabulate before packages).run {} = .ok report info ∧
    ∃ entries, List.Forall₂ EntryOf packages entries ∧ entries.Subperm report.entries

omit [DecidableEq α] in
/-- The teams of the entries are among the keys of the report. -/
theorem teams_subperm (h : entries.Subperm report.entries) :
    (entries.map Sigma.fst).Subperm report.keys := by
  obtain ⟨reordered, hperm, hsub⟩ := h
  exact ⟨reordered.map Sigma.fst, hperm.map Sigma.fst, hsub.map Sigma.fst⟩

theorem keys_of_entryOf {packages : List (Package α)} (h : List.Forall₂ EntryOf packages entries) :
    packages.map Package.team = entries.map Sigma.fst := by
  induction h with
  | nil => rfl
  | cons hentry _ ih => rw [List.map_cons, List.map_cons, hentry.1, ih]

end

/-- An engine whose list of networks fails, and is empty otherwise. -/
def networksFail : Engine Nat := fun collection =>
  if collection = "networks" then none else some []

end

end OvirtArt.PytestArt.Leftovers
