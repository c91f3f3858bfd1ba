import OvirtArt.Foundation.Histories
import OvirtArt.Utils.CpuModelCommon

set_option autoImplicit false

/-!
# What the CPU model functions raise

Their callers are prepared for a `CpuModelError`.  Another exception comes of a version
without a list, of a host none of whose models is in the list, and of no hosts.

Each function has one equivalence without a hypothesis: it raises nothing but a `CpuModelError`
exactly under a condition on its arguments.
-/

namespace OvirtArt.Utils.CpuModel

open OvirtArt.CoreApi OvirtArt.Foundation

/-- What is raised, if anything, is a `CpuModelError`. -/
def Disciplined {α : Type} (result : Except PyException α) : Prop :=
  ∀ e, result = .error e → e.isCpuModelError = true

/-- The host tells its vendor. -/
def Replies (host : Host) : Prop := host.rc = 0 ∧ host.out.strip ≠ []

/-- The vendor of the host, where it is known. -/
def hostVendor (host : Host) : Option Text := idToVendor host.out.strip

/-- The loop over the vendors of the hosts runs to its end: all hosts reply, and after the
first known vendor there is no other one. -/
def VendorsAgree (hosts : List Host) : Prop :=
  (∀ host ∈ hosts, Replies host) ∧
    hosts.Pairwise fun first second =>
      hostVendor first ≠ none → hostVendor second = hostVendor first

namespace CpuModelDenominator

variable (self : CpuModelDenominator) (version : Option Text)

/-- A version is given, or there is a current one. -/
def HasList : Prop := version = none → ∃ entry ∈ self.cpus.entries, entry.2.current ≠ []

/-- If the host replies and the version is supported, the list of the version has a model of
the host. -/
def Answerable (host : Host) : Prop :=
  ∀ hostInfo, fetchHostCaps host = .ok hostInfo → ∀ list, self.getCpuList version = .ok list →
    ∃ cpus, list = .cpus cpus ∧ ∃ cpu ∈ cpus, cpu.model ∈ hostInfo.models

/-- The hosts have best models, all of this vendor. -/
def AgreeOn (vendor : Option Text) (hosts : List Host) : Prop :=
  ∀ host ∈ hosts, ∃ best, self.bestCpu version host = .ok best ∧ best.vendor = vendor

/-- There are hosts, and each of them that comes after hosts with best models of one vendor
can be answered. -/
def AnswerableInTurn (hosts : List Host) : Prop :=
  hosts ≠ [] ∧ AtEach (fun before host =>
    (∃ vendor, self.AgreeOn version vendor before) → self.Answerable version host) hosts

variable {self : CpuModelDenominator} {version : Option Text}

/-! ## One host -/

theorem disciplined_ok {α : Type} (a : α) : Disciplined (.ok a : Except PyException α) :=
  fun _ h => by cases h

variable {host : Host} {hostInfo : HostInfo} {vendor : Option Text} {e : PyException}
  {cpus : List Cpu}

theorem disciplined_error_iff {α : Type} :
    Disciplined (.error e : Except PyException α) ↔ e.isCpuModelError = true := by
  constructor
  · intro h
    exact h e rfl
  · rintro h e' he'
    obtain rfl := Except.error.inj he'
    exact h

/-- The list of a version: an exception as a value only where there is no current version. -/
theorem getCpuList_cases (self : CpuModelDenominator) (version : Option Text) :
    (∃ message, self.getCpuList version = .error (.cpuModelError message) ∧
        self.HasList version) ∨
      (∃ cpus, self.getCpuList version = .ok (.cpus cpus) ∧ self.HasList version) ∨
      ∃ message, self.getCpuList version = .ok (.exception message) ∧ ¬ self.HasList version := by
  cases version with
  | some version =>
    have hgiven : self.HasList (some version) := fun h => by cases h
    simp only [getCpuList]
    cases self.cpus.lookup version with
    | none => exact Or.inl ⟨_, rfl, hgiven⟩
    | some entry => exact Or.inr (Or.inl ⟨_, rfl, hgiven⟩)
  | none =>
    unfold getCpuList HasList
    cases hentries : self.cpus.entries.filter fun entry => !entry.2.current.isEmpty with
    | nil =>
      refine Or.inr (Or.inr ⟨_, rfl, fun h => ?_⟩)
      obtain ⟨entry, hmem, hcurrent⟩ := h rfl
      have hkept := List.filter_eq_nil_iff.mp hentries entry hmem
      simp [hcurrent] at hkept
    | cons entry rest =>
      have hkept : entry ∈ self.cpus.entries.filter fun entry => !entry.2.current.isEmpty := by
        rw [hentries]
        exact List.mem_cons_self
      obtain ⟨hmem, hcurrent⟩ := List.mem_filter.mp hkept
      refine Or.inr (Or.inl ⟨_, rfl, fun _ => ⟨entry, hmem, ?_⟩⟩)
      simpa using hcurrent

/-- A CPU is found, or an exception tells that there is none, where there is a list. -/
theorem disciplined_getCpuInfo_iff {key : Cpu → Option Text} {value : Option Text} :
    Disciplined (self.getCpuInfo key value version) ↔ self.HasList version := by
  rcases getCpuList_cases self version with
    ⟨message, h, hlist⟩ | ⟨cpus, h, hlist⟩ | ⟨message, h, hno⟩
  · refine iff_of_true ?_ hlist
    unfold getCpuInfo
    rw [h]
    exact disciplined_error_iff.mpr rfl
  · refine iff_of_true ?_ hlist
    cases hfind : cpus.find? fun cpu => key cpu = value with
    | some cpu =>
      rw [getCpuInfo_of_found h hfind]
      exact disciplined_ok cpu
    | none =>
      rw [getCpuInfo_of_not_found h hfind]
      exact disciplined_error_iff.mpr rfl
  · refine iff_of_false (fun hd => ?_) hno
    unfold getCpuInfo at hd
    rw [h] at hd
    exact absurd (hd .typeError rfl) (by decide)

theorem models_ne_nil (h : fetchHostCaps host = .ok hostInfo) : hostInfo.models ≠ [] := by
  unfold fetchHostCaps at h
  simp only at h
  split at h
  case isTrue => cases h
  case isFalse =>
    obtain rfl := Except.ok.inj h
    simp only
    split
    case isTrue => simp
    case isFalse hmodels =>
      intro hnil
      exact hmodels (List.isEmpty_iff.mpr (List.map_eq_nil_iff.mp hnil))

theorem replies_iff : Replies host ↔ ∃ hostInfo, fetchHostCaps host = .ok hostInfo := by
  unfold Replies fetchHostCaps
  simp only [List.isEmpty_iff]
  split
  case isTrue h =>
    refine iff_of_false ?_ fun ⟨_, h⟩ => by cases h
    rintro ⟨hrc, hvendor⟩
    rcases h with h | h
    · exact h hrc
    · exact hvendor h
  case isFalse h =>
    rw [not_or, not_not] at h
    exact iff_of_true h ⟨_, rfl⟩

theorem fetchHostCaps_error (h : fetchHostCaps host = .error e) : e.isCpuModelError = true := by
  unfold fetchHostCaps at h
  simp only at h
  split at h
  case isTrue =>
    obtain rfl := Except.error.inj h
    rfl
  case isFalse => cases h

theorem vendor_of_ok (h : fetchHostCaps host = .ok hostInfo) :
    idToVendor hostInfo.vendor = hostVendor host := by
  unfold fetchHostCaps at h
  simp only at h
  split at h
  case isTrue => cases h
  case isFalse =>
    obtain rfl := Except.ok.inj h
    rfl

theorem bestCpu_of_caps (h : fetchHostCaps host = .ok hostInfo) :
    self.bestCpu version host = (self.listCpuInfo hostInfo.models version).bind maxByLevel := by
  unfold bestCpu
  rw [h]
  rfl

/-- A host is known to the list by the models that it reports. -/
theorem known_iff (h : fetchHostCaps host = .ok hostInfo) :
    Known cpus host ↔ ∃ cpu ∈ cpus, cpu.model ∈ hostInfo.models := by
  constructor
  · intro ⟨cpu, hmem, info, hok, hmodel⟩
    obtain rfl := Except.ok.inj (h.symm.trans hok)
    exact ⟨cpu, hmem, hmodel⟩
  · intro ⟨cpu, hmem, hmodel⟩
    exact ⟨cpu, hmem, hostInfo, h, hmodel⟩

theorem found_eq_nil (hcaps : fetchHostCaps host = .ok hostInfo) (h : ¬ Known cpus host) :
    found cpus hostInfo.models = [] := by
  apply List.eq_nil_iff_forall_not_mem.mpr
  intro cpu hmem
  obtain ⟨hfirst, hmodel⟩ := mem_found.mp hmem
  exact h ((known_iff hcaps).mpr ⟨cpu, mem_of_isFirst hfirst, hmodel⟩)

/-- With a list of CPUs the search is disciplined exactly if the host is known to it. -/
theorem disciplined_bestCpu_of_cpus (hcaps : fetchHostCaps host = .ok hostInfo)
    (h : self.getCpuList version = .ok (.cpus cpus)) :
    Disciplined (self.bestCpu version host) ↔ Known cpus host := by
  by_cases hknown : Known cpus host
  · obtain ⟨best, hok, _⟩ := bestCpu_spec h hknown
    rw [hok]
    exact iff_of_true (disciplined_ok best) hknown
  · refine iff_of_false (fun hd => ?_) hknown
    rw [bestCpu_of_caps hcaps, listCpuInfo_eq h, found_eq_nil hcaps hknown] at hd
    exact absurd (hd .valueError rfl) (by decide)

/-- The search for the best model of a host is disciplined exactly if there is an answer. -/
theorem disciplined_bestCpu_iff :
    Disciplined (self.bestCpu version host) ↔ self.Answerable version host := by
  unfold Answerable
  cases hcaps : fetchHostCaps host with
  | error e =>
    refine iff_of_true ?_ fun _ h => by cases h
    unfold bestCpu
    rw [hcaps]
    exact disciplined_error_iff.mpr (fetchHostCaps_error hcaps)
  | ok hostInfo =>
    obtain ⟨model, models, hmodels⟩ := List.exists_cons_of_ne_nil (models_ne_nil hcaps)
    rcases getCpuList_cases self version with ⟨message, h, _⟩ | ⟨cpus, h, _⟩ | ⟨message, h, _⟩
    · refine iff_of_true ?_ fun _ _ list hlist => by rw [h] at hlist; cases hlist
      rw [bestCpu_of_caps hcaps]
      unfold listCpuInfo getCpuInfo
      rw [hmodels, List.foldlM_cons, h]
      exact disciplined_error_iff.mpr rfl
    · rw [disciplined_bestCpu_of_cpus hcaps h, known_iff hcaps]
      constructor
      · intro hknown info hinfo list hlist
        obtain rfl := Except.ok.inj hinfo
        obtain rfl := Except.ok.inj (h.symm.trans hlist)
        exact ⟨cpus, rfl, hknown⟩
      · intro hanswer
        obtain ⟨found, hfound, hknown⟩ := hanswer hostInfo rfl _ h
        obtain rfl := CpuList.cpus.inj hfound
        exact hknown
    · refine iff_of_false (fun hd => ?_) fun hanswer => ?_
      · rw [bestCpu_of_caps hcaps] at hd
        unfold listCpuInfo getCpuInfo at hd
        rw [hmodels, List.foldlM_cons, h] at hd
        exact absurd (hd .typeError rfl) (by decide)
      · obtain ⟨found, hfound, _⟩ := hanswer hostInfo rfl _ h
        cases hfound

/-! ## The loops over the hosts -/

variable {hosts : List Host} {replaces : Cpu → Cpu → Bool}

theorem AgreeOn.cons_iff {best : Cpu} (h : self.bestCpu version host = .ok best) :
    self.AgreeOn version vendor (host :: hosts) ↔
      best.vendor = vendor ∧ self.AgreeOn version vendor hosts := by
  unfold AgreeOn
  rw [List.forall_mem_cons]
  refine and_congr_left fun _ =>
    ⟨fun ⟨found, hfound, hvendor⟩ => ?_, fun hvendor => ⟨best, h, hvendor⟩⟩
  obtain rfl := Except.ok.inj (h.symm.trans hfound)
  exact hvendor

theorem not_agreeOn_of_error (h : self.bestCpu version host = .error e) (before : List Host) :
    ¬ self.AgreeOn version vendor (host :: before) := by
  intro hagree
  obtain ⟨best, hbest, _⟩ := hagree host List.mem_cons_self
  rw [h] at hbest
  cases hbest

theorem answerable_of_ok {best : Cpu} (h : self.bestCpu version host = .ok best) :
    self.Answerable version host := by
  apply disciplined_bestCpu_iff.mp
  rw [h]
  exact disciplined_ok best

/-- The loop ends at a host without a best model, whatever was selected before. -/
theorem disciplined_foldlM_of_error {selected : Option Cpu}
    (h : self.bestCpu version host = .error e) (rest : List Host) :
    Disciplined ((host :: rest).foldlM (self.consider replaces version) selected) ↔
      self.Answerable version host := by
  have hconsider : self.consider replaces version selected host = .error e := by
    unfold consider
    rw [h]
    rfl
  rw [List.foldlM_cons, hconsider, ← disciplined_bestCpu_iff, h]
  exact disciplined_error_iff.trans disciplined_error_iff.symm

/-- From a model of some vendor on, the loop is disciplined exactly if each host that comes
after hosts of this vendor can be answered. -/
theorem disciplined_from_iff :
    ∀ {selected : Cpu}, Disciplined (hosts.foldlM (self.consider replaces version) (some selected)) ↔
      AtEach (fun before host => self.AgreeOn version selected.vendor before →
        self.Answerable version host) hosts := by
  induction hosts with
  | nil => exact fun {selected} => iff_of_true (disciplined_ok _) atEach_nil
  | cons host rest ih =>
    intro selected
    rw [atEach_cons]
    have hfirst : self.AgreeOn version selected.vendor [] := fun _ hmem =>
      absurd hmem List.not_mem_nil
    rw [imp_iff_right hfirst]
    cases hbest : self.bestCpu version host with
    | error e =>
      have hrest : AtEach (fun before other => self.AgreeOn version selected.vendor
          (host :: before) → self.Answerable version other) rest :=
        fun before _ _ _ hagree => absurd hagree (not_agreeOn_of_error hbest before)
      rw [and_iff_left hrest]
      exact disciplined_foldlM_of_error hbest rest
    | ok best =>
      rw [List.foldlM_cons, consider_some hbest, and_iff_right (answerable_of_ok hbest)]
      simp only [AgreeOn.cons_iff hbest]
      by_cases hvendor : best.vendor = selected.vendor
      · rw [if_neg (not_not_intro hvendor)]
        simp only [hvendor, true_and]
        refine (ih).trans ?_
        have hsame : (if replaces best selected then best else selected).vendor =
            selected.vendor := by
          split
          · exact hvendor
          · rfl
        rw [hsame]
      · rw [if_pos hvendor]
        refine iff_of_true (disciplined_error_iff.mpr rfl) ?_
        exact fun _ _ _ _ hagree => absurd hagree.1 hvendor

/-- The loop as a whole. -/
theorem disciplined_select_iff :
    Disciplined (self.select replaces hosts version) ↔
      AtEach (fun before host => (∃ vendor, self.AgreeOn version vendor before) →
        self.Answerable version host) hosts := by
  unfold select
  cases hosts with
  | nil => exact iff_of_true (disciplined_ok _) atEach_nil
  | cons host rest =>
    rw [atEach_cons]
    have hfirst : ∃ vendor, self.AgreeOn version vendor [] :=
      ⟨none, fun _ hmem => absurd hmem List.not_mem_nil⟩
    rw [imp_iff_right hfirst]
    cases hbest : self.bestCpu version host with
    | error e =>
      have hrest : AtEach (fun before other => (∃ vendor, self.AgreeOn version vendor
          (host :: before)) → self.Answerable version other) rest :=
        fun before _ _ _ ⟨_, hagree⟩ => absurd hagree (not_agreeOn_of_error hbest before)
      rw [and_iff_left hrest]
      exact disciplined_foldlM_of_error hbest rest
    | ok best =>
      rw [List.foldlM_cons, consider_none hbest, and_iff_right (answerable_of_ok hbest)]
      simp only [AgreeOn.cons_iff hbest, exists_eq_left']
      exact disciplined_from_iff

/-- There is a model at the end exactly if there are hosts. -/
theorem select_eq_none_iff {selected : Option Cpu}
    (h : self.select replaces hosts version = .ok selected) : selected = none ↔ hosts = [] := by
  have hsome : ∀ {rest : List Host} {cpu : Cpu} {last : Option Cpu},
      rest.foldlM (self.consider replaces version) (some cpu) = .ok last → last ≠ none := by
    intro rest
    induction rest with
    | nil =>
      intro cpu last hlast
      obtain rfl := Except.ok.inj hlast
      exact Option.some_ne_none cpu
    | cons host rest ih =>
      intro cpu last hlast
      rw [List.foldlM_cons] at hlast
      obtain ⟨next, hnext, hrest⟩ := bind_eq_ok_iff.mp hlast
      obtain ⟨best, _, hkeep⟩ := bind_eq_ok_iff.mp hnext
      unfold keep at hkeep
      simp only at hkeep
      split at hkeep
      case isTrue => cases hkeep
      case isFalse =>
        obtain rfl := Except.ok.inj hkeep
        exact ih hrest
  unfold select at h
  cases hosts with
  | nil =>
    obtain rfl := Except.ok.inj h
    exact iff_of_true rfl rfl
  | cons host rest =>
    rw [List.foldlM_cons] at h
    obtain ⟨next, hnext, hrest⟩ := bind_eq_ok_iff.mp h
    obtain ⟨best, _, hkeep⟩ := bind_eq_ok_iff.mp hnext
    obtain rfl := Except.ok.inj hkeep
    exact iff_of_false (hsome hrest) (List.cons_ne_nil host rest)

theorem disciplined_common_iff :
    (Disciplined (self.getCommonCpuModel hosts version) ∧
        self.getCommonCpuModel hosts version ≠ .ok none) ↔
      self.AnswerableInTurn version hosts := by
  unfold AnswerableInTurn getCommonCpuModel
  rw [disciplined_select_iff, and_comm]
  refine and_congr_left fun hturn => ⟨fun hne hnil => ?_, fun hne hnone => ?_⟩
  · subst hnil
    exact hne rfl
  · exact hne ((select_eq_none_iff hnone).mp rfl)

theorem disciplined_maximal_iff :
    Disciplined (self.getMaximalCpuModel hosts version) ↔ self.AnswerableInTurn version hosts := by
  unfold AnswerableInTurn getMaximalCpuModel
  rw [← @disciplined_select_iff self version hosts fun best selected => best.level > selected.level]
  cases hselect : self.select (fun best selected => best.level > selected.level) hosts version with
  | error e =>
    have hne : hosts ≠ [] := by
      rintro rfl
      cases hselect
    rw [and_iff_right hne]
    exact disciplined_error_iff.trans disciplined_error_iff.symm
  | ok selected =>
    rw [and_iff_left (disciplined_ok selected), ne_eq, ← select_eq_none_iff hselect]
    cases selected with
    | none => exact iff_of_false (fun h => absurd (h _ rfl) (by decide)) fun h => h rfl
    | some cpu => exact iff_of_true (disciplined_ok cpu) (Option.some_ne_none cpu)

/-! ## Minimal models -/

theorem considerVendor_error (h : considerVendor vendor host = .error e) :
    e.isCpuModelError = true := by
  unfold considerVendor at h
  cases hcaps : fetchHostCaps host with
  | error e' =>
    rw [hcaps] at h
    obtain rfl := Except.error.inj h
    exact fetchHostCaps_error hcaps
  | ok hostInfo =>
    rw [hcaps] at h
    cases vendor with
    | none => cases h
    | some vendor =>
      change (if some vendor ≠ idToVendor hostInfo.vendor then _ else _) = _ at h
      split at h
      case isTrue =>
        obtain rfl := Except.error.inj h
        rfl
      case isFalse => cases h

theorem disciplined_commonVendor (hosts : List Host) : Disciplined (commonVendor hosts) := by
  unfold commonVendor
  generalize (none : Option Text) = vendor
  induction hosts generalizing vendor with
  | nil => exact disciplined_ok vendor
  | cons host rest ih =>
    rw [List.foldlM_cons]
    cases hconsider : considerVendor vendor host with
    | error e => exact disciplined_error_iff.mpr (considerVendor_error hconsider)
    | ok next => exact ih next

/-- A round goes on where the host replies and is of the vendor so far. -/
theorem considerVendor_eq_ok_iff {next : Option Text} :
    considerVendor vendor host = .ok next ↔
      Replies host ∧ (vendor ≠ none → hostVendor host = vendor) ∧ next = hostVendor host := by
  rw [replies_iff]
  unfold considerVendor
  cases hcaps : fetchHostCaps host with
  | error e => exact iff_of_false (fun h => by cases h) fun ⟨⟨_, h⟩, _⟩ => by cases h
  | ok hostInfo =>
    have hvendor := vendor_of_ok hcaps
    rw [and_iff_right ⟨hostInfo, rfl⟩]
    cases vendor with
    | none =>
      change Except.ok (idToVendor hostInfo.vendor) = _ ↔ _
      rw [hvendor, Except.ok.injEq]
      exact ⟨fun h => ⟨fun h => absurd rfl h, h.symm⟩, fun h => h.2.symm⟩
    | some vendor =>
      change (if some vendor ≠ idToVendor hostInfo.vendor then _ else _) = _ ↔ _
      rw [hvendor]
      by_cases hsame : hostVendor host = some vendor
      · rw [if_neg (not_not_intro hsame.symm), Except.ok.injEq, hsame]
        exact ⟨fun h => ⟨fun _ => rfl, h.symm⟩, fun h => h.2.symm⟩
      · rw [if_pos (fun h => hsame h.symm)]
        exact iff_of_false (fun h => by cases h) fun h => hsame (h.1 (Option.some_ne_none vendor))

/-- The loop goes to its end where the hosts agree with the vendor so far, and with each
other. -/
theorem commonVendor_returns_from :
    ∀ {vendor : Option Text}, (∃ last, hosts.foldlM considerVendor vendor = .ok last) ↔
      (vendor ≠ none → ∀ host ∈ hosts, hostVendor host = vendor) ∧ VendorsAgree hosts := by
  unfold VendorsAgree
  induction hosts with
  | nil =>
    intro vendor
    exact iff_of_true ⟨vendor, rfl⟩ ⟨fun _ _ hmem => absurd hmem List.not_mem_nil,
      fun _ hmem => absurd hmem List.not_mem_nil, List.Pairwise.nil⟩
  | cons host rest ih =>
    intro vendor
    rw [List.foldlM_cons, List.forall_mem_cons, List.pairwise_cons, List.forall_mem_cons]
    constructor
    · rintro ⟨last, hlast⟩
      obtain ⟨next, hnext, hrest⟩ := bind_eq_ok_iff.mp hlast
      obtain ⟨hreplies, hvendor, rfl⟩ := considerVendor_eq_ok_iff.mp hnext
      obtain ⟨hsame, hagree⟩ := ih.mp ⟨last, hrest⟩
      refine ⟨fun hne => ⟨hvendor hne, ?_⟩, ⟨hreplies, hagree.1⟩, ?_, hagree.2⟩
      · rw [← hvendor hne]
        exact hsame (hvendor hne ▸ hne)
      · exact fun other hother hne => hsame hne other hother
    · rintro ⟨hvendor, ⟨hreplies, hall⟩, hfirst, hrest⟩
      obtain ⟨last, hlast⟩ := (@ih (hostVendor host)).mpr
        ⟨fun hne other hother => hfirst other hother hne, hall, hrest⟩
      have hnext : considerVendor vendor host = .ok (hostVendor host) :=
        considerVendor_eq_ok_iff.mpr ⟨hreplies, fun hne => (hvendor hne).1, rfl⟩
      exact ⟨last, bind_eq_ok_iff.mpr ⟨_, hnext, hlast⟩⟩

theorem disciplined_minimal_iff :
    Disciplined (self.getMinimalCpuModel hosts version) ↔
      (VendorsAgree hosts → self.HasList version) := by
  have hreturns : (∃ vendor, commonVendor hosts = .ok vendor) ↔ VendorsAgree hosts := by
    unfold commonVendor
    rw [commonVendor_returns_from]
    exact and_iff_right fun h => absurd rfl h
  rw [← hreturns]
  unfold getMinimalCpuModel
  cases hvendor : commonVendor hosts with
  | error e =>
    have hraised := disciplined_commonVendor hosts e hvendor
    exact iff_of_true (disciplined_error_iff.mpr hraised) fun ⟨_, h⟩ => by cases h
  | ok vendor =>
    rw [imp_iff_right ⟨vendor, rfl⟩]
    exact disciplined_getCpuInfo_iff

theorem disciplined_relative_iff {cpuName : Text} {higher : Bool} :
    Disciplined (self.getRelativeCpuModel cpuName higher version) ↔ self.HasList version := by
  rw [← @disciplined_getCpuInfo_iff self version (fun cpu => some cpu.cpu) (some cpuName)]
  unfold getRelativeCpuModel
  cases hinfo : self.getCpuInfo (fun cpu => some cpu.cpu) (some cpuName) version with
  | error e => exact disciplined_error_iff.trans disciplined_error_iff.symm
  | ok cpuInfo =>
    refine iff_of_true ?_ (disciplined_ok cpuInfo)
    -- The list that the CPU was found in is there the second time too.
    obtain ⟨list, hlist, hitems⟩ := bind_eq_ok_iff.mp hinfo
    obtain ⟨cpus, hcpus, _⟩ := bind_eq_ok_iff.mp hitems
    change Disciplined ((self.getCpuList version).bind fun list => (items list).bind _)
    rw [hlist]
    change Disciplined ((items list).bind _)
    rw [hcpus]
    exact disciplined_ok _

end CpuModelDenominator

/-- For every denominator, hosts and version: the functions give a CPU (or, for a relative one,
the empty dictionary) or raise a `CpuModelError` exactly where there are hosts, each of which
that is looked at can be answered; where the version has a list, as far as it is asked for. -/
theorem discipline_iff (self : CpuModelDenominator) (hosts : List Host) (version : Option Text)
    (cpuName : Text) (higher : Bool) :
    ((Disciplined (self.getCommonCpuModel hosts version) ∧
          self.getCommonCpuModel hosts version ≠ .ok none) ↔
        self.AnswerableInTurn version hosts) ∧
      (Disciplined (self.getMaximalCpuModel hosts version) ↔
        self.AnswerableInTurn version hosts) ∧
      (Disciplined (self.getMinimalCpuModel hosts version) ↔
        (VendorsAgree hosts → self.HasList version)) ∧
      (Disciplined (self.getRelativeCpuModel cpuName higher version) ↔ self.HasList version) :=
  ⟨CpuModelDenominator.disciplined_common_iff, CpuModelDenominator.disciplined_maximal_iff,
    CpuModelDenominator.disciplined_minimal_iff, CpuModelDenominator.disciplined_relative_iff⟩

/-- A host of another vendor without flags: the list of its known models is empty. -/
theorem unknown_vendor_raises :
    ¬ ∀ (self : CpuModelDenominator) (hosts : List Host) (version : Option Text),
      Disciplined (self.getCommonCpuModel hosts version) := by
  intro hall
  have hraised : intelDenominator.getCommonCpuModel
      [{ rc := 0, out := "HygonGenuine".toList, err := [], cpuFlags := none }]
      (some "4.2".toList) = .error .valueError := by decide
  exact absurd (hall _ _ _ _ hraised) (by decide)

end OvirtArt.Utils.CpuModel
