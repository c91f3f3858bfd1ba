import OvirtArt.CoreApi.TextReplace
import OvirtArt.CoreApi.TimeoutingSampler
import OvirtArt.CoreApi.WaitForStatus
import OvirtArt.Foundation.Splitting

set_option autoImplicit false

/-!
# `wait_for_hosts_states` of `low_level/hosts.py`

The hosts are sampled until each of the named ones has the status that is waited for, or one of
them has a status to stop on.

Names are given as one text or as a list, and are split where they are one text.  A sample may
raise; the parameter `positive`, which the function does not use, is left out.
-/

namespace OvirtArt.TestsLib.HostStates

open OvirtArt.CoreApi OvirtArt.Foundation

/-- What is read of a host. -/
structure Host where
  name : Text
  status : Text
  deriving DecidableEq, Repr

/-- An argument that is a string or a list of strings. -/
inductive TextOrList where
  | text (whole : Text)
  | list (members : List Text)
  deriving DecidableEq, Repr

/-- `part in container`: a part of a string, or a member of a list. -/
def TextOrList.contains : TextOrList → Text → Bool
  | .text whole, part => (Text.index? part whole).isSome
  | .list members, part => members.contains part

/-- What `get_host_object` raises. -/
inductive HostsException where
  | entityNotFound
  deriving DecidableEq, Repr

/-! ## The source -/

/-- `list_names`. -/
def listNames : TextOrList → List Text
  | .text names => Text.words (Text.replace names [','] [' '])
  | .list names => names

section

variable (names states stopStates : TextOrList)

/-- The loop over a sample, with the hosts counted in `ok`: what it returns, if it does. -/
def checkHosts (numberOfHosts : Nat) : Nat → List Host → Option Bool
  | _, [] => none
  | ok, host :: sample =>
    if names.contains host.name then
      if stopStates.contains host.status then some false
      else
        let ok := if states.contains host.status then ok + 1 else ok
        if ok = numberOfHosts then some true else checkHosts numberOfHosts ok sample
    else checkHosts numberOfHosts ok sample

/-- What the loop returns at a sample. -/
def verdict (sample : List Host) : Option Bool :=
  checkHosts names states stopStates (listNames names).length 0 sample

/-- The loop over the sampler is left where a sample returns. -/
def leaves (samples : List (List Host)) : Bool :=
  (samples.getLast?.bind (verdict names states stopStates)).isSome

/-- What is returned after the sampler: `APITimeout` is caught. -/
def answer (iteration : TimeoutingSampler.Iteration (List Host)) : Bool :=
  match iteration.ended with
  | .left =>
    ((iteration.samples.map TimeoutingSampler.Yielded.result).getLast?.bind
      (verdict names states stopStates)).getD false
  | .raised => false

/-- `wait_for_hosts_states`, which begins at `clock`; the sampler calls `HOST_API.get`. -/
def waitForHostsStates (hostExists : Text → Bool) (sampler : TimeoutingSampler (List Host))
    (clock : ℚ≥0) : Except HostsException Bool :=
  if (listNames names).all hostExists then
    .ok (answer names states stopStates
      (sampler.iter (leaves names states stopStates) (TimeoutingSampler.created clock)).1)
  else .error .entityNotFound

end

/-! ## What is asked of it -/

section

variable (sampler : TimeoutingSampler (List Host)) (clock : ℚ≥0)

/-- The hosts at a sample. -/
def sampleAt (i : Nat) : List Host := (sampler.func i).result

/-- The sampler comes to this sample before it raises, if the loop is not left. -/
def Yields (i : Nat) : Prop :=
  ∀ j < i, sampler.completion (TimeoutingSampler.created clock) j ≤ clock + sampler.timeout

variable (names : TextOrList) (status : Text) (stopStates : List Text)

/-- Each named host has the status. -/
def AllIn (sample : List Host) : Prop :=
  ∀ name ∈ listNames names, ∃ host ∈ sample, host.name = name ∧ host.status = status

/-- A named host is in a stop state. -/
def Stopped (sample : List Host) : Prop :=
  ∃ host ∈ sample, host.name ∈ listNames names ∧ host.status ∈ stopStates

/-- A sample in time shows each named host in the status, and none of them is in a stop state
before that or in it. -/
def Succeeds : Prop :=
  ∃ i, Yields sampler clock i ∧ AllIn names status (sampleAt sampler i) ∧
    ∀ j ≤ i, ¬ Stopped names stopStates (sampleAt sampler j)

/-- The sampler comes to this sample, and nothing is decided before. -/
def Reached (i : Nat) : Prop :=
  Yields sampler clock i ∧ ∀ j < i, ¬ AllIn names status (sampleAt sampler j) ∧
    ¬ Stopped names stopStates (sampleAt sampler j)

/-- A host that is not named and whose name is found in the names all the same is in a status that
neither stops nor is counted, and a named host that is counted is in the status itself. -/
structure WellRead (sample : List Host) : Prop where
  others : ∀ host ∈ sample, names.contains host.name = true → host.name ∉ listNames names →
    listNames names ≠ [] ∧ host.status ∉ stopStates ∧ ¬ host.status <:+: status
  statuses : ∀ host ∈ sample, host.name ∈ listNames names → host.status ∉ stopStates →
    host.status <:+: status → host.status = status

end

/-! ## Names -/

theorem contains_text_iff {whole part : Text} :
    (TextOrList.text whole).contains part = true ↔ part <:+: whole :=
  Text.isSome_index?_iff part whole

theorem contains_list_iff {members : List Text} {part : Text} :
    (TextOrList.list members).contains part = true ↔ part ∈ members :=
  List.contains_iff_mem

/-- A word of the names stands in them as it is. -/
theorem contains_of_mem_listNames {names : TextOrList} {name : Text} (h : name ∈ listNames names) :
    names.contains name = true := by
  cases names with
  | list members => exact contains_list_iff.mpr h
  | text whole =>
    rw [contains_text_iff]
    rw [listNames, Text.replace_singleton, Text.words, List.mem_filter] at h
    obtain ⟨⟨before, after, hwhole⟩, hword⟩ := infix_of_mem_splitOnP h.1
    obtain ⟨front, after', hfront, hsplit, hafter⟩ := List.map_eq_append_iff.mp hwhole.symm
    obtain ⟨before', part, hbefore, hmap, hpart⟩ := List.map_eq_append_iff.mp hsplit
    have hkept : ∀ c ∈ part, (if c = ',' then ' ' else c) = c := by
      intro c hc
      refine if_neg fun hcomma => ?_
      have hblank : ' ' ∈ name := by
        rw [← hpart]
        exact List.mem_map.mpr ⟨c, hc, if_pos hcomma⟩
      exact absurd (hword _ hblank) (by decide)
    have hname : name = part := by
      rw [← hpart, List.map_congr_left hkept]
      exact List.map_id part
    rw [hname]
    exact ⟨before', after', by rw [hfront, hbefore]⟩

/-! ## The loop over a sample -/

section

variable (names states stopStates : TextOrList)

/-- The loop returns `False` at this host, if it comes to it. -/
def stops (host : Host) : Bool := names.contains host.name && stopStates.contains host.status

/-- The loop counts this host, if it comes to it. -/
def counts (host : Host) : Bool :=
  names.contains host.name && !stopStates.contains host.status && states.contains host.status

end

section

variable {names states stopStates : TextOrList} {numberOfHosts ok : Nat} {sample before : List Host}
  {host : Host}

theorem checkHosts_of_stops (h : stops names stopStates host = true) (rest : List Host) :
    checkHosts names states stopStates numberOfHosts ok (host :: rest) = some false := by
  obtain ⟨hname, hstatus⟩ := Bool.and_eq_true_iff.mp h
  rw [checkHosts, if_pos hname, if_pos hstatus]

theorem checkHosts_of_counts (h : counts names states stopStates host = true)
    (rest : List Host) :
    checkHosts names states stopStates numberOfHosts ok (host :: rest) =
      if ok + 1 = numberOfHosts then some true
      else checkHosts names states stopStates numberOfHosts (ok + 1) rest := by
  obtain ⟨hnamed, hstates⟩ := Bool.and_eq_true_iff.mp h
  obtain ⟨hname, hgo⟩ := Bool.and_eq_true_iff.mp hnamed
  rw [checkHosts, if_pos hname, if_neg (by simpa using hgo)]
  dsimp only
  rw [if_pos hstates]

theorem checkHosts_of_not_counts (hstops : stops names stopStates host = false)
    (h : counts names states stopStates host = false) (hok : ok < numberOfHosts)
    (rest : List Host) :
    checkHosts names states stopStates numberOfHosts ok (host :: rest) =
      checkHosts names states stopStates numberOfHosts ok rest := by
  unfold stops at hstops
  unfold counts at h
  rw [checkHosts]
  by_cases hname : names.contains host.name = true
  · rw [hname, Bool.true_and] at hstops h
    rw [hstops, Bool.not_false, Bool.true_and] at h
    rw [if_pos hname, if_neg (Bool.eq_false_iff.mp hstops)]
    dsimp only
    rw [if_neg (Bool.eq_false_iff.mp h), if_neg hok.ne]
  · rw [if_neg hname]

/-- Hosts without a stop: the loop counts, and returns where the count is full. -/
theorem checkHosts_append (h : ∀ host ∈ before, stops names stopStates host = false)
    (hok : ok < numberOfHosts) (rest : List Host) :
    checkHosts names states stopStates numberOfHosts ok (before ++ rest) =
      if numberOfHosts ≤ ok + before.countP (counts names states stopStates) then some true
      else checkHosts names states stopStates numberOfHosts
        (ok + before.countP (counts names states stopStates)) rest := by
  induction before generalizing ok with
  | nil => rw [List.countP_nil, Nat.add_zero, if_neg (by omega), List.nil_append]
  | cons host before ih =>
    rw [List.forall_mem_cons] at h
    rw [List.cons_append, List.countP_cons]
    by_cases hcounts : counts names states stopStates host = true
    · rw [checkHosts_of_counts hcounts, if_pos hcounts]
      by_cases hfull : ok + 1 = numberOfHosts
      · rw [if_pos hfull, if_pos (by omega)]
      · rw [if_neg hfull, ih h.2 (by omega), Nat.add_right_comm, Nat.add_assoc]
    · rw [checkHosts_of_not_counts h.1 (Bool.eq_false_iff.mpr hcounts) hok, ih h.2 hok,
        if_neg hcounts, Nat.add_zero]

/-- No host is named: the loop does not return. -/
theorem checkHosts_of_unnamed (h : ∀ host ∈ sample, names.contains host.name = false) :
    checkHosts names states stopStates numberOfHosts ok sample = none := by
  induction sample with
  | nil => rfl
  | cons host sample ih =>
    rw [List.forall_mem_cons] at h
    rw [checkHosts, if_neg (Bool.eq_false_iff.mp h.1)]
    exact ih h.2

end

/-! ## A sample that is well read -/

section

variable {names : TextOrList} {status : Text} {stopStates : List Text} {sample before : List Host}
  {host : Host}

theorem WellRead.stops_iff (h : WellRead names status stopStates sample) (hhost : host ∈ sample) :
    stops names (.list stopStates) host = true ↔
      host.name ∈ listNames names ∧ host.status ∈ stopStates := by
  rw [stops, Bool.and_eq_true, contains_list_iff]
  constructor
  · rintro ⟨hname, hstatus⟩
    refine ⟨?_, hstatus⟩
    by_contra hnot
    exact (h.others host hhost hname hnot).2.1 hstatus
  · rintro ⟨hname, hstatus⟩
    exact ⟨contains_of_mem_listNames hname, hstatus⟩

theorem WellRead.counts_iff (h : WellRead names status stopStates sample) (hhost : host ∈ sample) :
    counts names (.text status) (.list stopStates) host = true ↔
      host.name ∈ listNames names ∧ host.status ∉ stopStates ∧ host.status = status := by
  have hstop : (!(TextOrList.list stopStates).contains host.status) = true ↔
      host.status ∉ stopStates := by
    rw [Bool.not_eq_true', ← Bool.not_eq_true, contains_list_iff]
  rw [counts, Bool.and_eq_true, Bool.and_eq_true, hstop, contains_text_iff, and_assoc]
  constructor
  · rintro ⟨hname, hgo, hpart⟩
    have hmem : host.name ∈ listNames names := by
      by_contra hnot
      exact (h.others host hhost hname hnot).2.2 hpart
    exact ⟨hmem, hgo, h.statuses host hhost hmem hgo hpart⟩
  · rintro ⟨hname, hgo, heq⟩
    exact ⟨contains_of_mem_listNames hname, hgo, heq ▸ List.infix_refl _⟩

/-- The count is full only if the names are distinct, and a counted host has each of them. -/
theorem WellRead.of_full (h : WellRead names status stopStates sample)
    (hdistinct : (sample.map Host.name).Nodup) (hbefore : before <+: sample)
    (hfull : (listNames names).length ≤
      before.countP (counts names (.text status) (.list stopStates))) :
    (listNames names).Nodup ∧ ∀ name ∈ listNames names, ∃ host ∈ before, host.name = name ∧
      host.status ∉ stopStates ∧ host.status = status := by
  let counted := before.filter (counts names (.text status) (.list stopStates))
  have hread : ∀ host ∈ counted, host.name ∈ listNames names ∧ host.status ∉ stopStates ∧
      host.status = status := by
    intro host hhost
    obtain ⟨hmem, hcounts⟩ := List.mem_filter.mp hhost
    exact (h.counts_iff (hbefore.subset hmem)).mp hcounts
  have hnodup : (counted.map Host.name).Nodup :=
    ((List.filter_sublist.trans hbefore.sublist).map Host.name).nodup hdistinct
  have hsub : counted.map Host.name ⊆ listNames names := by
    intro name hname
    obtain ⟨host, hhost, rfl⟩ := List.mem_map.mp hname
    exact (hread host hhost).1
  have hlength : (listNames names).length ≤ (counted.map Host.name).length := by
    rw [List.length_map, ← List.countP_eq_length_filter]
    exact hfull
  have hperm : (counted.map Host.name).Perm (listNames names) :=
    (hnodup.subperm hsub).perm_of_length_le hlength
  refine ⟨hperm.nodup_iff.mp hnodup, fun name hname => ?_⟩
  obtain ⟨host, hhost, heq⟩ := List.mem_map.mp (hperm.mem_iff.mpr hname)
  exact ⟨host, (List.mem_filter.mp hhost).1, heq, (hread host hhost).2⟩

/-- Where each host has the status, and the names are distinct, the count is full. -/
theorem WellRead.full (h : WellRead names status stopStates sample)
    (hnodup : (listNames names).Nodup) (hall : AllIn names status sample)
    (hgo : ¬ Stopped names stopStates sample) :
    (listNames names).length ≤
      sample.countP (counts names (.text status) (.list stopStates)) := by
  have hsub : listNames names ⊆
      (sample.filter (counts names (.text status) (.list stopStates))).map Host.name := by
    intro name hname
    obtain ⟨host, hhost, rfl, hstatus⟩ := hall name hname
    refine List.mem_map_of_mem (List.mem_filter.mpr ⟨hhost, ?_⟩)
    exact (h.counts_iff hhost).mpr ⟨hname, fun hstop => hgo ⟨host, hhost, hname, hstop⟩, hstatus⟩
  calc (listNames names).length
      ≤ _ := (hnodup.subperm hsub).length_le
    _ = _ := by rw [List.length_map, List.countP_eq_length_filter]

/-- What the loop returns, by what the sample shows. -/
theorem WellRead.verdict_cases (h : WellRead names status stopStates sample)
    (hne : listNames names ≠ []) (hdistinct : (sample.map Host.name).Nodup) :
    (Stopped names stopStates sample ∧
      verdict names (.text status) (.list stopStates) sample = some false) ∨
    (¬ Stopped names stopStates sample ∧ AllIn names status sample ∧ (listNames names).Nodup ∧
      verdict names (.text status) (.list stopStates) sample = some true) ∨
    (¬ Stopped names stopStates sample ∧ ¬ (AllIn names status sample ∧ (listNames names).Nodup) ∧
      verdict names (.text status) (.list stopStates) sample = none) := by
  have hpos : 0 < (listNames names).length := List.length_pos_of_ne_nil hne
  by_cases hstopped : Stopped names stopStates sample
  · refine .inl ⟨hstopped, ?_⟩
    obtain ⟨named, hnamed, hstop⟩ := hstopped
    obtain ⟨first, hfirst⟩ := Option.isSome_iff_exists.mp
      (List.find?_isSome.mpr ⟨named, hnamed, (h.stops_iff hnamed).mpr hstop⟩)
    obtain ⟨hstops, before, after, rfl, hbefore⟩ := List.find?_eq_some_iff_append.mp hfirst
    have hgo : ∀ host ∈ before, stops names (.list stopStates) host = false :=
      fun host hhost => by simpa using hbefore host hhost
    rw [verdict, checkHosts_append hgo hpos, if_neg, checkHosts_of_stops hstops]
    intro hfull
    rw [Nat.zero_add] at hfull
    have hname := ((h.stops_iff (List.mem_append_right _ List.mem_cons_self)).mp hstops).1
    obtain ⟨host, hhost, heq, -⟩ := (h.of_full hdistinct (List.prefix_append _ _) hfull).2 _ hname
    rw [List.map_append, List.map_cons] at hdistinct
    exact (List.disjoint_of_nodup_append hdistinct) (List.mem_map_of_mem hhost)
      (heq ▸ List.mem_cons_self)
  · right
    have hgo : ∀ host ∈ sample, stops names (.list stopStates) host = false := by
      intro host hhost
      rw [Bool.eq_false_iff, ne_eq, h.stops_iff hhost]
      exact fun hstop => hstopped ⟨host, hhost, hstop⟩
    have hverdict : verdict names (.text status) (.list stopStates) (sample ++ []) = _ :=
      checkHosts_append hgo hpos []
    rw [List.append_nil, Nat.zero_add] at hverdict
    by_cases hfull : (listNames names).length ≤
        sample.countP (counts names (.text status) (.list stopStates))
    · obtain ⟨hnodup, hhosts⟩ := h.of_full hdistinct (List.prefix_refl _) hfull
      refine .inl ⟨hstopped, fun name hname => ?_, hnodup, hverdict.trans (if_pos hfull)⟩
      obtain ⟨host, hhost, heq, -, hstatus⟩ := hhosts name hname
      exact ⟨host, hhost, heq, hstatus⟩
    · refine .inr ⟨hstopped, ?_, hverdict.trans (if_neg hfull)⟩
      rintro ⟨hall, hnodup⟩
      exact hfull (h.full hnodup hall hstopped)

end

/-! ## The loop over the sampler -/

section

variable {sampler : TimeoutingSampler (List Host)} {clock : ℚ≥0} {names : TextOrList}
  {status : Text} {stopStates : List Text} {hostExists : Text → Bool}

theorem leaves_resultsTo (states stops : TextOrList) (i : Nat) :
    leaves names states stops (sampler.resultsTo (TimeoutingSampler.created clock) i) =
      (verdict names states stops (sampleAt sampler i)).isSome := by
  unfold leaves TimeoutingSampler.resultsTo
  rw [List.range_succ, List.map_append, List.map_singleton, List.getLast?_concat, Option.bind_some]
  have hcalls : (TimeoutingSampler.created clock).calls + i = i := Nat.zero_add i
  rw [hcalls]
  rfl

/-- The loop comes to this sample, and the function returns what follows. -/
structure EndsAt (sampler : TimeoutingSampler (List Host)) (clock : ℚ≥0)
    (names states stops : TextOrList) (n : Nat) (returned : Bool) : Prop where
  yields : Yields sampler clock n
  before : ∀ i < n, verdict names states stops (sampleAt sampler i) = none
  ends : verdict names states stops (sampleAt sampler n) = some returned ∨
    verdict names states stops (sampleAt sampler n) = none ∧ ¬ Yields sampler clock (n + 1) ∧
      returned = false

/-- The function returns the verdict on the first sample that has one, or `False` after the last
one that is handed out. -/
theorem exists_endsAt (hexists : ∀ name ∈ listNames names, hostExists name = true)
    (states stops : TextOrList) :
    ∃ n returned, EndsAt sampler clock names states stops n returned ∧
      waitForHostsStates names states stops hostExists sampler clock = .ok returned := by
  have hwait : waitForHostsStates names states stops hostExists sampler clock =
      .ok (answer names states stops (sampler.iter (leaves names states stops)
        (TimeoutingSampler.created clock)).1) :=
    if_pos (List.all_eq_true.mpr hexists)
  obtain ⟨n, hn⟩ := @TimeoutingSampler.exists_endsAt_iter _ sampler (leaves names states stops)
    (TimeoutingSampler.created clock)
  rw [hwait]
  generalize (sampler.iter (leaves names states stops)
    (TimeoutingSampler.created clock)).1 = iteration at hn
  have hlast : (iteration.samples.map TimeoutingSampler.Yielded.result).getLast? =
      some (sampleAt sampler n) := by
    rw [hn.results, TimeoutingSampler.resultsTo, List.range_succ, List.map_append,
      List.map_singleton, List.getLast?_concat]
    have hcalls : (TimeoutingSampler.created clock).calls + n = n := Nat.zero_add n
    rw [hcalls]
    rfl
  have hyields : Yields sampler clock n := fun i hi => (hn.goes_on i hi).2
  have hbefore : ∀ i < n, verdict names states stops (sampleAt sampler i) = none := by
    intro i hi
    have hgoes := (hn.goes_on i hi).1
    rw [leaves_resultsTo] at hgoes
    exact Option.isSome_eq_false_iff.mp hgoes |> Option.isNone_iff_eq_none.mp
  have hended := hn.ended
  unfold answer
  cases hcase : iteration.ended with
  | left =>
    rw [hcase] at hended
    dsimp only at hended
    rw [leaves_resultsTo] at hended
    obtain ⟨returned, hreturned⟩ := Option.isSome_iff_exists.mp hended
    refine ⟨n, returned, ⟨hyields, hbefore, .inl hreturned⟩, ?_⟩
    dsimp only
    rw [hlast, Option.bind_some, hreturned, Option.getD_some]
  | raised =>
    rw [hcase] at hended
    dsimp only at hended
    rw [leaves_resultsTo] at hended
    have hnone := Option.isNone_iff_eq_none.mp (Option.isSome_eq_false_iff.mp hended.1)
    refine ⟨n, false, ⟨hyields, hbefore, .inr ⟨hnone, fun hnext => ?_, rfl⟩⟩, rfl⟩
    exact absurd (hnext n n.lt_succ_self) (not_le.mpr hended.2)

/-- The verdict on a sample that is well read, for names that are distinct. -/
theorem WellRead.verdict_iff {sample : List Host} (h : WellRead names status stopStates sample)
    (hne : listNames names ≠ []) (hnodup : (listNames names).Nodup)
    (hdistinct : (sample.map Host.name).Nodup) :
    (verdict names (.text status) (.list stopStates) sample = some true ↔
      AllIn names status sample ∧ ¬ Stopped names stopStates sample) ∧
    (verdict names (.text status) (.list stopStates) sample = none ↔
      ¬ AllIn names status sample ∧ ¬ Stopped names stopStates sample) := by
  rcases h.verdict_cases hne hdistinct with ⟨hstop, heq⟩ | ⟨hgo, hall, -, heq⟩ | ⟨hgo, hnot, heq⟩
  · simp [heq, hstop]
  · simp [heq, hgo, hall]
  · have hall : ¬ AllIn names status sample := fun hall => hnot ⟨hall, hnodup⟩
    simp [heq, hgo, hall]

/-- Without distinct names, no sample that is well read is a success. -/
theorem WellRead.verdict_ne_true {sample : List Host} (h : WellRead names status stopStates sample)
    (hnames : ¬ (listNames names ≠ [] ∧ (listNames names).Nodup))
    (hdistinct : (sample.map Host.name).Nodup) :
    verdict names (.text status) (.list stopStates) sample ≠ some true := by
  intro htrue
  by_cases hne : listNames names = []
  · have hunnamed : ∀ host ∈ sample, names.contains host.name = false := by
      intro host hhost
      rw [Bool.eq_false_iff]
      intro hname
      have hnot : host.name ∉ listNames names := by
        rw [hne]
        exact List.not_mem_nil
      exact (h.others host hhost hname hnot).1 hne
    rw [verdict, checkHosts_of_unnamed hunnamed] at htrue
    exact nomatch htrue
  · rcases h.verdict_cases hne hdistinct with ⟨-, heq⟩ | ⟨-, -, hnodup, -⟩ | ⟨-, -, heq⟩
    · rw [htrue] at heq
      exact nomatch heq
    · exact hnames ⟨hne, hnodup⟩
    · rw [htrue] at heq
      exact nomatch heq

section

variable {n : Nat} {returned : Bool}

/-- The samples up to the one at which the loop ends are reached. -/
theorem EndsAt.reached (h : EndsAt sampler clock names (.text status) (.list stopStates) n returned)
    (hne : listNames names ≠ []) (hnodup : (listNames names).Nodup)
    (hdistinct : ∀ i, ((sampleAt sampler i).map Host.name).Nodup)
    (hread : ∀ i, Reached sampler clock names status stopStates i →
      WellRead names status stopStates (sampleAt sampler i))
    {i : Nat} (hi : i ≤ n) : Reached sampler clock names status stopStates i := by
  induction i using Nat.strong_induction_on with
  | h i ih =>
    refine ⟨fun j hj => h.yields j (hj.trans_le hi), fun j hj => ?_⟩
    have hwell := hread j (ih j hj (hj.le.trans hi))
    exact (hwell.verdict_iff hne hnodup (hdistinct j)).2.mp (h.before j (hj.trans_le hi))

theorem EndsAt.returned_iff
    (h : EndsAt sampler clock names (.text status) (.list stopStates) n returned)
    (hne : listNames names ≠ []) (hnodup : (listNames names).Nodup)
    (hdistinct : ∀ i, ((sampleAt sampler i).map Host.name).Nodup)
    (hread : ∀ i, Reached sampler clock names status stopStates i →
      WellRead names status stopStates (sampleAt sampler i)) :
    returned = true ↔ Succeeds sampler clock names status stopStates := by
  have hverdict : ∀ i ≤ n, _ := fun i hi =>
    (hread i (h.reached hne hnodup hdistinct hread hi)).verdict_iff hne hnodup (hdistinct i)
  constructor
  · rintro rfl
    have htrue := h.ends.resolve_right fun hlate => nomatch hlate.2.2
    obtain ⟨hall, hgo⟩ := (hverdict n le_rfl).1.mp htrue
    refine ⟨n, h.yields, hall, fun j hj => ?_⟩
    rcases Nat.lt_or_eq_of_le hj with hlt | rfl
    · exact ((hverdict j hj).2.mp (h.before j hlt)).2
    · exact hgo
  · rintro ⟨i, hyields, hall, hgo⟩
    have hlast : n ≤ i := by
      by_contra hlt
      rw [not_le] at hlt
      exact ((hverdict i hlt.le).2.mp (h.before i hlt)).1 hall
    have hstop : ¬ Stopped names stopStates (sampleAt sampler n) := hgo n hlast
    rcases h.ends with hsome | ⟨hnone, hover, -⟩
    · cases returned with
      | true => rfl
      | false =>
        by_cases hshown : AllIn names status (sampleAt sampler n)
        · exact absurd (hsome.symm.trans ((hverdict n le_rfl).1.mpr ⟨hshown, hstop⟩)) nofun
        · exact absurd (hsome.symm.trans ((hverdict n le_rfl).2.mpr ⟨hshown, hstop⟩)) nofun
    · rcases Nat.lt_or_eq_of_le hlast with hlt | rfl
      · exact absurd (fun j hj => hyields j (hj.trans_le hlt)) hover
      · exact absurd hall ((hverdict n le_rfl).2.mp hnone).1

end

/-- If every sample up to the deciding one is well read, the wait for distinct names returns
whether it succeeds.  If all samples are, it does so for exactly these names, or where it returns
`False` rightly. -/
theorem wait_for_hosts_states_reliable (names : TextOrList) (status : Text)
    (stopStates : List Text) (hostExists : Text → Bool) (sampler : TimeoutingSampler (List Host))
    (clock : ℚ≥0) (hexists : ∀ name ∈ listNames names, hostExists name = true)
    (hdistinct : ∀ i, ((sampleAt sampler i).map Host.name).Nodup) :
    ∃ returned, waitForHostsStates names (.text status) (.list stopStates) hostExists sampler clock
        = .ok returned ∧
      ((∀ i, Reached sampler clock names status stopStates i →
          WellRead names status stopStates (sampleAt sampler i)) →
        listNames names ≠ [] ∧ (listNames names).Nodup →
          (returned = true ↔ Succeeds sampler clock names status stopStates)) ∧
      ((∀ i, Yields sampler clock i → WellRead names status stopStates (sampleAt sampler i)) →
        ((returned = true ↔ Succeeds sampler clock names status stopStates) ↔
          (listNames names ≠ [] ∧ (listNames names).Nodup) ∨
            ¬ Succeeds sampler clock names status stopStates)) := by
  obtain ⟨n, returned, hends, heq⟩ :=
    @exists_endsAt sampler clock names hostExists hexists (.text status) (.list stopStates)
  refine ⟨returned, heq, ?_, ?_⟩
  · rintro hread ⟨hne, hnodup⟩
    exact hends.returned_iff hne hnodup hdistinct hread
  · intro hread
    by_cases hnames : listNames names ≠ [] ∧ (listNames names).Nodup
    · exact iff_of_true
        (hends.returned_iff hnames.1 hnames.2 hdistinct fun i hi => hread i hi.1) (.inl hnames)
    · have hfalse : returned = false := by
        rcases hends.ends with hsome | hlate
        · have htrue := (hread n hends.yields).verdict_ne_true hnames (hdistinct n)
          exact Bool.eq_false_iff.mpr fun hreturned => htrue (hreturned ▸ hsome)
        · exact hlate.2.2
      rw [hfalse, or_iff_right hnames]
      constructor
      · exact fun hiff hsucceeds => nomatch hiff.mpr hsucceeds
      · exact fun hnot => iff_of_false nofun hnot

end

/-- The hosts are the same at each sample. -/
def unchanging (hosts : List Host) : TimeoutingSampler (List Host) where
  timeout := (600 : Nat)
  sleep := (10 : Nat)
  sleep_pos := ten_seconds_pos
  func _ := { result := hosts, duration := 1 }

/-- Two hosts that are up. -/
def bothUp : List Host := [⟨"host_1".toList, "up".toList⟩, ⟨"host_2".toList, "up".toList⟩]

theorem wait_for_hosts_states_both_up :
    waitForHostsStates (.text "host_1, host_2".toList) (.text "up".toList)
      (.list ["install_failed".toList]) (fun _ => true) (unchanging bothUp) 0 = .ok true := by
  have hnames : listNames (.text "host_1, host_2".toList) = bothUp.map Host.name := by decide
  have hdistinct : (bothUp.map Host.name).Nodup := by decide
  have hup : ∀ host ∈ bothUp, host.status = "up".toList := by decide
  have hwell : WellRead (.text "host_1, host_2".toList) "up".toList ["install_failed".toList]
      bothUp := by
    refine ⟨fun host hhost _ hnot => ?_, fun host hhost _ _ _ => hup host hhost⟩
    rw [hnames] at hnot
    exact absurd (List.mem_map_of_mem hhost) hnot
  have hsucceeds : Succeeds (unchanging bothUp) 0 (.text "host_1, host_2".toList) "up".toList
      ["install_failed".toList] := by
    refine ⟨0, nofun, fun name hname => ?_, ?_⟩
    · rw [hnames] at hname
      obtain ⟨host, hhost, rfl⟩ := List.mem_map.mp hname
      exact ⟨host, hhost, rfl, hup host hhost⟩
    · rintro j - ⟨host, hhost, -, hstop⟩
      rw [hup host hhost] at hstop
      exact absurd hstop (by decide)
  obtain ⟨returned, heq, hreturned, -⟩ := wait_for_hosts_states_reliable
    (.text "host_1, host_2".toList) "up".toList ["install_failed".toList] (fun _ => true)
    (unchanging bothUp) 0 (fun _ _ => rfl) (fun _ => hdistinct)
  rw [heq, (hreturned (fun _ _ => hwell) (hnames ▸ ⟨by decide, hdistinct⟩)).mpr hsucceeds]

/-- A host that is up, and one that is installing. -/
def oneInstalling : List Host :=
  [⟨"host_1".toList, "up".toList⟩, ⟨"host_10".toList, "installing".toList⟩]

/-- The status of a host is taken for that of the named one, whose name has its name as a part. -/
theorem part_of_a_name_is_counted :
    waitForHostsStates (.text "host_10".toList) (.text "up".toList)
        (.list ["install_failed".toList]) (fun _ => true) (unchanging oneInstalling) 0 = .ok true ∧
      ¬ Succeeds (unchanging oneInstalling) 0 (.text "host_10".toList) "up".toList
        ["install_failed".toList] := by
  constructor
  · have hverdict : ∀ i, verdict (.text "host_10".toList) (.text "up".toList)
        (.list ["install_failed".toList]) (sampleAt (unchanging oneInstalling) i) = some true :=
      fun _ => by rfl
    obtain ⟨n, returned, hends, heq⟩ := @exists_endsAt (unchanging oneInstalling) 0
      (.text "host_10".toList) (fun _ => true) (fun _ _ => rfl) (.text "up".toList)
      (.list ["install_failed".toList])
    rw [heq]
    rcases hends.ends with hsome | ⟨hnone, -⟩
    · rw [hverdict n] at hsome
      rw [Option.some.inj hsome]
    · exact absurd ((hverdict n).symm.trans hnone) nofun
  · rintro ⟨i, -, hall, -⟩
    obtain ⟨host, hhost, hname, hstatus⟩ := hall "host_10".toList (by decide)
    have hnot : ∀ host ∈ oneInstalling,
        host.name = "host_10".toList → host.status ≠ "up".toList := by decide
    exact hnot host hhost hname hstatus

end OvirtArt.TestsLib.HostStates
