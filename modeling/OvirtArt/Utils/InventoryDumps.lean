import OvirtArt.Utils.InventoryDiff

set_option autoImplicit false

/-!
# When an engine is dumped, and when two dumps can be compared

`get_summary_report` returns exactly if no type fails, and `compare_ge_state` of what it
returned exactly if in every type each resource that is in both dumps can be looked up.

Two resources with one id are not left out: which of them is looked up decides whether the
comparison returns.
-/

namespace OvirtArt.Utils.Inventory

open OvirtArt.Foundation

section

variable {α : Type}

/-! ## Dumping -/

/-- What is dumped of a collection, unless that fails. -/
def dumped (engine : Engine α) (collection : String) : Option (List (Resource α)) :=
  (engine collection).map fun resources => resources.map dumpResource

/-- None of the types fails. -/
def DumpsAll (engine : Engine α) : Prop :=
  ∀ collection ∈ collections, (engine collection).isSome = true

variable {engine : Engine α}

theorem exists_dumped (h : DumpsAll engine) {collection : String} (hmem : collection ∈ collections)
    :
    ∃ resources, dumped engine collection = some resources := by
  obtain ⟨resources, hresources⟩ := Option.isSome_iff_exists.mp (h collection hmem)
  exact ⟨resources.map dumpResource, by rw [dumped, hresources]; rfl⟩

/-- The state that is dumped of an engine. -/
def dumpedState (engine : Engine α) : GeState α := fun collection =>
  if collection ∈ collections then dumped engine collection else none

/-- The entry of the summary for one type; the message about a failure is given more
arguments than it has places for. -/
def dumpEntry (engine : Engine α) (resourceType : ResourceType) :
    Except PyException (Option (List (Resource α))) :=
  match dumped engine resourceType.collection with
  | some resources => .ok (some resources)
  | none => .error .typeError

theorem dumpEntry_eq_ok_iff {resourceType : ResourceType} {entry : Option (List (Resource α))} :
    dumpEntry engine resourceType = .ok entry ↔
      (engine resourceType.collection).isSome = true ∧
        entry = dumped engine resourceType.collection := by
  unfold dumpEntry dumped
  cases engine resourceType.collection with
  | none => simp
  | some resources => simp [eq_comm]

theorem getSummaryReport_eq (engine : Engine α) :
    getSummaryReport engine =
      fillTable (dumpEntry engine) ResourceType.collection (fun _ => none)
        resourceTypesToDump := by
  unfold getSummaryReport fillTable
  congr 1
  funext summary resourceType
  unfold dumpOrLog dumpEntry dumped
  cases engine resourceType.collection with
  | none => rfl
  | some resources => rfl

/-- The dump of an engine returns exactly if none of the types fails. -/
theorem getSummaryReport_eq_ok_iff {state : GeState α} :
    getSummaryReport engine = .ok state ↔ DumpsAll engine ∧ state = dumpedState engine := by
  rw [getSummaryReport_eq, fillTable_eq_ok_iff nodup_collections]
  unfold DumpsAll collections
  rw [List.forall_mem_map]
  simp only [dumpEntry_eq_ok_iff]
  constructor
  · rintro ⟨hentries, hothers⟩
    refine ⟨fun resourceType hmem => (hentries resourceType hmem).1, funext fun collection => ?_⟩
    unfold dumpedState
    split
    case isTrue h =>
      obtain ⟨resourceType, hmem, rfl⟩ := List.mem_map.mp h
      exact (hentries resourceType hmem).2
    case isFalse h => exact hothers collection h
  · rintro ⟨hall, rfl⟩
    refine ⟨fun resourceType hmem => ⟨hall resourceType hmem, ?_⟩, fun _ hout => if_neg hout⟩
    exact if_pos (List.mem_map_of_mem hmem)

end

/-! ## Removing copies -/

section

variable {α : Type} [DecidableEq α] {resource : Resource α} {cur old resources : List (Resource α)}
  {finish start : Engine α} {scan : Scan α}

theorem Resource.same_congr {other : Resource α} (h : resource.same other = true)
    (third : Resource α) : resource.same third = other.same third := by
  have hperm := of_decide_eq_true h
  exact decide_eq_decide.mpr ⟨hperm.symm.trans, hperm.trans⟩

/-- How many copies of a resource there are. -/
def copies (resources : List (Resource α)) (resource : Resource α) : Nat :=
  resources.countP fun other => other.same resource

/-- How many resources have an id. -/
def withId (resources : List (Resource α)) (id : Value α) : Nat :=
  resources.countP fun other => other.id = id

/-- Where there is a copy, one is removed. -/
theorem remove_of_copies (h : 0 < copies resources resource) :
    ∃ left, remove resource resources = .ok left ∧
      ∀ other, copies resources other = copies left other +
        if resource.same other then 1 else 0 := by
  induction resources with
  | nil => exact absurd h (Nat.lt_irrefl 0)
  | cons first rest ih =>
    unfold remove
    by_cases hsame : first.same resource = true
    · rw [if_pos hsame]
      refine ⟨rest, rfl, fun other => ?_⟩
      unfold copies
      rw [List.countP_cons, Resource.same_congr hsame other]
    · rw [if_neg hsame]
      have hrest : 0 < copies rest resource := by
        unfold copies at h ⊢
        rwa [List.countP_cons, if_neg hsame] at h
      obtain ⟨left, hleft, hcopies⟩ := ih hrest
      refine ⟨first :: left, by rw [hleft]; rfl, fun other => ?_⟩
      have hcount := hcopies other
      unfold copies at hcount ⊢
      rw [List.countP_cons, List.countP_cons, hcount]
      omega

/-- Where there is none, that is an error. -/
theorem remove_of_no_copies (h : copies resources resource = 0) :
    remove resource resources = .error .valueError := by
  induction resources with
  | nil => rfl
  | cons first rest ih =>
    unfold copies at h ih
    rw [List.countP_eq_zero] at h ih
    unfold remove
    rw [if_neg (h first List.mem_cons_self),
      ih fun other hother => h other (List.mem_cons_of_mem _ hother)]
    rfl

/-! ## Comparing -/

/-- A resource of the old state that is compared with one of the new state can be: its
attributes are there, and so is a copy for each old resource with its id. -/
def Matched (old cur left : List (Resource α)) (resource : Resource α) : Prop :=
  ∀ found, partner cur resource = some found →
    AllKept resource found ∧ withId old resource.id ≤ copies left found

/-- All resources of one type that are in both states can be compared. -/
def Matching (old cur : List (Resource α)) : Prop :=
  ∀ resource ∈ old, Matched old cur cur resource

/-- A resource that is in both states is met exactly if it has kept its attributes and
there is a copy left. -/
theorem Scan.met_eq_ok_iff {old cur : Resource α} :
    (∃ next, scan.met old cur = .ok next) ↔ AllKept old cur ∧ 0 < copies scan.left cur := by
  unfold Scan.met
  simp only [bind]
  by_cases hcopies : 0 < copies scan.left cur
  · obtain ⟨left, hleft, _⟩ := remove_of_copies hcopies
    rw [hleft]
    simp only [Except.bind]
    by_cases hsame : cur.same old = true
    · rw [if_pos hsame]
      refine iff_of_true ⟨_, rfl⟩ ⟨allKept_of_same ?_, hcopies⟩
      rw [Resource.same_comm]
      exact hsame
    · rw [if_neg hsame]
      by_cases hkept : AllKept old cur
      · obtain ⟨changed, hchanged, _⟩ := findParamsChanged_of_allKept hkept
        rw [hchanged]
        exact iff_of_true ⟨_, rfl⟩ ⟨hkept, hcopies⟩
      · rw [findParamsChanged_of_not_allKept hkept]
        refine iff_of_false ?_ fun h => hkept h.1
        rintro ⟨_, h⟩
        cases h
  · rw [remove_of_no_copies (Nat.eq_zero_of_not_pos hcopies)]
    refine iff_of_false ?_ fun h => hcopies h.2
    rintro ⟨_, h⟩
    cases h

/-- One copy of a resource that is met is not left any more. -/
theorem Scan.copies_met {next : Scan α} {old cur : Resource α} (h : scan.met old cur = .ok next)
    (other : Resource α) :
    copies scan.left other = copies next.left other + if cur.same other then 1 else 0 := by
  obtain ⟨_, hcopies⟩ := Scan.met_eq_ok_iff.mp ⟨next, h⟩
  obtain ⟨left, hleft, hcount⟩ := remove_of_copies hcopies
  have hnext : next.left = left := by
    unfold Scan.met at h
    simp only [bind, hleft, Except.bind] at h
    split at h
    case isTrue => exact (congrArg Scan.left (Except.ok.inj h)).symm
    case isFalse =>
      cases hchanged : findParamsChanged old cur with
      | error e =>
        rw [hchanged] at h
        cases h
      | ok changed =>
        rw [hchanged] at h
        exact (congrArg Scan.left (Except.ok.inj h)).symm
  rw [hnext]
  exact hcount other

theorem withId_cons (resource : Resource α) (rest : List (Resource α)) (id : Value α) :
    withId (resource :: rest) id = withId rest id + if resource.id = id then 1 else 0 := by
  unfold withId
  rw [List.countP_cons]
  simp only [decide_eq_true_eq]

theorem partner_congr {other : Resource α} (h : resource.id = other.id) :
    partner cur resource = partner cur other := by
  unfold partner
  rw [h]

/-- A resource whose partner has another id does not count. -/
theorem matched_cons_of_partner_eq_none {left : List (Resource α)} {first : Resource α}
    (hfirst : partner cur first = none) :
    Matched (first :: old) cur left resource ↔ Matched old cur left resource := by
  refine forall_congr' fun found => forall_congr' fun hfound => ?_
  have hid : first.id ≠ resource.id := fun heq => by
    rw [partner_congr heq, hfound] at hfirst
    cases hfirst
  rw [withId_cons, if_neg hid, Nat.add_zero]

/-- After a resource has been met, there is one less with its id to come, and one copy less
is left. -/
theorem matched_after_met {next : Scan α} {first met : Resource α}
    (hpartner : partner cur first = some met) (hmet : scan.met first met = .ok next) :
    Matched (first :: old) cur scan.left resource ↔ Matched old cur next.left resource := by
  refine forall_congr' fun found => forall_congr' fun hfound => and_congr_right fun _ => ?_
  rw [withId_cons, Scan.copies_met hmet found]
  by_cases hid : first.id = resource.id
  · have heq : met = found := by
      rw [partner_congr hid, hfound] at hpartner
      exact (Option.some.inj hpartner).symm
    rw [if_pos hid, if_pos (heq ▸ Resource.same_self found), Nat.add_le_add_iff_right]
  · have hne : ¬ met.same found = true := fun hsame => by
      have hids := Resource.id_of_same hsame
      rw [(mem_of_partner hpartner).2, (mem_of_partner hfound).2] at hids
      exact hid hids
    rw [if_neg hid, if_neg hne, Nat.add_zero, Nat.add_zero]

/-- The loop over the old resources returns exactly if each of them can be compared. -/
theorem scan_returns_iff {cur old : List (Resource α)} {scan : Scan α} :
    (∃ last, old.foldlM (Scan.step cur) scan = .ok last) ↔
      ∀ resource ∈ old, Matched old cur scan.left resource := by
  induction old generalizing scan with
  | nil => exact iff_of_true ⟨scan, rfl⟩ fun _ h => absurd h List.not_mem_nil
  | cons first rest ih =>
    rw [List.foldlM_cons, List.forall_mem_cons]
    cases hpartner : partner cur first with
    | none =>
      rw [Scan.step_of_no_partner hpartner]
      have hfirst : Matched (first :: rest) cur scan.left first := fun found hfound => by
        rw [hpartner] at hfound
        cases hfound
      rw [and_iff_right hfirst]
      simp only [matched_cons_of_partner_eq_none hpartner]
      exact ih
    | some met =>
      rw [Scan.step_of_partner hpartner]
      by_cases hmet : ∃ next, scan.met first met = .ok next
      · obtain ⟨next, hnext⟩ := hmet
        obtain ⟨hkept, hcopies⟩ := Scan.met_eq_ok_iff.mp ⟨next, hnext⟩
        simp only [hnext, matched_after_met hpartner hnext]
        refine (@ih next).trans (and_iff_right_of_imp fun hrest found hfound => ?_).symm
        obtain rfl : met = found := Option.some.inj (hpartner.symm.trans hfound)
        refine ⟨hkept, ?_⟩
        by_cases hlater : ∃ resource ∈ rest, resource.id = first.id
        · obtain ⟨resource, hmem, hid⟩ := hlater
          rw [← hid]
          exact (hrest resource hmem met ((partner_congr hid).trans hpartner)).2
        · have hnone : withId rest first.id = 0 := by
            unfold withId
            rw [List.countP_eq_zero]
            intro resource hmem hid
            exact hlater ⟨resource, hmem, of_decide_eq_true hid⟩
          rw [hnone]
          exact Nat.zero_le _
      · refine iff_of_false ?_ fun h => hmet ?_
        · rintro ⟨last, hlast⟩
          obtain ⟨next, hnext, _⟩ := bind_eq_ok_iff.mp hlast
          exact hmet ⟨next, hnext⟩
        · obtain ⟨hkept, hcount⟩ := h.1 met hpartner
          refine Scan.met_eq_ok_iff.mpr ⟨hkept, Nat.lt_of_lt_of_le ?_ hcount⟩
          rw [withId_cons, if_pos rfl]
          exact Nat.succ_pos _

/-- Two dumps of one type can be compared exactly if all resources that are in both can. -/
theorem findResourcesDiff_returns_iff :
    (∃ diff, findResourcesDiff old cur = .ok diff) ↔ Matching old cur := by
  unfold findResourcesDiff Matching
  rw [← @scan_returns_iff _ _ cur old { left := cur }]
  constructor
  · rintro ⟨diff, h⟩
    obtain ⟨last, hlast, _⟩ := map_eq_ok_iff.mp h
    exact ⟨last, hlast⟩
  · rintro ⟨last, hlast⟩
    rw [hlast]
    exact ⟨_, rfl⟩

/-! ## Two moments -/

/-- In every type that is dumped at both moments, the dumps can be compared. -/
def CanCompare (start finish : Engine α) : Prop :=
  ∀ collection ∈ collections, ∀ old new, dumped start collection = some old →
    dumped finish collection = some new → Matching old new

/-- The report has the difference of each type that is dumped at both moments. -/
def IsDiff (start finish : Engine α) (diff : GeDiff α) : Prop :=
  ∀ collection ∈ collections, ∀ old new, dumped start collection = some old →
    dumped finish collection = some new → findResourcesDiff old new = .ok (diff.of collection)

theorem typeDiff_dumpedState {collection : String} (hmem : collection ∈ collections)
    {new : List (Resource α)} (hold : dumped start collection = some old)
    (hnew : dumped finish collection = some new) :
    typeDiff (dumpedState start) (dumpedState finish) collection = findResourcesDiff old new := by
  unfold typeDiff GeState.get dumpedState
  simp only [if_pos hmem, hold, hnew, Except.bind]

/-- What is reported of two complete dumps. -/
theorem isDiff_of_compareGeState {diff : GeDiff α}
    (h : compareGeState (dumpedState start) (dumpedState finish) = .ok diff) :
    IsDiff start finish diff := by
  intro collection hmem old new hold hnew
  have hone := (compareGeState_eq_ok_iff.mp h).1 collection hmem
  rw [typeDiff_dumpedState hmem hold hnew] at hone
  obtain ⟨found, hfound, hreported⟩ := map_eq_ok_iff.mp hone
  rw [hfound, GeDiff.of, ← hreported, getD_reported]

/-- Two complete dumps can be compared exactly if all their types can. -/
theorem compareGeState_returns_iff (hstart : DumpsAll start) (hfinish : DumpsAll finish) :
    (∃ diff, compareGeState (dumpedState start) (dumpedState finish) = .ok diff) ↔
      CanCompare start finish := by
  constructor
  · rintro ⟨diff, h⟩ collection hmem old new hold hnew
    exact findResourcesDiff_returns_iff.mp
      ⟨_, isDiff_of_compareGeState h collection hmem old new hold hnew⟩
  · intro h
    refine ⟨fun collection => if collection ∈ collections then
      reported ((typeDiff (dumpedState start) (dumpedState finish) collection).toOption.getD {})
      else none, compareGeState_eq_ok_iff.mpr
        ⟨fun collection hmem => ?_, fun _ hout => if_neg hout⟩⟩
    obtain ⟨old, hold⟩ := exists_dumped hstart hmem
    obtain ⟨new, hnew⟩ := exists_dumped hfinish hmem
    obtain ⟨found, hfound⟩ :=
      findResourcesDiff_returns_iff.mpr (h collection hmem old new hold hnew)
    rw [typeDiff_dumpedState hmem hold hnew, if_pos hmem, hfound]
    rfl

end

end OvirtArt.Utils.Inventory
