import Mathlib.Data.Finset.Card
import OvirtArt.Foundation.Lists
import OvirtArt.Foundation.Tables
import OvirtArt.Utils.Inventory

set_option autoImplicit false

/-!
# What the comparison of two states reports

The lists of `find_resources_diff` in closed form, and from them when the comparison
accounts for every resource and agrees with the comparison the other way round.

Resources are told by their ids here, and no two of a type have the same one.  A resource that has
changed is listed by the name it had, which is the name that the filter is about.
-/

namespace OvirtArt.Utils.Inventory

open OvirtArt.Foundation

section

variable {α : Type} {old cur : Resource α}

namespace Resource

theorem lookup_id (resource : Resource α) :
    resource.items.lookup "id" = some resource.id := (Option.some_get _).symm

variable [DecidableEq α]

theorem same_self (resource : Resource α) : resource.same resource = true :=
  decide_eq_true (List.Perm.refl _)

theorem same_comm : old.same cur = cur.same old :=
  decide_eq_decide.mpr List.perm_comm

theorem lookup_of_same (h : old.same cur = true) (key : String) :
    old.items.lookup key = cur.items.lookup key :=
  AList.perm_lookup (of_decide_eq_true h)

theorem id_of_same (h : old.same cur = true) : old.id = cur.id := by
  have hid := lookup_of_same h "id"
  rw [lookup_id, lookup_id] at hid
  exact Option.some.inj hid

end Resource

/-! ## Attributes -/

variable [DecidableEq α]

/-- The attributes, present in either state, that have not the same value in both. -/
def differing (old cur : Resource α) : Finset String :=
  (old.items.keys ++ cur.items.keys).toFinset.filter fun key =>
    old.items.lookup key ≠ cur.items.lookup key

theorem mem_differing {key : String} :
    key ∈ differing old cur ↔ old.items.lookup key ≠ cur.items.lookup key := by
  unfold differing
  rw [Finset.mem_filter, List.mem_toFinset, List.mem_append, ← AList.mem_keys, ← AList.mem_keys]
  refine and_iff_right_of_imp fun hne => ?_
  by_contra hneither
  rw [not_or, ← AList.lookup_eq_none, ← AList.lookup_eq_none] at hneither
  exact hne (hneither.1.trans hneither.2.symm)

/-- The attributes of the old state that have not the same value in both: the ones that
`find_params_changed` looks for. -/
def lookedFor (old cur : Resource α) : Finset String :=
  old.items.keys.toFinset.filter fun key => old.items.lookup key ≠ cur.items.lookup key

theorem mem_lookedFor {key : String} :
    key ∈ lookedFor old cur ↔
      key ∈ old.items ∧ old.items.lookup key ≠ cur.items.lookup key := by
  unfold lookedFor
  rw [Finset.mem_filter, List.mem_toFinset, AList.mem_keys]

theorem lookedFor_subset : lookedFor old cur ⊆ differing old cur := fun _ h =>
  mem_differing.mpr (mem_lookedFor.mp h).2

/-- `find_params_changed` finds every attribute of the old state in the new one. -/
def AllKept (old cur : Resource α) : Prop := ∀ key ∈ old.items, key ∈ cur.items

instance : Decidable (AllKept old cur) :=
  decidable_of_iff (∀ key ∈ old.items.keys, key ∈ cur.items.keys) Iff.rfl

theorem allKept_of_same (h : old.same cur = true) : AllKept old cur := by
  intro key hkey
  rw [← AList.lookup_isSome] at hkey ⊢
  rw [← Resource.lookup_of_same h]
  exact hkey

/-- The loop of `find_params_changed`, from what it has found already. -/
theorem paramsChanged_from (entries : List (Sigma fun _ : String => Value α))
    (changed : ValuesChanged α) :
    (∃ found, entries.foldlM (paramChanged cur) changed = .ok found ∧
        (∀ item ∈ entries, item.1 ∈ cur.items) ∧
        ∀ key, key ∈ found ↔ key ∈ changed ∨
          ∃ item ∈ entries, item.1 = key ∧ cur.items.lookup key ≠ some item.2) ∨
      (entries.foldlM (paramChanged cur) changed = .error .keyError ∧
        ∃ item ∈ entries, item.1 ∉ cur.items) := by
  induction entries generalizing changed with
  | nil => exact Or.inl ⟨changed, rfl, by simp, by simp⟩
  | cons item entries ih =>
    rw [List.foldlM_cons]
    cases hlookup : cur.items.lookup item.1 with
    | none =>
      right
      refine ⟨by simp [paramChanged, hlookup, bind, Except.bind], item, by simp, ?_⟩
      exact AList.lookup_eq_none.mp hlookup
    | some value =>
      have hmem : item.1 ∈ cur.items :=
        AList.lookup_isSome.mp (by rw [hlookup]; rfl)
      have hone : paramChanged cur changed item =
          .ok (if item.2 ≠ value then changed.insert item.1 ⟨item.2, value⟩
            else changed) := by
        simp [paramChanged, hlookup]
      rw [hone]
      rcases ih (if item.2 ≠ value then changed.insert item.1 ⟨item.2, value⟩
        else changed) with
        ⟨found, hfound, hall, hkeys⟩ | ⟨herror, other, hother, hmissing⟩
      · left
        refine ⟨found, hfound, List.forall_mem_cons.mpr ⟨hmem, hall⟩, fun key => ?_⟩
        rw [hkeys, List.exists_mem_cons_iff, ← or_assoc]
        refine or_congr_left ?_
        by_cases hvalue : item.2 = value
        · rw [if_neg (not_not.mpr hvalue)]
          refine (or_iff_left ?_).symm
          rintro ⟨rfl, hne⟩
          exact hne (by rw [hlookup, hvalue])
        · rw [if_pos hvalue, AList.mem_insert, or_comm]
          refine or_congr_right ⟨?_, ?_⟩
          · rintro rfl
            refine ⟨rfl, fun h => hvalue ?_⟩
            rw [hlookup] at h
            exact (Option.some.inj h).symm
          · rintro ⟨rfl, _⟩
            rfl
      · exact Or.inr ⟨herror, other, List.mem_cons_of_mem _ hother, hmissing⟩

/-- Where all attributes are there, those that changed are found. -/
theorem findParamsChanged_of_allKept (h : AllKept old cur) :
    ∃ changed, findParamsChanged old cur = .ok (old.name, changed) ∧
      changed.keys.toFinset = lookedFor old cur := by
  unfold findParamsChanged
  rcases @paramsChanged_from _ cur _ old.items.entries ∅ with
    ⟨found, hfound, _, hkeys⟩ | ⟨_, item, hitem, hmissing⟩
  · refine ⟨found, by rw [hfound]; rfl, ?_⟩
    ext key
    rw [List.mem_toFinset, ← AList.mem_keys, hkeys, mem_lookedFor]
    constructor
    · rintro (hempty | ⟨item, hitem, rfl, hne⟩)
      · exact absurd hempty (AList.notMem_empty key)
      · have hlookup : old.items.lookup item.1 = some item.2 := AList.mem_lookup_iff.mpr hitem
        refine ⟨AList.lookup_isSome.mp (by rw [hlookup]; rfl), ?_⟩
        rw [hlookup]
        exact fun heq => hne heq.symm
    · rintro ⟨hmem, hne⟩
      obtain ⟨value, hvalue⟩ := Option.isSome_iff_exists.mp (AList.lookup_isSome.mpr hmem)
      refine Or.inr ⟨⟨key, value⟩, AList.mem_lookup_iff.mp hvalue, rfl, fun heq => hne ?_⟩
      rw [hvalue, heq]
  · refine absurd (h item.1 ?_) hmissing
    exact AList.mem_keys.mpr (List.mem_map_of_mem hitem)

theorem findParamsChanged_of_not_allKept (h : ¬ AllKept old cur) :
    findParamsChanged old cur = .error .keyError := by
  unfold findParamsChanged
  rcases @paramsChanged_from _ cur _ old.items.entries ∅ with
    ⟨_, _, hall, _⟩ | ⟨herror, _⟩
  · refine absurd (fun key hkey => ?_) h
    obtain ⟨item, hitem, rfl⟩ := List.mem_map.mp (AList.mem_keys.mp hkey)
    exact hall item hitem
  · rw [herror]
    rfl

end

/-! ## Resources -/

section

variable {α : Type} [DecidableEq α] {cur : List (Resource α)}

/-- The ids of resources. -/
def ids (resources : List (Resource α)) : List (Value α) := resources.map Resource.id

omit [DecidableEq α] in
/-- Resources with different ids are found by them. -/
theorem eq_of_id_eq (hnodup : (ids cur).Nodup) {resource other : Resource α}
    (h : resource ∈ cur) (hother : other ∈ cur) (hid : resource.id = other.id) :
    resource = other :=
  List.inj_on_of_nodup_map hnodup h hother hid

/-- The resource that is removed is the one with this id. -/
theorem remove_of_mem {left : List (Resource α)} {resource : Resource α}
    (hnodup : (ids left).Nodup) (hmem : resource ∈ left) :
    remove resource left = .ok (left.filter fun other => other.id ≠ resource.id) := by
  induction left with
  | nil => cases hmem
  | cons first rest ih =>
    obtain ⟨hfirst, hrest⟩ := List.nodup_cons.mp hnodup
    rw [remove]
    by_cases hsame : first.same resource = true
    · have hid := Resource.id_of_same hsame
      have hothers : rest.filter (fun other => decide (other.id ≠ resource.id)) = rest := by
        rw [List.filter_eq_self]
        intro other hother
        refine decide_eq_true fun heq => hfirst ?_
        rw [hid, ← heq]
        exact List.mem_map_of_mem hother
      rw [if_pos hsame, List.filter_cons_of_neg (by simp [hid]), hothers]
    · have htail : resource ∈ rest := by
        rcases List.mem_cons.mp hmem with rfl | h
        · exact absurd (Resource.same_self resource) hsame
        · exact h
      have hne : first.id ≠ resource.id := fun heq =>
        hfirst (heq ▸ List.mem_map_of_mem htail)
      rw [if_neg hsame, ih hrest htail, List.filter_cons, if_pos (decide_eq_true hne)]
      rfl

/-- The resource of the new state that has the id of an old one. -/
def partner (cur : List (Resource α)) (old : Resource α) : Option (Resource α) :=
  cur.find? fun resource => resource.id = old.id

theorem mem_of_partner {old resource : Resource α} (h : partner cur old = some resource) :
    resource ∈ cur ∧ resource.id = old.id := by
  unfold partner at h
  exact ⟨List.mem_of_find?_eq_some h, by simpa using List.find?_some h⟩

theorem partner_eq_some_iff (hnodup : (ids cur).Nodup) {old resource : Resource α} :
    partner cur old = some resource ↔ resource ∈ cur ∧ resource.id = old.id := by
  refine ⟨mem_of_partner, ?_⟩
  rintro ⟨hmem, hid⟩
  have hsome : (partner cur old).isSome :=
    List.find?_isSome.mpr ⟨resource, hmem, decide_eq_true hid⟩
  obtain ⟨found, hfound⟩ := Option.isSome_iff_exists.mp hsome
  obtain ⟨hfoundMem, hfoundId⟩ := mem_of_partner hfound
  rw [hfound, eq_of_id_eq hnodup hfoundMem hmem (hfoundId.trans hid.symm)]

theorem partner_eq_none_iff {old : Resource α} : partner cur old = none ↔ old.id ∉ ids cur := by
  unfold partner ids
  rw [List.find?_eq_none, List.mem_map]
  constructor
  · rintro h ⟨resource, hmem, hid⟩
    exact h resource hmem (decide_eq_true hid)
  · intro h resource hmem hid
    exact h ⟨resource, hmem, of_decide_eq_true hid⟩

/-- The entry of the list of changed resources for an old one that is in both states. -/
def changeBetween (old resource : Resource α) : Option (Value α × ValuesChanged α) :=
  if resource.same old then none
  else
    match findParamsChanged old resource with
    | .error _ => none
    | .ok changed => if changed.2.keys = [] then none else some changed

/-- The entry of the list of changed resources for an old one. -/
def changeOf (cur : List (Resource α)) (old : Resource α) : Option (Value α × ValuesChanged α) :=
  (partner cur old).bind fun resource => changeBetween old resource

/-- Every attribute of the old resource is still there, if it is in both states. -/
def KeptIn (cur : List (Resource α)) (old : Resource α) : Prop :=
  ∀ found ∈ cur, found.id = old.id → AllKept old found

instance (old : Resource α) : Decidable (KeptIn cur old) :=
  inferInstanceAs (Decidable (∀ found ∈ cur, found.id = old.id → AllKept old found))

/-- Every attribute of a resource that is in both states is still there. -/
def Comparable (old cur : List (Resource α)) : Prop := ∀ resource ∈ old, KeptIn cur resource

instance (old : List (Resource α)) : Decidable (Comparable old cur) :=
  inferInstanceAs (Decidable (∀ resource ∈ old, KeptIn cur resource))

/-- A resource that is in both states. -/
theorem Scan.met_eq {scan : Scan α} {old resource : Resource α}
    (hnodup : (ids scan.left).Nodup) (hmem : resource ∈ scan.left) :
    scan.met old resource =
      if AllKept old resource then
        .ok { scan with
          left := scan.left.filter fun other => other.id ≠ resource.id
          changed := scan.changed ++ (changeBetween old resource).toList }
      else .error .keyError := by
  unfold Scan.met changeBetween
  rw [remove_of_mem hnodup hmem]
  by_cases hsame : resource.same old = true
  · have hkept : AllKept old resource :=
      allKept_of_same ((@Resource.same_comm _ old resource _).trans hsame)
    simp [hsame, hkept, bind, Except.bind, pure, Except.pure]
  · by_cases hkept : AllKept old resource
    · obtain ⟨changed, hchanged, _⟩ := findParamsChanged_of_allKept hkept
      simp only [hsame, hkept, hchanged, bind, Except.bind, pure, Except.pure, if_true]
      by_cases hempty : changed.keys = []
      · simp [hempty]
      · simp [hempty]
    · rw [findParamsChanged_of_not_allKept hkept]
      simp [hsame, hkept, bind, Except.bind]

theorem Scan.step_of_partner {scan : Scan α} {old resource : Resource α}
    (h : partner cur old = some resource) : Scan.step cur scan old = scan.met old resource := by
  unfold partner at h
  unfold Scan.step
  rw [h]

theorem Scan.step_of_no_partner {scan : Scan α} {old : Resource α} (h : partner cur old = none) :
    Scan.step cur scan old = .ok { scan with removed := scan.removed ++ [old.name] } := by
  unfold partner at h
  unfold Scan.step
  rw [h]

/-- One resource of the old state, after those with some ids. -/
theorem Scan.step_eq (hcur : (ids cur).Nodup) {old : Resource α} {seen : List (Value α)}
    (hseen : old.id ∉ seen) (changed : List (Value α × ValuesChanged α))
    (removed : List (Value α)) :
    Scan.step cur ⟨cur.filter fun resource => resource.id ∉ seen, changed, removed⟩ old =
      if KeptIn cur old then
        .ok ⟨cur.filter fun resource => resource.id ∉ seen ++ [old.id],
          changed ++ (changeOf cur old).toList,
          removed ++ if old.id ∈ ids cur then [] else [old.name]⟩
      else .error .keyError := by
  unfold changeOf
  cases hpartner : partner cur old with
  | none =>
    rw [Scan.step_of_no_partner hpartner]
    have hid := partner_eq_none_iff.mp hpartner
    have hkept : KeptIn cur old := fun found hfound heq =>
      absurd (heq ▸ List.mem_map_of_mem hfound) hid
    have hleft : cur.filter (fun resource => decide (resource.id ∉ seen ++ [old.id])) =
        cur.filter fun resource => decide (resource.id ∉ seen) := by
      refine List.filter_congr fun resource hmem => decide_eq_decide.mpr ?_
      rw [List.mem_append, List.mem_singleton, not_or]
      refine and_iff_left fun heq => hid ?_
      rw [← heq]
      exact List.mem_map_of_mem hmem
    rw [if_pos hkept, if_neg hid, hleft]
    simp
  | some resource =>
    rw [Scan.step_of_partner hpartner]
    obtain ⟨hmem, hid⟩ := mem_of_partner hpartner
    have hin : old.id ∈ ids cur := hid ▸ List.mem_map_of_mem hmem
    have hkept : KeptIn cur old ↔ AllKept old resource := by
      refine ⟨fun h => h resource hmem hid, fun h found hfound heq => ?_⟩
      rw [eq_of_id_eq hcur hfound hmem (heq.trans hid.symm)]
      exact h
    have hleft : resource ∈ cur.filter fun resource => decide (resource.id ∉ seen) :=
      List.mem_filter.mpr ⟨hmem, decide_eq_true (hid ▸ hseen)⟩
    have hnodup : (ids (cur.filter fun resource => decide (resource.id ∉ seen))).Nodup :=
      hcur.sublist (List.filter_sublist.map _)
    have hrest : (cur.filter fun resource => decide (resource.id ∉ seen)).filter
        (fun other => decide (other.id ≠ resource.id)) =
          cur.filter fun resource => decide (resource.id ∉ seen ++ [old.id]) := by
      rw [List.filter_filter]
      refine List.filter_congr fun other _ => ?_
      rw [← Bool.decide_and, hid]
      refine decide_eq_decide.mpr ?_
      rw [List.mem_append, List.mem_singleton, not_or]
      exact and_comm
    have hmet := @Scan.met_eq α _
      ⟨cur.filter fun resource => decide (resource.id ∉ seen), changed, removed⟩ old resource
      hnodup hleft
    rw [hrest] at hmet
    refine hmet.trans ?_
    simp [hkept, hin]

/-- The loop of `find_resources_diff`, after the resources with some ids. -/
theorem scan_from {old : List (Resource α)} (hcur : (ids cur).Nodup) (hold : (ids old).Nodup)
    (seen : List (Value α)) (hseen : ∀ id ∈ ids old, id ∉ seen)
    (changed : List (Value α × ValuesChanged α)) (removed : List (Value α)) :
    old.foldlM (Scan.step cur)
        ⟨cur.filter fun resource => resource.id ∉ seen, changed, removed⟩ =
      if Comparable old cur then
        .ok ⟨cur.filter fun resource => resource.id ∉ seen ++ ids old,
          changed ++ old.filterMap (changeOf cur),
          removed ++ (old.filter fun resource => resource.id ∉ ids cur).map Resource.name⟩
      else .error .keyError := by
  induction old generalizing seen changed removed with
  | nil =>
    have hnone : Comparable [] cur := fun _ h => by cases h
    rw [if_pos hnone]
    simp [ids, pure, Except.pure]
  | cons resource old ih =>
    obtain ⟨hfirst, hrest⟩ := List.nodup_cons.mp hold
    have hcons : Comparable (resource :: old) cur ↔
        KeptIn cur resource ∧ Comparable old cur := List.forall_mem_cons
    obtain ⟨hseenFirst, hseenRest⟩ := List.forall_mem_cons.mp hseen
    rw [List.foldlM_cons, Scan.step_eq hcur hseenFirst]
    by_cases hkept : KeptIn cur resource
    · have hlater : ∀ id ∈ ids old, id ∉ seen ++ [resource.id] := by
        intro id hid
        rw [List.mem_append, List.mem_singleton, not_or]
        refine ⟨hseenRest id hid, ?_⟩
        rintro rfl
        exact hfirst hid
      rw [if_pos hkept]
      refine (ih hrest (seen ++ [resource.id]) hlater _ _).trans ?_
      simp only [hcons, hkept, true_and]
      refine ite_congr rfl (fun _ => ?_) fun _ => rfl
      have hids : seen ++ [resource.id] ++ ids old = seen ++ ids (resource :: old) := by
        simp [ids]
      rw [hids]
      by_cases hin : resource.id ∈ ids cur
      · cases hchange : changeOf cur resource <;> simp [hin, hchange]
      · cases hchange : changeOf cur resource <;> simp [hin, hchange]
    · rw [if_neg hkept, if_neg (fun h => hkept (hcons.mp h).1)]
      rfl

/-- The resources of the one state that are not in the other one. -/
def onlyIn (resources others : List (Resource α)) : List (Resource α) :=
  resources.filter fun resource => resource.id ∉ ids others

/-- The lists that are reported, in the order of the states. -/
theorem findResourcesDiff_eq {old : List (Resource α)} (hcur : (ids cur).Nodup)
    (hold : (ids old).Nodup) :
    findResourcesDiff old cur =
      if Comparable old cur then
        .ok { changed := old.filterMap (changeOf cur)
              added := ((onlyIn cur old).map Resource.name).filter fun name =>
                name ∉ ignoredRsrcNames α
              removed := (onlyIn old cur).map Resource.name }
      else .error .keyError := by
  have hall :
      cur.filter (fun resource => decide (resource.id ∉ ([] : List (Value α)))) = cur := by
    simp
  have hscan := scan_from hcur hold [] (by simp) [] []
  rw [hall] at hscan
  unfold findResourcesDiff onlyIn
  rw [hscan]
  split
  case isTrue => rfl
  case isFalse => rfl

/-! ## What is to be reported -/

/-- The name is one that should be ignored. -/
def Ignored (resource : Resource α) : Prop := resource.name ∈ ignoredRsrcNames α

instance (resource : Resource α) : Decidable (Ignored resource) :=
  inferInstanceAs (Decidable (_ ∈ ignoredRsrcNames α))

/-- An entry of the list of changed resources, with the attributes that it lists. -/
def withAttributes (entry : Value α × ValuesChanged α) : Value α × Finset String :=
  (entry.1, entry.2.keys.toFinset)

/-- What is to be said of a resource that is in both states. -/
def toReport (old resource : Resource α) : Option (Value α × Finset String) :=
  if Ignored old ∨ differing old resource = ∅ then none
  else some (old.name, differing old resource)

/-- A report accounts for every resource: with a name that is not ignored it is added,
removed or changed with all attributes that differ, or nothing is said of it. -/
structure Accounts (old cur : List (Resource α)) (diff : TypeDiff α) : Prop where
  added : diff.added.Perm
    (((onlyIn cur old).filter fun resource => ¬ Ignored resource).map Resource.name)
  removed : diff.removed.Perm
    (((onlyIn old cur).filter fun resource => ¬ Ignored resource).map Resource.name)
  changed : (diff.changed.map withAttributes).Perm
    (old.filterMap fun resource => (partner cur resource).bind (toReport resource))

theorem lookedFor_of_same {old resource : Resource α} (h : resource.same old = true) :
    lookedFor old resource = ∅ := by
  rw [Finset.eq_empty_iff_forall_notMem]
  intro key hkey
  exact (mem_lookedFor.mp hkey).2 (Resource.lookup_of_same h key).symm

/-- What the code says of a resource that is in both states. -/
theorem withAttributes_changeBetween {old resource : Resource α} (h : AllKept old resource) :
    (changeBetween old resource).map withAttributes =
      if lookedFor old resource = ∅ then none else some (old.name, lookedFor old resource) := by
  unfold changeBetween
  by_cases hsame : resource.same old = true
  · rw [if_pos hsame, if_pos (lookedFor_of_same hsame)]
    rfl
  · obtain ⟨changed, hchanged, hkeys⟩ := findParamsChanged_of_allKept h
    have hempty : changed.keys = [] ↔ lookedFor old resource = ∅ := by
      rw [← hkeys, List.toFinset_eq_empty_iff]
    rw [if_neg hsame, hchanged]
    simp only [hempty]
    split
    case isTrue => rfl
    case isFalse => simp only [Option.map_some, withAttributes, hkeys]

/-- The reported attributes are those to be reported. -/
def ReportedRight (old resource : Resource α) : Prop :=
  if Ignored old then lookedFor old resource = ∅
  else lookedFor old resource = differing old resource

theorem reported_eq_iff {old resource : Resource α} (h : AllKept old resource) :
    (changeBetween old resource).map withAttributes = toReport old resource ↔
      ReportedRight old resource := by
  rw [withAttributes_changeBetween h]
  unfold toReport ReportedRight
  by_cases hignored : Ignored old
  · simp [hignored]
  · by_cases hlooked : lookedFor old resource = ∅
    · by_cases hdiffering : differing old resource = ∅
      · simp [hignored, hlooked, hdiffering]
      · simp only [hignored, hlooked, hdiffering, if_true, if_false, false_or, reduceCtorEq,
          false_iff]
        exact fun h => hdiffering h.symm
    · have hdiffering : differing old resource ≠ ∅ := fun hnone =>
        hlooked (Finset.subset_empty.mp (hnone ▸ lookedFor_subset))
      simp [hignored, hlooked, hdiffering]

section

variable {old cur : List (Resource α)}

omit [DecidableEq α] in
/-- The number of attributes of an entry that is left out if it has none. -/
theorem size_entry (name : Value α) (attributes : Finset String) :
    ((if attributes = ∅ then none else some (name, attributes)).map fun entry =>
      entry.2.card).getD 0 = attributes.card := by
  split
  case isTrue hempty => rw [hempty]; rfl
  case isFalse => rfl

theorem reported_eq_some {resource found : Resource α} (hkept : Comparable old cur)
    (hmem : resource ∈ old) (hpartner : partner cur resource = some found) :
    (changeOf cur resource).map withAttributes =
      if lookedFor resource found = ∅ then none
      else some (resource.name, lookedFor resource found) := by
  obtain ⟨hfound, hid⟩ := mem_of_partner hpartner
  unfold changeOf
  rw [hpartner]
  exact withAttributes_changeBetween (hkept resource hmem found hfound hid)

/-- Nothing that has an ignored name is to be reported. -/
theorem lookedFor_eq_empty_of_perm (hkept : Comparable old cur)
    (hperm : ((old.filterMap (changeOf cur)).map withAttributes).Perm
      (old.filterMap fun resource => (partner cur resource).bind (toReport resource)))
    {resource found : Resource α} (hmem : resource ∈ old)
    (hpartner : partner cur resource = some found) (hignored : Ignored resource) :
    lookedFor resource found = ∅ := by
  by_contra hlooked
  have hreported := reported_eq_some hkept hmem hpartner
  rw [if_neg hlooked, Option.map_eq_some_iff] at hreported
  obtain ⟨entry, hentry, heq⟩ := hreported
  have hin : withAttributes entry ∈ (old.filterMap (changeOf cur)).map withAttributes :=
    List.mem_map_of_mem (List.mem_filterMap.mpr ⟨resource, hmem, hentry⟩)
  obtain ⟨other, _, hother⟩ := List.mem_filterMap.mp (hperm.mem_iff.mp hin)
  obtain ⟨partnerOther, _, hreport⟩ := Option.bind_eq_some_iff.mp hother
  unfold toReport at hreport
  split at hreport
  case isTrue => cases hreport
  case isFalse hnot =>
    refine hnot (Or.inl ?_)
    have hname : other.name = resource.name := by
      rw [heq] at hreport
      exact congrArg Prod.fst (Option.some.inj hreport)
    unfold Ignored at hignored ⊢
    rw [hname]
    exact hignored

/-- The list of changed resources is right exactly if it is for each resource. -/
theorem changed_perm_iff (hkept : Comparable old cur) :
    ((old.filterMap (changeOf cur)).map withAttributes).Perm
        (old.filterMap fun resource => (partner cur resource).bind (toReport resource)) ↔
      ∀ resource ∈ old, ∀ found, partner cur resource = some found →
        ReportedRight resource found := by
  constructor
  · intro hperm resource hmem found hpartner
    have hignored : ∀ {resource found}, resource ∈ old → partner cur resource = some found →
        Ignored resource → lookedFor resource found = ∅ :=
      fun hmem hpartner => lookedFor_eq_empty_of_perm hkept hperm hmem hpartner
    unfold ReportedRight
    by_cases hname : Ignored resource
    · rw [if_pos hname]
      exact hignored hmem hpartner hname
    · rw [if_neg hname]
      -- no list of attributes is longer than the one to be reported, so none is shorter
      have hsizes := size_eq_of_filterMap_perm (fun entry => entry.2.card)
        (f := fun resource => (changeOf cur resource).map withAttributes)
        (g := fun resource => (partner cur resource).bind (toReport resource)) (l := old) ?_
        (by rw [← List.map_filterMap]; exact hperm) resource hmem
      · simp only [reported_eq_some hkept hmem hpartner, hpartner, Option.bind_some, toReport,
          hname, false_or] at hsizes
        rw [size_entry, size_entry] at hsizes
        exact Finset.eq_of_subset_of_card_le lookedFor_subset hsizes.ge
      · intro other hother
        cases hfound : partner cur other with
        | none => simp [changeOf, hfound]
        | some found =>
          rw [reported_eq_some hkept hother hfound, size_entry]
          by_cases hignoredOther : Ignored other
          · rw [hignored hother hfound hignoredOther]
            exact Nat.zero_le _
          · simp only [Option.bind_some, toReport, hignoredOther, false_or]
            rw [size_entry]
            exact Finset.card_le_card lookedFor_subset
  · intro h
    rw [List.map_filterMap]
    refine List.Perm.of_eq (List.filterMap_congr fun resource hmem => ?_)
    unfold changeOf
    cases hpartner : partner cur resource with
    | none => rfl
    | some found =>
      obtain ⟨hfound, hid⟩ := mem_of_partner hpartner
      exact (reported_eq_iff (hkept resource hmem found hfound hid)).mpr
        (h resource hmem found hpartner)

end

/-! ## When the report is right -/

/-- Two states of a type whose comparison is right: a resource that is in both has the same
attributes in both, and one with an ignored name is in both, and does not change. -/
structure Agree (old cur : List (Resource α)) : Prop where
  attributes : ∀ resource ∈ old, ∀ found ∈ cur, found.id = resource.id →
    ∀ key, key ∈ resource.items ↔ key ∈ found.items
  oldIgnored : ∀ resource ∈ old, Ignored resource → ∃ found ∈ cur, found.same resource = true
  newIgnored : ∀ found ∈ cur, Ignored found → found.id ∈ ids old

theorem same_of_lookup {resource other : Resource α}
    (h : ∀ key, resource.items.lookup key = other.items.lookup key) :
    resource.same other = true := by
  refine decide_eq_true (List.lookup_ext resource.items.nodupKeys other.items.nodupKeys ?_)
  intro key value
  exact iff_of_eq (congrArg (value ∈ ·) (h key))

/-- With the same attributes everything that differs is looked for. -/
theorem lookedFor_eq_differing {resource found : Resource α}
    (h : ∀ key, key ∈ resource.items ↔ key ∈ found.items) :
    lookedFor resource found = differing resource found := by
  ext key
  rw [mem_lookedFor, mem_differing]
  refine and_iff_right_of_imp fun hne => ?_
  by_contra hout
  have hold := AList.lookup_eq_none.mpr hout
  have hnew := AList.lookup_eq_none.mpr (mt (h key).mpr hout)
  exact hne (hold.trans hnew.symm)

section

variable {old cur : List (Resource α)}

omit [DecidableEq α] in
/-- Both comparisons of two states come to an end exactly if the resources have the same
attributes in both. -/
theorem comparable_both_iff :
    Comparable old cur ∧ Comparable cur old ↔
      ∀ resource ∈ old, ∀ found ∈ cur, found.id = resource.id →
        ∀ key, key ∈ resource.items ↔ key ∈ found.items := by
  constructor
  · rintro ⟨hold, hcur⟩ resource hmem found hfound hid key
    exact ⟨hold resource hmem found hfound hid key, hcur found hfound resource hmem hid.symm key⟩
  · intro h
    refine ⟨fun resource hmem found hfound hid key hkey => ?_,
      fun found hfound resource hmem hid key hkey => ?_⟩
    · exact (h resource hmem found hfound hid key).mp hkey
    · exact (h resource hmem found hfound hid.symm key).mpr hkey

/-- A list of names is the one without the ignored ones exactly if none is ignored. -/
theorem perm_not_ignored_iff {resources : List (Resource α)} :
    (resources.map Resource.name).Perm
        ((resources.filter fun resource => ¬ Ignored resource).map Resource.name) ↔
      ∀ resource ∈ resources, ¬ Ignored resource := by
  constructor
  · intro hperm resource hmem
    have hlength := hperm.length_eq
    rw [List.length_map, List.length_map] at hlength
    have hall := List.length_filter_eq_length_iff.mp hlength.symm
    exact of_decide_eq_true (hall resource hmem)
  · intro h
    rw [List.filter_eq_self.mpr fun resource hmem => decide_eq_true (h resource hmem)]

theorem forall_onlyIn_iff {resources others : List (Resource α)} :
    (∀ resource ∈ onlyIn resources others, ¬ Ignored resource) ↔
      ∀ resource ∈ resources, Ignored resource → resource.id ∈ ids others := by
  unfold onlyIn
  simp only [List.mem_filter, decide_eq_true_eq, and_imp]
  refine forall_congr' fun resource => forall_congr' fun _ => ?_
  exact ⟨fun h hignored => not_not.mp fun hout => h hout hignored,
    fun h hout hignored => hout (h hignored)⟩

theorem filter_names (resources : List (Resource α)) :
    (resources.map Resource.name).filter (fun name => decide (name ∉ ignoredRsrcNames α)) =
      (resources.filter fun resource => ¬ Ignored resource).map Resource.name := by
  rw [List.filter_map]
  rfl

/-- The comparison of one type accounts for its resources exactly under these conditions. -/
theorem accounts_iff (hold : (ids old).Nodup) (hcur : (ids cur).Nodup) :
    (∃ diff, findResourcesDiff old cur = .ok diff ∧ Accounts old cur diff) ↔
      Comparable old cur ∧
        (∀ resource ∈ old, Ignored resource → resource.id ∈ ids cur) ∧
        ∀ resource ∈ old, ∀ found ∈ cur, found.id = resource.id →
          ReportedRight resource found := by
  rw [findResourcesDiff_eq hcur hold]
  by_cases hcomparable : Comparable old cur
  · have hpairs : (∀ resource ∈ old, ∀ found, partner cur resource = some found →
        ReportedRight resource found) ↔
          ∀ resource ∈ old, ∀ found ∈ cur, found.id = resource.id →
            ReportedRight resource found := by
      simp only [partner_eq_some_iff hcur, and_imp]
    rw [if_pos hcomparable, and_iff_right hcomparable, ← forall_onlyIn_iff,
      ← perm_not_ignored_iff, ← hpairs, ← changed_perm_iff hcomparable]
    constructor
    · rintro ⟨diff, hdiff, haccounts⟩
      obtain rfl := Except.ok.inj hdiff
      exact ⟨haccounts.removed, haccounts.changed⟩
    · rintro ⟨hremoved, hchanged⟩
      exact ⟨_, rfl, List.Perm.of_eq (filter_names _), hremoved, hchanged⟩
  · rw [if_neg hcomparable]
    refine iff_of_false ?_ fun h => hcomparable h.1
    rintro ⟨diff, hdiff, _⟩
    cases hdiff

/-- What is added from the one state to the other is removed the other way round, for one
type, exactly under these conditions. -/
theorem swapped_iff (hold : (ids old).Nodup) (hcur : (ids cur).Nodup) :
    (∃ diff back, findResourcesDiff old cur = .ok diff ∧ findResourcesDiff cur old = .ok back ∧
        diff.added.Perm back.removed) ↔
      (Comparable old cur ∧ Comparable cur old) ∧
        ∀ resource ∈ cur, Ignored resource → resource.id ∈ ids old := by
  rw [findResourcesDiff_eq hcur hold, findResourcesDiff_eq hold hcur, ← forall_onlyIn_iff,
    ← perm_not_ignored_iff]
  by_cases hboth : Comparable old cur ∧ Comparable cur old
  · rw [if_pos hboth.1, if_pos hboth.2, and_iff_right hboth]
    constructor
    · rintro ⟨diff, back, hdiff, hback, hperm⟩
      obtain rfl := Except.ok.inj hdiff
      obtain rfl := Except.ok.inj hback
      rw [filter_names] at hperm
      exact hperm.symm
    · intro hperm
      refine ⟨_, _, rfl, rfl, ?_⟩
      rw [filter_names]
      exact hperm.symm
  · refine iff_of_false ?_ fun h => hboth h.1
    rintro ⟨diff, back, hdiff, hback, _⟩
    split at hdiff
    case isFalse => cases hdiff
    case isTrue hforth =>
      split at hback
      case isFalse => cases hback
      case isTrue hbackward => exact hboth ⟨hforth, hbackward⟩

/-- Both laws hold for one type exactly if its states agree. -/
theorem accounts_and_swapped_iff (hold : (ids old).Nodup) (hcur : (ids cur).Nodup) :
    ((∃ diff, findResourcesDiff old cur = .ok diff ∧ Accounts old cur diff) ∧
        ∃ diff back, findResourcesDiff old cur = .ok diff ∧
          findResourcesDiff cur old = .ok back ∧ diff.added.Perm back.removed) ↔
      Agree old cur := by
  rw [accounts_iff hold hcur, swapped_iff hold hcur]
  constructor
  · rintro ⟨⟨_, hin, hreported⟩, hboth, hnew⟩
    have hattributes := comparable_both_iff.mp hboth
    refine ⟨hattributes, fun resource hmem hignored => ?_, hnew⟩
    obtain ⟨found, hfound, hid⟩ := List.mem_map.mp (hin resource hmem hignored)
    have hright := hreported resource hmem found hfound hid
    unfold ReportedRight at hright
    rw [if_pos hignored, lookedFor_eq_differing (hattributes resource hmem found hfound hid)]
      at hright
    refine ⟨found, hfound, same_of_lookup fun key => ?_⟩
    by_contra hne
    exact Finset.eq_empty_iff_forall_notMem.mp hright key (mem_differing.mpr (Ne.symm hne))
  · intro h
    have hboth := comparable_both_iff.mpr h.attributes
    refine ⟨⟨hboth.1, fun resource hmem hignored => ?_, fun resource hmem found hfound hid => ?_⟩,
      hboth, h.newIgnored⟩
    · obtain ⟨found, hfound, hsame⟩ := h.oldIgnored resource hmem hignored
      exact List.mem_map.mpr ⟨found, hfound, Resource.id_of_same hsame⟩
    · unfold ReportedRight
      split
      case isTrue hignored =>
        obtain ⟨other, hother, hsame⟩ := h.oldIgnored resource hmem hignored
        have heq : other = found :=
          eq_of_id_eq hcur hother hfound ((Resource.id_of_same hsame).trans hid.symm)
        exact lookedFor_of_same (heq ▸ hsame)
      case isFalse =>
        exact lookedFor_eq_differing (h.attributes resource hmem found hfound hid)

/-- Nothing is reported of a state compared with itself. -/
theorem findResourcesDiff_self (hold : (ids old).Nodup) :
    findResourcesDiff old old = .ok {} := by
  have hcomparable : Comparable old old := by
    intro resource hmem found hfound hid key hkey
    rw [eq_of_id_eq hold hfound hmem hid]
    exact hkey
  have honly : onlyIn old old = [] := by
    refine List.filter_eq_nil_iff.mpr fun resource hmem hout => ?_
    exact of_decide_eq_true hout (List.mem_map_of_mem hmem)
  have hchanged : old.filterMap (changeOf old) = [] := by
    refine List.filterMap_eq_nil_iff.mpr fun resource hmem => ?_
    unfold changeOf changeBetween
    rw [(partner_eq_some_iff hold).mpr ⟨hmem, rfl⟩, Option.bind_some,
      if_pos (Resource.same_self resource)]
  rw [findResourcesDiff_eq hold hold, if_pos hcomparable, honly, hchanged]
  rfl

end

/-! ## All types -/

theorem nodup_collections : collections.Nodup := by decide

/-- What is put into the report for one type. -/
def reported (found : TypeDiff α) : Option (TypeDiff α) :=
  if found.isEmpty then none else some found

/-- The report for a type; a type that is left out has nothing to report. -/
def GeDiff.of (diff : GeDiff α) (collection : String) : TypeDiff α := (diff collection).getD {}

omit [DecidableEq α] in
theorem getD_reported (found : TypeDiff α) : (reported found).getD {} = found := by
  unfold reported
  split
  case isTrue h =>
    unfold TypeDiff.isEmpty at h
    simp only [Bool.and_eq_true, List.isEmpty_iff] at h
    obtain ⟨⟨hchanged, hadded⟩, hremoved⟩ := h
    obtain ⟨changed, added, removed⟩ := found
    subst hchanged hadded hremoved
    rfl
  case isFalse => rfl

/-- The comparison of one type of two states. -/
def typeDiff (old new : GeState α) (collection : String) : Except PyException (TypeDiff α) :=
  (old.get collection).bind fun rsrcOldState =>
    (new.get collection).bind fun rsrcCurState => findResourcesDiff rsrcOldState rsrcCurState

/-- The report consists of the comparisons of the types. -/
theorem compareGeState_eq_ok_iff {old new : GeState α} {diff : GeDiff α} :
    compareGeState old new = .ok diff ↔
      (∀ collection ∈ collections,
        (typeDiff old new collection).map reported = .ok (diff collection)) ∧
          ∀ collection ∉ collections, diff collection = none := by
  have hfill : compareGeState old new =
      fillTable (fun resourceType : ResourceType =>
          (typeDiff old new resourceType.collection).map reported)
        ResourceType.collection (fun _ => none) resourceTypesToDump := by
    unfold compareGeState fillTable
    congr 1
    funext diff resourceType
    simp only [compareType, typeDiff, bind]
    cases old.get resourceType.collection with
    | error e => rfl
    | ok rsrcOldState =>
      cases new.get resourceType.collection with
      | error e => rfl
      | ok rsrcCurState =>
        simp only [Except.bind]
        cases findResourcesDiff rsrcOldState rsrcCurState with
        | error e => rfl
        | ok found => rfl
  rw [hfill, fillTable_eq_ok_iff nodup_collections]
  unfold collections
  rw [List.forall_mem_map]

/-- The state of an engine: for each type a list of resources with different ids. -/
structure State (α : Type) where
  resources : String → List (Resource α)
  nodup : ∀ collection, (ids (resources collection)).Nodup

/-- The state as a dictionary of the types. -/
def State.geState (state : State α) : GeState α := fun collection =>
  if collection ∈ collections then some (state.resources collection) else none

theorem typeDiff_geState {old new : State α} {collection : String}
    (h : collection ∈ collections) :
    typeDiff old.geState new.geState collection =
      findResourcesDiff (old.resources collection) (new.resources collection) := by
  unfold typeDiff GeState.get State.geState
  simp only [if_pos h, Except.bind]

/-- The report of two states is the one of each type. -/
theorem of_compareGeState {old new : State α} {diff : GeDiff α}
    (h : compareGeState old.geState new.geState = .ok diff) {collection : String}
    (hmem : collection ∈ collections) :
    findResourcesDiff (old.resources collection) (new.resources collection) =
      .ok (diff.of collection) := by
  have hone := (compareGeState_eq_ok_iff.mp h).1 collection hmem
  rw [typeDiff_geState hmem] at hone
  obtain ⟨found, hfound, hreported⟩ := map_eq_ok_iff.mp hone
  rw [hfound, GeDiff.of, ← hreported, getD_reported]

/-- Where each type can be compared, the states can. -/
theorem exists_compareGeState {old new : State α}
    (h : ∀ collection ∈ collections, ∃ found,
      findResourcesDiff (old.resources collection) (new.resources collection) = .ok found) :
    ∃ diff, compareGeState old.geState new.geState = .ok diff := by
  refine ⟨fun collection => if collection ∈ collections then
    reported ((findResourcesDiff (old.resources collection)
      (new.resources collection)).toOption.getD {}) else none, ?_⟩
  refine compareGeState_eq_ok_iff.mpr ⟨fun collection hmem => ?_, fun _ hout => if_neg hout⟩
  obtain ⟨found, hfound⟩ := h collection hmem
  rw [typeDiff_geState hmem, if_pos hmem, hfound]
  rfl

/-- The comparison of two states is right: it comes to an end and accounts for every
resource, what is added is removed the other way round, and nothing is reported of a state
and itself. -/
structure DiffRight (old new : State α) : Prop where
  accounts : ∃ diff, compareGeState old.geState new.geState = .ok diff ∧
    ∀ collection ∈ collections,
      Accounts (old.resources collection) (new.resources collection) (diff.of collection)
  swapped : ∃ diff back, compareGeState old.geState new.geState = .ok diff ∧
    compareGeState new.geState old.geState = .ok back ∧
      ∀ collection ∈ collections,
        (diff.of collection).added.Perm (back.of collection).removed
  unchanged : compareGeState old.geState old.geState = .ok (fun _ => none) ∧
    compareGeState new.geState new.geState = .ok fun _ => none

theorem compareGeState_self (state : State α) :
    compareGeState state.geState state.geState = .ok fun _ => none := by
  refine compareGeState_eq_ok_iff.mpr ⟨fun collection hmem => ?_, fun _ _ => rfl⟩
  rw [typeDiff_geState hmem, findResourcesDiff_self (state.nodup collection)]
  rfl

theorem diffRight_iff_types {old new : State α} :
    DiffRight old new ↔ ∀ collection ∈ collections,
      (∃ diff,
        findResourcesDiff (old.resources collection) (new.resources collection) = .ok diff ∧
        Accounts (old.resources collection) (new.resources collection) diff) ∧
      ∃ diff back,
        findResourcesDiff (old.resources collection) (new.resources collection) = .ok diff ∧
        findResourcesDiff (new.resources collection) (old.resources collection) = .ok back ∧
          diff.added.Perm back.removed := by
  constructor
  · rintro ⟨⟨diff, hdiff, haccounts⟩, ⟨forth, back, hforth, hback, hperm⟩, _⟩ collection hmem
    exact ⟨⟨_, of_compareGeState hdiff hmem, haccounts collection hmem⟩, _, _,
      of_compareGeState hforth hmem, of_compareGeState hback hmem, hperm collection hmem⟩
  · intro h
    obtain ⟨diff, hdiff⟩ := exists_compareGeState fun collection hmem =>
      (h collection hmem).1.imp fun _ hfound => hfound.1
    obtain ⟨back, hback⟩ := @exists_compareGeState α _ new old fun collection hmem => by
      obtain ⟨_, back, _, hback, _⟩ := (h collection hmem).2
      exact ⟨back, hback⟩
    refine ⟨⟨diff, hdiff, fun collection hmem => ?_⟩, ⟨diff, back, hdiff, hback,
      fun collection hmem => ?_⟩, compareGeState_self old, compareGeState_self new⟩
    · obtain ⟨found, hfound, haccounts⟩ := (h collection hmem).1
      rw [← Except.ok.inj (hfound.symm.trans (of_compareGeState hdiff hmem))]
      exact haccounts
    · obtain ⟨found, other, hfound, hother, hperm⟩ := (h collection hmem).2
      rw [← Except.ok.inj (hfound.symm.trans (of_compareGeState hdiff hmem)),
        ← Except.ok.inj (hother.symm.trans (of_compareGeState hback hmem))]
      exact hperm

end

/-- A disk with a name that should be ignored. -/
def ovfStore : Resource Nat where
  items := [⟨"name", .text "OVF_STORE"⟩, ⟨"id", .text "disk1"⟩].toAList
  hasName := by decide
  hasId := by decide

/-- An engine with these disks and nothing else. -/
def withDisks (disks : List (Resource Nat)) (h : (ids disks).Nodup) : State Nat where
  resources collection := if collection = "disks" then disks else []
  nodup collection := by
    split
    case isTrue => exact h
    case isFalse => exact List.nodup_nil

end OvirtArt.Utils.Inventory
