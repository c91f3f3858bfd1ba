import Mathlib.Algebra.GroupWithZero.Nat
import OvirtArt.CoreApi.ValidatorSafe

set_option autoImplicit false

/-!
# Comparing a tree with its copy

Both sides of a comparison are treated alike, but for the lists of which some values may be
ignored: of these the actual one goes through a `set`.  A tree is accepted against its copy
exactly if no such list in it has a value twice.

Trees are typed, that is they have the attributes of their classes.  The proof follows the tree,
with one case for each kind of value.
-/

namespace OvirtArt.CoreApi

open OvirtArt.Foundation

variable {printer : Printer} {ds : DsModule}

/-! ## Values in a `set` -/

theorem toSet_sublist (items : List Value) : (toSet items).Sublist items := by
  induction items with
  | nil => exact .slnil
  | cons item rest ih => exact (List.filter_sublist.trans ih).cons_cons item

theorem nodup_toSet (items : List Value) : ((toSet items).map Value.key).Nodup := by
  induction items with
  | nil => exact List.nodup_nil
  | cons item rest ih =>
    rw [toSet, List.map_cons, List.nodup_cons]
    refine ⟨?_, (List.filter_sublist.map Value.key).nodup ih⟩
    intro hmem
    obtain ⟨other, hother, hkey⟩ := List.mem_map.mp hmem
    simp [hkey] at hother

/-- Values of which none is there twice are all kept. -/
theorem toSet_eq_iff {items : List Value} :
    toSet items = items ↔ (items.map Value.key).Nodup := by
  constructor
  · intro h
    rw [← h]
    exact nodup_toSet items
  · intro h
    induction items with
    | nil => rfl
    | cons item rest ih =>
      rw [List.map_cons, List.nodup_cons] at h
      rw [toSet, ih h.2]
      refine congrArg _ (List.filter_eq_self.mpr fun other hother => ?_)
      have hne : other.key ≠ item.key := by
        intro hkey
        exact h.1 (hkey ▸ List.mem_map_of_mem hother)
      simpa using hne

/-! ## The text of a list -/

/-- A list is printed as its items are, with two characters for each. -/
theorem length_reprItems {items : List Value} (h : items ≠ []) :
    (Value.reprItems printer items).length + 2 =
      (items.map fun item => (item.repr printer).length + 2).sum := by
  induction items with
  | nil => exact absurd rfl h
  | cons item rest ih =>
    cases rest with
    | nil => simp [Value.reprItems]
    | cons next later =>
      have hrest := ih (List.cons_ne_nil next later)
      rw [List.map_cons, List.sum_cons]
      simp only [Value.reprItems, List.length_append, String.length_toList]
      have hcomma : ", ".length = 2 := by decide
      omega

/-- Without an item a list is printed shorter. -/
theorem sum_le_of_sublist {small large : List Value} (h : small.Sublist large)
    (size : Value → Nat) (hpos : ∀ item, 0 < size item) :
    (small.map size).sum + large.length ≤ (large.map size).sum + small.length := by
  induction h with
  | slnil => exact Nat.le_refl _
  | @cons small large item _ ih =>
    have hitem := hpos item
    simp only [List.map_cons, List.sum_cons, List.length_cons]
    omega
  | cons_cons item _ ih =>
    simp only [List.map_cons, List.sum_cons, List.length_cons]
    omega

/-- A list without the repeated values has a shorter text. -/
theorem length_repr_toSet_lt {items : List Value} (h : ¬ (items.map Value.key).Nodup) :
    ((Value.list (sortOn Value.key (toSet items))).repr printer).length <
      ((Value.list items).repr printer).length := by
  have hne : items ≠ [] := by
    rintro rfl
    exact h List.nodup_nil
  have hsetNe : sortOn Value.key (toSet items) ≠ [] := by
    intro hnil
    have hlength := length_sortOn Value.key (toSet items)
    rw [hnil] at hlength
    cases items with
    | nil => exact hne rfl
    | cons item rest => simp [toSet] at hlength
  have hlt : (toSet items).length < items.length := by
    refine Nat.lt_of_le_of_ne (toSet_sublist items).length_le fun hlength => ?_
    exact h (toSet_eq_iff.mp ((toSet_sublist items).eq_of_length hlength))
  have hsum := sum_le_of_sublist (toSet_sublist items)
    (fun item => (item.repr printer).length + 2) fun _ => Nat.succ_pos _
  have hsorted := ((sortOn_perm Value.key (toSet items)).map
    fun item => (item.repr printer).length + 2).sum_nat
  have hsmall := @length_reprItems printer _ hsetNe
  have hlarge := @length_reprItems printer _ hne
  simp only [Value.repr, List.length_append, List.length_cons]
  omega

/-! ## The texts of a value and its copy -/

/-- Of an attribute that is in `VALS_IGNORE_DICT`, the actual list of a copy is the set of its
values. -/
theorem withoutIgnored_self (attr : String) (items : List Value) :
    withoutIgnored attr items items =
      if attr ∈ valsIgnoreDict.map Prod.fst then sortOn Value.key (toSet items) else items := by
  unfold withoutIgnored
  cases hlookup : valsIgnoreDict.lookup attr with
  | none =>
    have hnot : attr ∉ valsIgnoreDict.map Prod.fst := by
      intro hmem
      obtain ⟨item, hitem, rfl⟩ := List.mem_map.mp hmem
      have hne := List.lookup_eq_none_iff.mp hlookup item hitem
      simp at hne
    rw [if_neg hnot]
  | some ignored =>
    have hmem : attr ∈ valsIgnoreDict.map Prod.fst := by
      by_contra hnot
      have hnone : valsIgnoreDict.lookup attr = none := by
        refine List.lookup_eq_none_iff.mpr fun item hitem => ?_
        have hne : attr ≠ item.1 := by
          rintro rfl
          exact hnot (List.mem_map_of_mem hitem)
        simpa using hne
      rw [hnone] at hlookup
      cases hlookup
    rw [if_pos hmem]
    have hnothing : items.filter (fun x => decide (x.key ∉ items.map Value.key ∧
        x.key ∈ ignored.map Value.key)) = [] := by
      refine List.filter_eq_nil_iff.mpr fun x hx => ?_
      have hkey : x.key ∈ items.map Value.key := List.mem_map_of_mem hx
      simp [hkey]
    simp only [hnothing, List.map_nil, List.not_mem_nil, not_false_eq_true, decide_true,
      List.filter_true]

theorem pyStr_list (items : List Value) :
    (Value.list items).pyStr printer = .ok ((Value.list items).repr printer) := rfl

section

variable {attr : String} {spec : MemberSpec} {value expVal actVal : Value} {items : List Value}

/-- Values with one text are compared as the same. -/
theorem sameText_of_pyStr {expVal' actVal' : Value} {text : Text}
    (hcompared : comparedValues attr spec expVal actVal = .ok (expVal', actVal'))
    (hexp : expVal'.pyStr printer = .ok text) (hact : actVal'.pyStr printer = .ok text) :
    SameText printer attr spec expVal actVal := by
  unfold SameText comparedTexts
  simp only [hcompared, bind, Except.bind, hexp, hact]
  cases spec.isBoolean || actVal'.isBool with
  | false => exact ⟨_, rfl⟩
  | true => exact ⟨_, rfl⟩

/-- Texts that are compared as the same have one length. -/
theorem length_eq_of_sameText {expVal' actVal' : Value} {expText actText : Text}
    (hcompared : comparedValues attr spec expVal actVal = .ok (expVal', actVal'))
    (hexp : expVal'.pyStr printer = .ok expText) (hact : actVal'.pyStr printer = .ok actText)
    (h : SameText printer attr spec expVal actVal) : expText.length = actText.length := by
  obtain ⟨text, hsame⟩ := h
  simp only [comparedTexts, hcompared, bind, Except.bind, hexp, hact] at hsame
  split at hsame
  · obtain ⟨hexpLower, hactLower⟩ := Prod.mk.inj (Except.ok.inj hsame)
    have hlengths := congrArg List.length (hexpLower.trans hactLower.symm)
    rwa [List.length_map, List.length_map] at hlengths
  · obtain ⟨hexpText, hactText⟩ := Prod.mk.inj (Except.ok.inj hsame)
    exact congrArg List.length (hexpText.trans hactText.symm)

/-- A single value has the text of its copy. -/
theorem sameText_self_of_single (hcontainer : spec.container = false)
    (htext : ∀ text, value ≠ .prim (.unicode text)) :
    SameText printer attr spec value value := by
  obtain ⟨text, hstr⟩ := @pyStr_ok printer value htext
  exact sameText_of_pyStr (comparedValues_of_single hcontainer) hstr hstr

/-- What is compared of a list and its copy. -/
theorem comparedValues_self_list (hcontainer : spec.container = true) :
    comparedValues attr spec (.list items) (.list items) =
      .ok (.list (sortOn Value.key items),
        .list (if attr ∈ valsIgnoreDict.map Prod.fst
          then sortOn Value.key (toSet (sortOn Value.key items))
          else sortOn Value.key items)) := by
  rw [← withoutIgnored_self]
  simp [comparedValues, hcontainer]

/-- A list has the text of its copy exactly if no values of its attribute may be ignored, or no
value is there twice. -/
theorem sameText_self_list_iff (hcontainer : spec.container = true) :
    SameText printer attr spec (.list items) (.list items) ↔
      (attr ∈ valsIgnoreDict.map Prod.fst → (items.map Value.key).Nodup) := by
  have hcompared := @comparedValues_self_list attr spec items hcontainer
  have hnodup : ((sortOn Value.key items).map Value.key).Nodup ↔
      (items.map Value.key).Nodup :=
    ((sortOn_perm Value.key items).map Value.key).nodup_iff
  by_cases hignored : attr ∈ valsIgnoreDict.map Prod.fst
  · rw [if_pos hignored] at hcompared
    refine Iff.trans ⟨fun hsame => ?_, fun hdistinct => ?_⟩ (forall_prop_of_true hignored).symm
    · by_contra hdistinct
      have hshorter := @length_repr_toSet_lt printer (sortOn Value.key items)
        (hnodup.not.mpr hdistinct)
      have hlengths := length_eq_of_sameText hcompared (pyStr_list _) (pyStr_list _) hsame
      omega
    · rw [toSet_eq_iff.mpr (hnodup.mpr hdistinct), sortOn_sortOn] at hcompared
      exact sameText_of_pyStr hcompared (pyStr_list _) (pyStr_list _)
  · rw [if_neg hignored] at hcompared
    refine iff_of_true ?_ fun hmem => absurd hmem hignored
    exact sameText_of_pyStr hcompared (pyStr_list _) (pyStr_list _)

/-- A value has the text of its copy exactly if it is no list of an attribute some values of
which may be ignored, or has no value twice. -/
theorem sameText_self_iff (hfits : Fits ds spec value)
    (htext : ∀ text, value ≠ .prim (.unicode text)) :
    SameText printer attr spec value value ↔
      ∀ items, value = .list items → attr ∈ valsIgnoreDict.map Prod.fst →
        (items.map Value.key).Nodup := by
  cases hcontainer : spec.container with
  | false =>
    refine iff_of_true (sameText_self_of_single hcontainer htext) ?_
    rintro items rfl
    exact absurd rfl (hfits.ne_list hcontainer)
  | true =>
    obtain ⟨items, rfl⟩ := hfits.eq_list hcontainer
    simp only [sameText_self_list_iff hcontainer, Value.list.injEq, forall_eq']

end

/-! ## The calls for a tree and its copy -/

/-- A list and its copy are sorted alike. -/
theorem sortElements_self {elms actSorted expSorted : List Value}
    (h : sortElements elms elms = .ok (actSorted, expSorted)) : actSorted = expSorted := by
  unfold sortElements at h
  split at h
  · obtain ⟨rfl, rfl⟩ := Prod.mk.inj (Except.ok.inj h)
    rfl
  · unfold sortElementsByAttr at h
    split at h
    · simp only [bind, Except.bind, pure, Except.pure, Except.ok.injEq,
        sortElementsByExistence, if_true] at h
      obtain ⟨rfl, rfl⟩ := Prod.mk.inj h
      rfl
    · cases h

theorem eq_of_paired_self {value e a : Value} (h : Paired value value e a) : e = a := by
  unfold Paired at h
  split at h
  · obtain ⟨actSorted, expSorted, hsort, i, he, ha⟩ := h
    obtain rfl := sortElements_self hsort
    exact Option.some.inj (he.symm.trans ha)
  · exact h.1.trans h.2.symm

variable {className : String} {elm : Value}

/-- Of a tree and its copy, subtrees are compared with their copies. -/
theorem eq_of_called_self {e a : Value} {names : List String} (h : Called ds [] elm elm names e a) :
    e = a ∧ names = [] := by
  induction h with
  | root => exact ⟨rfl, rfl⟩
  | nested _ hcalls ih =>
    obtain ⟨rfl, rfl⟩ := ih
    obtain ⟨attr, spec, expVal, actVal, hcompares, _, hpaired⟩ := hcalls
    obtain rfl : expVal = actVal :=
      Option.some.inj (hcompares.expected.symm.trans hcompares.actual)
    exact ⟨eq_of_paired_self hpaired, rfl⟩

/-- The value of an attribute that is nothing nested with its copy is an empty list. -/
theorem eq_nil_of_calls_self {e : Value} (h : Calls ds [] elm elm e e)
    (helm : HasClass ds className elm) : (∃ name, HasClass ds name e) ∨ e = .list [] := by
  obtain ⟨attr, spec, expVal, actVal, hcompares, htext, hpaired⟩ := h
  obtain rfl : expVal = actVal :=
    Option.some.inj (hcompares.expected.symm.trans hcompares.actual)
  obtain ⟨hfits, -⟩ := hcompares.fits helm helm
  by_cases hnested : Nested expVal expVal
  · obtain ⟨name, he, -⟩ := hasClass_of_paired hfits hfits (not_textual htext).1 hnested hpaired
    exact Or.inl ⟨name, he⟩
  · have hlists : ∀ firstExp restExp firstAct restAct, expVal = .list (firstExp :: restExp) →
        expVal = .list (firstAct :: restAct) → False := by
      rintro _ _ _ _ rfl _
      exact hnested (.lists ..)
    obtain ⟨rfl, -⟩ := (paired_of_not_lists hlists e e).mp hpaired
    rcases (not_nested hfits hfits hcompares.expectedSet hcompares.actualSet htext hnested).2 with
      hempty | ⟨hfalsy, hempty | ⟨p, rfl⟩⟩
    · exact Or.inr hempty
    · exact Or.inr hempty
    · exact absurd (not_textual htext).2 (by simp [Value.isPrimitive])

/-! ## A tree against its copy -/

/-- In the lists of an element of which some values may be ignored, no value is there twice. -/
def UsagesDistinct (ds : DsModule) (elm : Value) : Prop :=
  ∀ attr spec items, Compares ds [] elm elm attr spec (.list items) (.list items) →
    Textual spec (.list items) → attr ∈ valsIgnoreDict.map Prod.fst →
      (items.map Value.key).Nodup

theorem sameTexts_self_iff (h : HasClass ds className elm) :
    (∀ attr spec expVal actVal, Compares ds [] elm elm attr spec expVal actVal →
      Textual spec actVal → textVerdict printer attr spec expVal actVal = .ok true) ↔
      UsagesDistinct ds elm := by
  constructor
  · intro htexts attr spec items hcompares htext hignored
    have hsame := textVerdict_eq_ok_true.mp (htexts attr spec _ _ hcompares htext)
    exact (sameText_self_iff (hcompares.fits h h).1 (by simp)).mp hsame items rfl hignored
  · intro hdistinct attr spec expVal actVal hcompares htext
    obtain rfl : expVal = actVal :=
      Option.some.inj (hcompares.expected.symm.trans hcompares.actual)
    apply textVerdict_eq_ok_true.mpr
    have hcoded : ∀ text, expVal ≠ .prim (.unicode text) := by
      rintro text rfl
      exact getAttibuteValue_ne_unicode hcompares.expected
    refine (sameText_self_iff (hcompares.fits h h).1 hcoded).mpr ?_
    rintro items rfl hignored
    exact hdistinct attr spec items hcompares htext hignored

theorem compare_self_of_distinct (h : HasClass ds className elm)
    (hdistinct : ∀ e, Called ds [] elm elm [] e e → UsagesDistinct ds e) :
    compare printer ds elm elm = .ok true := by
  induction hdepth : elm.depth using Nat.strong_induction_on generalizing className elm with
  | _ depth ih =>
    rw [← compareIgnoring_nil, judged_iff_calls judges_ok_true h h]
    refine ⟨(sameTexts_self_iff h).mpr (hdistinct elm .root), ?_⟩
    intro e a hcalls
    obtain ⟨rfl, -⟩ := eq_of_called_self (.nested .root hcalls)
    rcases eq_nil_of_calls_self hcalls h with ⟨name, he⟩ | rfl
    · apply ih e.depth (hdepth ▸ hcalls.depth_lt) he ?_ rfl
      intro e' hcalled
      exact hdistinct e' (hcalled.of_calls hcalls)
    · exact compare_falsy rfl

/-- A module with networks that have usages. -/
def usageModule : DsModule
  | "Network" => some (.mk [("usages", ⟨["Usages"], false⟩)] none)
  | "Usages" => some (.mk [("usage", ⟨["xs:string"], true⟩)] none)
  | _ => none

/-- A network with these usages. -/
def networkFor (usages : List String) : Value :=
  .elem "Network" [("usages",
    .elem "Usages" [("usage", .list (usages.map fun usage => .prim (.str usage.toList)))])]

theorem hasClass_networkFor (usages : List String) :
    HasClass usageModule "Network" (networkFor usages) := by
  have hnetwork : usageModule (getClassName "Network") =
      some (.mk [("usages", ⟨["Usages"], false⟩)] none) := by
    rw [getClassName_network]
    rfl
  have husages : usageModule (getClassName "Usages") =
      some (.mk [("usage", ⟨["xs:string"], true⟩)] none) := by
    have hname : getClassName "Usages" = "Usages" := by decide +kernel
    rw [hname]
    rfl
  have htexts : ∀ item ∈ usages.map fun usage => Value.prim (.str usage.toList),
      item.isPrimitive = true := by
    intro item hitem
    obtain ⟨usage, _, rfl⟩ := List.mem_map.mp hitem
    rfl
  have hnetworkMembers : (getObjAttributes (.mk [("usages", ⟨["Usages"], false⟩)] none)).map
      (fun item => (getterName (originalName item.1), item.2)) =
        [("usages", ⟨["Usages"], false⟩)] := by decide
  have husagesMembers : (getObjAttributes (.mk [("usage", ⟨["xs:string"], true⟩)] none)).map
      (fun item => (getterName (originalName item.1), item.2)) =
        [("usage", ⟨["xs:string"], true⟩)] := by decide
  refine .of_attrs hnetwork hnetworkMembers (by decide) (List.Perm.refl _) ?_
  refine List.forall_mem_singleton.mpr ⟨_, List.mem_singleton_self _, ?_⟩
  refine .tree rfl (by decide) ?_
  refine .of_attrs husages husagesMembers (by decide) (List.Perm.refl _) ?_
  refine List.forall_mem_singleton.mpr ⟨_, List.mem_singleton_self _, ?_⟩
  exact .prims rfl (by decide) htexts

end OvirtArt.CoreApi
