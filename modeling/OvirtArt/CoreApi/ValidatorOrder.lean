import OvirtArt.CoreApi.ValidatorSafe
import OvirtArt.Foundation.Collecting
import OvirtArt.Foundation.Lists

set_option autoImplicit false

/-!
# Whether the order of a list matters

Lists are sorted before they are compared: primitives by their values, elements by the first of
a few attributes that the two first elements have.  The order of the lists in the two trees
does not matter where this choice does not depend on it either, and where equal primitives have
one text.

The result is proved by mutual recursion on values, lists and attributes: two trees that differ in
the order of their lists only get the same verdict, whatever they are compared with.
-/

namespace OvirtArt.CoreApi

open OvirtArt.Foundation

variable {printer : Printer} {ds : DsModule}

/-! ## Permuted trees -/

mutual

/-- The lists in the second value, at every depth, are permutations of those in the first. -/
inductive Permuted : Value → Value → Prop
  | none : Permuted .none .none
  | prim (p : Prim) : Permuted (.prim p) (.prim p)
  | list {items middle items' : List Value} (hitems : List.Forall₂ Permuted items middle)
      (hperm : middle.Perm items') : Permuted (.list items) (.list items')
  | elem {className : String} {attrs attrs' : List (String × Value)}
      (hattrs : PermutedAttrs attrs attrs') :
      Permuted (.elem className attrs) (.elem className attrs')

/-- The attributes of two elements, each permuted. -/
inductive PermutedAttrs : List (String × Value) → List (String × Value) → Prop
  | nil : PermutedAttrs [] []
  | cons {name : String} {value value' : Value} {rest rest' : List (String × Value)}
      (hvalue : Permuted value value') (hrest : PermutedAttrs rest rest') :
      PermutedAttrs ((name, value) :: rest) ((name, value') :: rest')

end

theorem PermutedAttrs.lookup {attrs attrs' : List (String × Value)}
    (h : PermutedAttrs attrs attrs') (name : String) :
    Option.Rel Permuted (attrs.lookup name) (attrs'.lookup name) := by
  match h with
  | .nil => exact .none
  | .cons hvalue hrest =>
    rw [List.lookup_cons, List.lookup_cons]
    split
    · exact .some hvalue
    · exact hrest.lookup name

variable {items items' elms elms' : List Value} {attr : String}
  {value value' elm expVal actVal expElm actElm elm' : Value} {spec : MemberSpec}
  {recursion : Recursion} {ignore names : List String}

theorem Permuted.getattr (h : Permuted value value') (name : String) :
    Option.Rel Permuted (value.getattr name) (value'.getattr name) := by
  cases h with
  | none | prim _ | list _ _ => exact .none
  | elem hattrs => exact hattrs.lookup name

theorem Permuted.getAttibuteValue (h : Permuted value value') (name : String) :
    Option.Rel Permuted (getAttibuteValue value name) (getAttibuteValue value' name) := by
  have hraw := h.getattr (getterName name)
  unfold CoreApi.getAttibuteValue
  generalize value.getattr (getterName name) = found at hraw
  generalize value'.getattr (getterName name) = found' at hraw
  cases hraw with
  | none => exact .none
  | some hfound =>
    cases hfound with
    | none => exact .some .none
    | prim p => cases p <;> exact .some (.prim _)
    | list hitems hperm => exact .some (.list hitems hperm)
    | elem hattrs => exact .some (.elem hattrs)

theorem Permuted.className_eq (h : Permuted value value') : value'.className = value.className := by
  cases h with
  | none | prim _ | list _ _ | elem _ => rfl

theorem Permuted.isSet_eq (h : Permuted value value') : value'.isSet = value.isSet := by
  cases h with
  | none | prim _ | list _ _ | elem _ => rfl

theorem Permuted.isPrimitive_eq (h : Permuted value value') :
    value'.isPrimitive = value.isPrimitive := by
  cases h with
  | none | prim _ | list _ _ | elem _ => rfl

theorem Permuted.isBool_eq (h : Permuted value value') : value'.isBool = value.isBool := by
  cases h with
  | none | prim _ | list _ _ | elem _ => rfl

theorem Permuted.key_eq (h : Permuted value value') : value.key = value'.key := by
  cases h with
  | none | prim _ | list _ _ | elem _ => rfl

theorem Permuted.falsy_eq (h : Permuted value value') : value'.falsy = value.falsy := by
  cases h with
  | none | prim _ | elem _ => rfl
  | list hitems hperm =>
    have hlength := hitems.length_eq.trans hperm.length_eq
    simp only [Value.falsy]
    rw [Bool.eq_iff_iff, List.isEmpty_iff_length_eq_zero, List.isEmpty_iff_length_eq_zero,
      hlength]

theorem Permuted.sortKey_eq (h : Permuted elm elm') (attr : String) :
    sortKey attr elm = sortKey attr elm' := by
  have hvalues := h.getattr attr
  unfold sortKey
  generalize elm.getattr attr = found at hvalues
  generalize elm'.getattr attr = found' at hvalues
  cases hvalues with
  | none => rfl
  | some hfound => exact hfound.key_eq

/-! ## Permuted lists -/

/-- The second list is a permutation of the first, and so are the lists in its elements. -/
def PermutedList (items items' : List Value) : Prop :=
  ∃ middle, List.Forall₂ Permuted items middle ∧ middle.Perm items'

/-- Every item of a permuted list is one of the first list, permuted. -/
theorem PermutedList.exists_left (h : PermutedList items items') {item' : Value}
    (hitem : item' ∈ items') : ∃ item ∈ items, Permuted item item' := by
  obtain ⟨middle, hmiddle, hperm⟩ := h
  exact exists_right_of_forall₂ hmiddle.flip (hperm.mem_iff.mpr hitem)

theorem PermutedList.length_eq (h : PermutedList items items') : items.length = items'.length := by
  obtain ⟨middle, hmiddle, hperm⟩ := h
  exact hmiddle.length_eq.trans hperm.length_eq

theorem map_sortKey_eq (h : List.Forall₂ Permuted elms elms') :
    elms.map (sortKey attr) = elms'.map (sortKey attr) := by
  induction h with
  | nil => rfl
  | cons hfirst _ ih => rw [List.map_cons, List.map_cons, hfirst.sortKey_eq, ih]

theorem DistinctKeys.permuted (h : DistinctKeys attr elms) (hperm : PermutedList elms elms') :
    DistinctKeys attr elms' where
  set := by
    intro elm' helm'
    obtain ⟨elm, helm, hpermuted⟩ := hperm.exists_left helm'
    obtain ⟨value, hvalue, hset⟩ := h.set elm helm
    have hvalues := hpermuted.getattr attr
    rw [hvalue] at hvalues
    cases hvalues' : elm'.getattr attr with
    | none =>
      rw [hvalues'] at hvalues
      cases hvalues
    | some value' =>
      rw [hvalues'] at hvalues
      cases hvalues with
      | some hvalue' => exact ⟨value', rfl, hvalue'.isSet_eq.trans hset⟩
  nodup := by
    obtain ⟨middle, hmiddle, hperm⟩ := hperm
    have hkeys := h.nodup
    rw [map_sortKey_eq hmiddle] at hkeys
    exact (hperm.map (sortKey attr)).nodup_iff.mp hkeys

/-- Lists with distinct keys are sorted alike whatever their order. -/
theorem forall₂_sortOn_permuted (h : DistinctKeys attr elms) (hperm : PermutedList elms elms') :
    List.Forall₂ Permuted (sortOn (sortKey attr) elms) (sortOn (sortKey attr) elms') := by
  obtain ⟨middle, hmiddle, hperm⟩ := hperm
  have hkeys := h.nodup
  rw [map_sortKey_eq hmiddle] at hkeys
  rw [← sortOn_eq_of_perm (sortKey attr) hkeys hperm]
  exact forall₂_sortOn (fun x y hxy => hxy.sortKey_eq attr) hmiddle

theorem forall₂_sortByExistence {others others' : List Value}
    (helms : List.Forall₂ Permuted elms elms') (hothers : List.Forall₂ Permuted others others') :
    List.Forall₂ Permuted (sortByExistence attr elms others)
      (sortByExistence attr elms' others') := by
  refine forall₂_sortOn (fun x y hxy => ?_) helms
  rw [hxy.sortKey_eq attr, map_sortKey_eq hothers]

theorem forall₂_sortElementsByExistence {attr : String}
    {actElms actElms' expElms expElms' : List Value}
    (hact : List.Forall₂ Permuted actElms actElms')
    (hexp : List.Forall₂ Permuted expElms expElms') :
    List.Forall₂ Permuted (sortElementsByExistence actElms expElms attr).1
        (sortElementsByExistence actElms' expElms' attr).1 ∧
      List.Forall₂ Permuted (sortElementsByExistence actElms expElms attr).2
        (sortElementsByExistence actElms' expElms' attr).2 := by
  unfold sortElementsByExistence
  rw [hact.length_eq, hexp.length_eq]
  split
  · exact ⟨hact, hexp⟩
  · split
    · exact ⟨forall₂_sortByExistence hact hexp, hexp⟩
    · exact ⟨hact, forall₂_sortByExistence hexp hact⟩

/-! ## The attribute to sort by -/

/-- The element has the attribute set. -/
def HasSet (attr : String) (elm : Value) : Prop := (elm.getattr attr).any Value.isSet = true

theorem Permuted.hasSet_iff (h : Permuted elm elm') (attr : String) :
    HasSet attr elm' ↔ HasSet attr elm := by
  have hvalues := h.getattr attr
  unfold HasSet
  generalize elm.getattr attr = found at hvalues
  generalize elm'.getattr attr = found' at hvalues
  cases hvalues with
  | none => exact Iff.rfl
  | some hfound =>
    rw [Option.any_some, Option.any_some, hfound.isSet_eq]

/-- Lists that are sorted by one attribute whatever their order: all elements have it, with
distinct values, and of the attributes in front of it one of the lists has none. -/
structure SortsBy (attr : String) (actElms expElms : List Value) : Prop where
  first : ∃ front back, sortAttrs = front ++ attr :: back ∧ ∀ other ∈ front,
    (∀ elm ∈ actElms, ¬ HasSet other elm) ∨ ∀ elm ∈ expElms, ¬ HasSet other elm
  actual : DistinctKeys attr actElms
  expected : DistinctKeys attr expElms

theorem SortsBy.permuted {actElms actElms' expElms expElms' : List Value}
    (h : SortsBy attr actElms expElms) (hact : PermutedList actElms actElms')
    (hexp : PermutedList expElms expElms') : SortsBy attr actElms' expElms' where
  first := by
    obtain ⟨front, back, hsplit, hfront⟩ := h.first
    have hunset : ∀ {elms elms' : List Value} {other : String}, PermutedList elms elms' →
        (∀ elm ∈ elms, ¬ HasSet other elm) → ∀ elm' ∈ elms', ¬ HasSet other elm' := by
      intro elms elms' other hperm hnone elm' helm' hset
      obtain ⟨elm, helm, hpermuted⟩ := hperm.exists_left helm'
      exact hnone elm helm ((hpermuted.hasSet_iff other).mp hset)
    refine ⟨front, back, hsplit, fun other hother => ?_⟩
    exact (hfront other hother).imp (hunset hact) (hunset hexp)
  actual := h.actual.permuted hact
  expected := h.expected.permuted hexp

theorem DistinctKeys.hasSet (h : DistinctKeys attr elms) (helm : elm ∈ elms) : HasSet attr elm := by
  obtain ⟨value, hvalue, hset⟩ := h.set elm helm
  unfold HasSet
  rw [hvalue, Option.any_some, hset]

/-- The attribute of the first elements is the one that all elements have. -/
theorem SortsBy.sortAttr_eq {firstAct firstExp : Value} {restAct restExp : List Value}
    (h : SortsBy attr (firstAct :: restAct) (firstExp :: restExp)) :
    sortAttr (firstAct :: restAct) (firstExp :: restExp) = some attr := by
  obtain ⟨front, back, hsplit, hfront⟩ := h.first
  unfold sortAttr
  rw [List.find?_eq_some_iff_append]
  refine ⟨?_, front, back, hsplit, fun other hother => ?_⟩
  · have hact := h.actual.hasSet List.mem_cons_self
    have hexp := h.expected.hasSet List.mem_cons_self
    unfold HasSet at hact hexp
    simp [hact, hexp]
  · rcases hfront other hother with hnone | hnone
    · have hact := hnone firstAct List.mem_cons_self
      unfold HasSet at hact
      simp [hact]
    · have hexp := hnone firstExp List.mem_cons_self
      unfold HasSet at hexp
      simp [hexp]

/-- There is an order that does not depend on that of the lists: that by an attribute, or the
only one. -/
def Sortable (actElms expElms : List Value) : Prop :=
  (∃ attr, SortsBy attr actElms expElms) ∨ ∃ act exp, actElms = [act] ∧ expElms = [exp]

theorem sortElements_singletons (act exp : Value) :
    sortElements [act] [exp] = .ok ([act], [exp]) := by
  unfold sortElements
  cases hattr : sortAttr [act] [exp] with
  | none => rfl
  | some attr =>
    have hboth := List.find?_some hattr
    simp only [List.head?_cons, Option.bind_some, Bool.and_eq_true] at hboth
    have hset : ∀ elm ∈ [act] ++ [exp], (elm.getattr attr).isSome = true := by
      intro elm helm
      rcases List.mem_pair.mp helm with rfl | rfl
      · exact Option.isSome_of_any hboth.1
      · exact Option.isSome_of_any hboth.2
    simp only [sortElementsByAttr, if_pos hset]
    rfl

theorem permutedList_singleton (h : PermutedList [elm] elms') :
    ∃ elm', elms' = [elm'] ∧ Permuted elm elm' := by
  obtain ⟨middle, hmiddle, hperm⟩ := h
  cases hmiddle with
  | cons hfirst hrest =>
    cases hrest
    exact ⟨_, List.singleton_perm.mp hperm |>.symm, hfirst⟩

/-- Sortable lists are sorted alike whatever their order. -/
theorem sortElements_permuted {firstAct firstExp firstAct' firstExp' : Value}
    {restAct restExp restAct' restExp' : List Value}
    (h : Sortable (firstAct :: restAct) (firstExp :: restExp))
    (hact : PermutedList (firstAct :: restAct) (firstAct' :: restAct'))
    (hexp : PermutedList (firstExp :: restExp) (firstExp' :: restExp')) :
    ∃ actSorted expSorted actSorted' expSorted',
      sortElements (firstAct :: restAct) (firstExp :: restExp) = .ok (actSorted, expSorted) ∧
      sortElements (firstAct' :: restAct') (firstExp' :: restExp') =
        .ok (actSorted', expSorted') ∧
      List.Forall₂ Permuted actSorted actSorted' ∧
      List.Forall₂ Permuted expSorted expSorted' := by
  rcases h with ⟨attr, hsorts⟩ | ⟨act, exp, hactEq, hexpEq⟩
  · have hsorts' := hsorts.permuted hact hexp
    obtain ⟨actSorted, expSorted, hsort, hsorted⟩ :=
      sortElements_of_distinctKeys hsorts.sortAttr_eq hsorts.actual hsorts.expected
    obtain ⟨actSorted', expSorted', hsort', hsorted'⟩ :=
      sortElements_of_distinctKeys hsorts'.sortAttr_eq hsorts'.actual hsorts'.expected
    have hboth := @forall₂_sortElementsByExistence attr _ _ _ _
      (forall₂_sortOn_permuted hsorts.actual hact)
      (forall₂_sortOn_permuted hsorts.expected hexp)
    rw [hsorted, hsorted'] at hboth
    exact ⟨_, _, _, _, hsort, hsort', hboth.1, hboth.2⟩
  · rw [hactEq] at hact ⊢
    rw [hexpEq] at hexp ⊢
    obtain ⟨act', hactEq', hact'⟩ := permutedList_singleton hact
    obtain ⟨exp', hexpEq', hexp'⟩ := permutedList_singleton hexp
    rw [hactEq', hexpEq']
    exact ⟨_, _, _, _, sortElements_singletons act exp, sortElements_singletons act' exp',
      .cons hact' .nil, .cons hexp' .nil⟩

/-! ## Texts -/

/-- What `str` says of an element does not depend on the order of its lists. -/
def OrderBlind (printer : Printer) : Prop :=
  ∀ value value', Permuted value value' → printer.objectStr value = printer.objectStr value'

/-- Primitives of which equal ones have one text. -/
structure PrintsAlike (printer : Printer) (items : List Value) : Prop where
  primitive : ∀ item ∈ items, item.isPrimitive = true
  alike : ∀ x ∈ items, ∀ y ∈ items, x.key = y.key → x.repr printer = y.repr printer

/-- Values that are compared by the same text, whatever the order of lists is: no lists, or lists
of primitives in a container. -/
def TextOrderly (printer : Printer) (spec : MemberSpec) (expVal actVal : Value) : Prop :=
  (∀ items, expVal ≠ .list items) ∧ (∀ items, actVal ≠ .list items) ∨
    spec.container = true ∧ ∃ expItems actItems, expVal = .list expItems ∧
      actVal = .list actItems ∧ PrintsAlike printer expItems ∧ PrintsAlike printer actItems

/-- Equal, and with one text. -/
def Alike (printer : Printer) (x y : Value) : Prop :=
  x.key = y.key ∧ x.repr printer = y.repr printer

theorem permutedList_perm (hprim : ∀ item ∈ items, item.isPrimitive = true)
    (h : PermutedList items items') : items.Perm items' := by
  obtain ⟨middle, hmiddle, hperm⟩ := h
  have hsame : items = middle := by
    clear hperm
    induction hmiddle with
    | nil => rfl
    | cons hfirst _ ih =>
      rw [List.forall_mem_cons] at hprim
      rw [ih hprim.2]
      cases hfirst with
      | prim p => rfl
      | none | list _ _ | elem _ => cases hprim.1
  exact hsame ▸ hperm

/-- Sorted by their values, permuted primitives are alike at every position. -/
theorem forall₂_alike_sortOn (h : PrintsAlike printer items) (hperm : items.Perm items') :
    List.Forall₂ (Alike printer) (sortOn Value.key items) (sortOn Value.key items') := by
  have hkeys := map_sortOn_eq Value.key (hperm.map Value.key)
  have hmem : ∀ x ∈ sortOn Value.key items, x ∈ items := fun x hx => (mem_sortOn _).mp hx
  have hmem' : ∀ x ∈ sortOn Value.key items', x ∈ items :=
    fun x hx => hperm.mem_iff.mpr ((mem_sortOn _).mp hx)
  generalize sortOn Value.key items = sorted at hkeys hmem
  generalize sortOn Value.key items' = sorted' at hkeys hmem'
  induction sorted generalizing sorted' with
  | nil =>
    cases sorted' with
    | nil => exact .nil
    | cons y later => cases hkeys
  | cons x rest ih =>
    cases sorted' with
    | nil => cases hkeys
    | cons y later =>
      rw [List.map_cons, List.map_cons, List.cons.injEq] at hkeys
      rw [List.forall_mem_cons] at hmem hmem'
      exact .cons ⟨hkeys.1, h.alike x hmem.1 y hmem'.1 hkeys.1⟩
        (ih hmem.2 _ hkeys.2 hmem'.2)

theorem map_key_eq (h : List.Forall₂ (Alike printer) items items') :
    items.map Value.key = items'.map Value.key := by
  induction h with
  | nil => rfl
  | cons hfirst _ ih => rw [List.map_cons, List.map_cons, hfirst.1, ih]

theorem forall₂_filter {p p' : Value → Bool} (hp : ∀ x y, x.key = y.key → p x = p' y)
    (h : List.Forall₂ (Alike printer) items items') :
    List.Forall₂ (Alike printer) (items.filter p) (items'.filter p') :=
  List.rel_filter (fun x y hxy => Bool.eq_iff_iff.mp (hp x y hxy.1)) h

theorem forall₂_toSet (h : List.Forall₂ (Alike printer) items items') :
    List.Forall₂ (Alike printer) (toSet items) (toSet items') := by
  induction h with
  | nil => exact .nil
  | cons hfirst _ ih =>
    refine .cons hfirst (forall₂_filter (fun x y hxy => ?_) ih)
    rw [hxy, hfirst.1]

theorem forall₂_withoutIgnored (attr : String) {expItems expItems' actItems actItems' : List Value}
    (hexp : List.Forall₂ (Alike printer) expItems expItems')
    (hact : List.Forall₂ (Alike printer) actItems actItems') :
    List.Forall₂ (Alike printer) (withoutIgnored attr expItems actItems)
      (withoutIgnored attr expItems' actItems') := by
  unfold withoutIgnored
  cases valsIgnoreDict.lookup attr with
  | none => exact hact
  | some ignored =>
    have hignored : List.Forall₂ (Alike printer)
        (actItems.filter fun x =>
          x.key ∉ expItems.map Value.key ∧ x.key ∈ ignored.map Value.key)
        (actItems'.filter fun x =>
          x.key ∉ expItems'.map Value.key ∧ x.key ∈ ignored.map Value.key) :=
      forall₂_filter (fun x y hxy => by rw [hxy, map_key_eq hexp]) hact
    refine forall₂_sortOn (fun x y hxy => hxy.1) ?_
    refine forall₂_filter (fun x y hxy => ?_) (forall₂_toSet hact)
    rw [hxy, map_key_eq hignored]

theorem reprItems_eq (h : List.Forall₂ (Alike printer) items items') :
    Value.reprItems printer items = Value.reprItems printer items' := by
  induction h with
  | nil => rfl
  | cons hfirst hrest ih =>
    cases hrest with
    | nil => simpa [Value.reprItems] using hfirst.2
    | cons hnext hlater =>
      change _ ++ _ ++ Value.reprItems printer (_ :: _) =
        _ ++ _ ++ Value.reprItems printer (_ :: _)
      rw [hfirst.2, ih]

theorem pyStr_list_eq (h : List.Forall₂ (Alike printer) items items') :
    (Value.list items).pyStr printer = (Value.list items').pyStr printer := by
  simp only [Value.pyStr, Value.repr, reprItems_eq h]

theorem Permuted.pyStr_eq (hblind : OrderBlind printer) (h : Permuted value value')
    (hlist : ∀ items, value ≠ .list items) : value.pyStr printer = value'.pyStr printer := by
  cases h with
  | none | prim _ => rfl
  | list => exact absurd rfl (hlist _)
  | elem hattrs =>
    simp only [Value.pyStr, Value.repr]
    rw [hblind _ _ (.elem hattrs)]

theorem comparedValues_of_no_list (hexp : ∀ items, expVal ≠ .list items) :
    comparedValues attr spec expVal actVal = .ok (expVal, actVal) := by
  unfold comparedValues
  split
  · exact absurd rfl (hexp _)
  · exact absurd rfl (hexp _)
  · rfl

theorem Permuted.ne_list (h : Permuted value value') (hlist : ∀ items, value ≠ .list items)
    (items : List Value) : value' ≠ .list items := by
  rintro rfl
  cases h with
  | list => exact hlist _ rfl

/-- The texts that are compared do not depend on the order of lists. -/
theorem comparedTexts_permuted (hblind : OrderBlind printer) {expVal' actVal' : Value}
    (h : TextOrderly printer spec expVal actVal) (hexp : Permuted expVal expVal')
    (hact : Permuted actVal actVal') :
    comparedTexts printer attr spec expVal actVal =
      comparedTexts printer attr spec expVal' actVal' := by
  unfold comparedTexts
  rcases h with ⟨hexpSingle, hactSingle⟩ | ⟨hcontainer, expItems, actItems, rfl, rfl, hexpPrints,
    hactPrints⟩
  · rw [comparedValues_of_no_list hexpSingle, comparedValues_of_no_list (hexp.ne_list hexpSingle)]
    simp only [bind, Except.bind]
    rw [hexp.pyStr_eq hblind hexpSingle, hact.pyStr_eq hblind hactSingle, hact.isBool_eq]
  · cases hexp with
    | @list _ expMiddle expItems' hexpItems hexpPerm =>
      cases hact with
      | @list _ actMiddle actItems' hactItems hactPerm =>
        have hexpSorted := forall₂_alike_sortOn hexpPrints
          (permutedList_perm hexpPrints.primitive ⟨expMiddle, hexpItems, hexpPerm⟩)
        have hactSorted := forall₂_alike_sortOn hactPrints
          (permutedList_perm hactPrints.primitive ⟨actMiddle, hactItems, hactPerm⟩)
        have hkept := forall₂_withoutIgnored attr hexpSorted hactSorted
        simp only [comparedValues, hcontainer, if_true, bind, Except.bind]
        rw [pyStr_list_eq hexpSorted, pyStr_list_eq hkept]
        rfl

/-! ## Calls -/

/-- In every call the order of lists does not matter: neither for texts, nor for how lists of
elements are sorted. -/
structure Orderly (printer : Printer) (ds : DsModule) (ignore : List String)
    (expElm actElm : Value) : Prop where
  texts : ∀ names e a, Called ds ignore expElm actElm names e a →
    ∀ attr spec expVal actVal, Compares ds names e a attr spec expVal actVal →
      Textual spec actVal → TextOrderly printer spec expVal actVal
  lists : ∀ names e a, Called ds ignore expElm actElm names e a →
    ∀ attr spec firstExp restExp firstAct restAct,
      Compares ds names e a attr spec (.list (firstExp :: restExp))
        (.list (firstAct :: restAct)) →
      ¬ Textual spec (.list (firstAct :: restAct)) →
      Sortable (firstAct :: restAct) (firstExp :: restExp)

theorem Orderly.of_calls {e a : Value} (h : Orderly printer ds ignore expElm actElm)
    (hcalls : Calls ds ignore expElm actElm e a) :
    Orderly printer ds [] e a where
  texts := fun names e' a' hcalled => h.texts names e' a' (hcalled.of_calls hcalls)
  lists := fun names e' a' hcalled => h.lists names e' a' (hcalled.of_calls hcalls)

/-- A list with elements is a permutation of one with elements. -/
theorem Permuted.exists_cons {first' : Value} {rest' : List Value}
    (h : Permuted value (.list (first' :: rest'))) :
    ∃ first rest, value = .list (first :: rest) := by
  cases h with
  | @list items middle items' hitems hperm =>
    cases items with
    | nil =>
      cases hitems
      cases hperm.length_eq
    | cons first rest => exact ⟨first, rest, rfl⟩

theorem compareLists_permuted {expElms expElms' actElms actElms' : List Value}
    (hexp : List.Forall₂ Permuted expElms expElms') (hact : List.Forall₂ Permuted actElms actElms')
    (h : ∀ (i : Nat) (e a e' a' : Value), expElms[i]? = some e → actElms[i]? = some a →
      Permuted e e' → Permuted a a' → ∀ equal, recursion e a equal = recursion e' a' equal)
    (equal : Bool) :
    compareLists recursion expElms actElms equal =
      compareLists recursion expElms' actElms' equal := by
  induction hexp generalizing actElms actElms' equal with
  | nil => rfl
  | @cons e e' rest rest' hfirst hrest ih =>
    cases hact with
    | nil =>
      rw [compareLists, compareLists]
      exact ih .nil (fun i e a e' a' _ ha => by cases ha) equal
    | @cons a a' later later' hfirst' hlater =>
      rw [compareLists, compareLists, h 0 e a e' a' rfl rfl hfirst hfirst' equal]
      refine congrArg _ (funext fun same => ?_)
      exact ih hlater (fun i e a e' a' he ha => h (i + 1) e a e' a' he ha) _

/-- Values that are neither texts nor two lists with elements are compared by a call. -/
theorem compareValues_of_not_lists (htext : ¬ (spec.isXs || actVal.isPrimitive) = true)
    (hlists : ∀ firstExp restExp firstAct restAct, expVal = .list (firstExp :: restExp) →
      actVal = .list (firstAct :: restAct) → False) (equal : Bool) :
    compareValues printer recursion attr spec expVal actVal equal = (do
      let same ← recursion expVal actVal equal
      pure (if same then equal else false)) := by
  unfold compareValues
  rw [if_neg htext]
  split
  · exact (hlists _ _ _ _ rfl rfl).elim
  · rfl

section

variable {recursion : Recursion} {attr : String} {spec : MemberSpec}

/-- Two lists with elements are compared alike whatever their orders. -/
theorem compareValues_lists_permuted {firstExp firstAct : Value} {restExp restAct : List Value}
    {expItems' actItems' : List Value}
    (htext : ¬ Textual spec (.list (firstAct :: restAct)))
    (hexpList : PermutedList (firstExp :: restExp) expItems')
    (hactList : PermutedList (firstAct :: restAct) actItems')
    (hsortable : Sortable (firstAct :: restAct) (firstExp :: restExp))
    (h : ∀ e a e' a', Paired (.list (firstExp :: restExp)) (.list (firstAct :: restAct)) e a →
      Permuted e e' → Permuted a a' → ∀ equal, recursion e a equal = recursion e' a' equal)
    (equal : Bool) :
    compareValues printer recursion attr spec (.list (firstExp :: restExp))
        (.list (firstAct :: restAct)) equal =
      compareValues printer recursion attr spec (.list expItems') (.list actItems') equal := by
  cases expItems' with
  | nil => cases hexpList.length_eq
  | cons firstExp' restExp' =>
    cases actItems' with
    | nil => cases hactList.length_eq
    | cons firstAct' restAct' =>
      obtain ⟨actSorted, expSorted, actSorted', expSorted', hsort, hsort', hactSorted,
        hexpSorted⟩ := sortElements_permuted hsortable hactList hexpList
      have hnot : ¬ (spec.isXs || Value.isPrimitive (.list (firstAct :: restAct))) = true :=
        htext
      have hnot' : ¬ (spec.isXs || Value.isPrimitive (.list (firstAct' :: restAct'))) =
          true := htext
      unfold compareValues
      rw [if_neg hnot, if_neg hnot']
      simp only [hsort, hsort', bind, Except.bind]
      refine compareLists_permuted hexpSorted hactSorted ?_ equal
      intro i e a e' a' he ha hee haa
      exact h e a e' a' ⟨actSorted, expSorted, hsort, i, he, ha⟩ hee haa

theorem compareValues_permuted (hblind : OrderBlind printer) {expVal expVal' actVal actVal' : Value}
    (hexp : Permuted expVal expVal') (hact : Permuted actVal actVal')
    (htext : Textual spec actVal → TextOrderly printer spec expVal actVal)
    (hlists : ∀ firstExp restExp firstAct restAct, expVal = .list (firstExp :: restExp) →
      actVal = .list (firstAct :: restAct) → ¬ Textual spec actVal →
        Sortable (firstAct :: restAct) (firstExp :: restExp))
    (h : ¬ Textual spec actVal → ∀ e a e' a', Paired expVal actVal e a → Permuted e e' →
      Permuted a a' → ∀ equal, recursion e a equal = recursion e' a' equal)
    (equal : Bool) :
    compareValues printer recursion attr spec expVal actVal equal =
      compareValues printer recursion attr spec expVal' actVal' equal := by
  by_cases htextual : (spec.isXs || actVal.isPrimitive) = true
  · unfold compareValues
    rw [hact.isPrimitive_eq, if_pos htextual, if_pos htextual,
      comparedTexts_permuted hblind (htext htextual) hexp hact]
  · by_cases hboth : ∃ firstExp restExp firstAct restAct,
        expVal = .list (firstExp :: restExp) ∧ actVal = .list (firstAct :: restAct)
    · obtain ⟨firstExp, restExp, firstAct, restAct, rfl, rfl⟩ := hboth
      cases hexp with
      | @list _ expMiddle expItems' hexpItems hexpPerm =>
        cases hact with
        | @list _ actMiddle actItems' hactItems hactPerm =>
          exact compareValues_lists_permuted htextual ⟨expMiddle, hexpItems, hexpPerm⟩
            ⟨actMiddle, hactItems, hactPerm⟩ (hlists _ _ _ _ rfl rfl htextual) (h htextual)
            equal
    · have htextual' : ¬ (spec.isXs || actVal'.isPrimitive) = true := by
        rwa [hact.isPrimitive_eq]
      have hlists' : ∀ firstExp' restExp' firstAct' restAct',
          expVal' = .list (firstExp' :: restExp') → actVal' = .list (firstAct' :: restAct') →
            False := by
        rintro _ _ _ _ rfl rfl
        obtain ⟨firstExp, restExp, rfl⟩ := hexp.exists_cons
        obtain ⟨firstAct, restAct, rfl⟩ := hact.exists_cons
        exact hboth ⟨_, _, _, _, rfl, rfl⟩
      have hlists : ∀ firstExp restExp firstAct restAct, expVal = .list (firstExp :: restExp) →
          actVal = .list (firstAct :: restAct) → False :=
        fun _ _ _ _ hexpEq hactEq => hboth ⟨_, _, _, _, hexpEq, hactEq⟩
      have hpaired := (paired_of_not_lists hlists expVal actVal).mpr ⟨rfl, rfl⟩
      rw [compareValues_of_not_lists htextual hlists, compareValues_of_not_lists htextual' hlists',
        h htextual expVal actVal expVal' actVal' hpaired hexp hact equal]

end

/-- The attribute of a permuted element is not set either, or permuted. -/
theorem getAttibuteValue_permuted (h : Permuted elm elm') (name : String) :
    (getAttibuteValue elm name = none ∧ getAttibuteValue elm' name = none) ∨
      ∃ value value', getAttibuteValue elm name = some value ∧
        getAttibuteValue elm' name = some value' ∧ Permuted value value' := by
  have hrel := h.getAttibuteValue name
  cases hvalue : getAttibuteValue elm name with
  | none =>
    rw [hvalue] at hrel
    cases hvalue' : getAttibuteValue elm' name with
    | none => exact Or.inl ⟨rfl, rfl⟩
    | some value' =>
      rw [hvalue'] at hrel
      cases hrel
  | some value =>
    rw [hvalue] at hrel
    cases hvalue' : getAttibuteValue elm' name with
    | none =>
      rw [hvalue'] at hrel
      cases hrel
    | some value' =>
      rw [hvalue'] at hrel
      cases hrel with
      | some hpermuted => exact Or.inr ⟨value, value', rfl, rfl, hpermuted⟩

/-- An attribute of two elements is compared alike whatever the order of the lists. -/
theorem compareAttribute_permuted (hblind : OrderBlind printer) {expElm' actElm' : Value}
    (hexp : Permuted expElm expElm') (hact : Permuted actElm actElm')
    (horderly : Orderly printer ds ignore expElm actElm)
    (h : ∀ e a e' a', Calls ds ignore expElm actElm e a → Permuted e e' → Permuted a a' →
      ∀ equal, recursion e a equal = recursion e' a' equal)
    (hmem : ∃ elmClass, ds (getClassName expElm.className) = some elmClass ∧
      (attr, spec) ∈ getObjAttributes elmClass) (equal : Bool) :
    compareAttribute printer recursion ignore expElm actElm equal (attr, spec) =
      compareAttribute printer recursion ignore expElm' actElm' equal (attr, spec) := by
  unfold compareAttribute
  dsimp only
  by_cases hignored : attr ∈ ignoreList ++ ignore
  · rw [if_pos hignored, if_pos hignored]
  rw [if_neg hignored, if_neg hignored, hact.className_eq]
  rcases getAttibuteValue_permuted hexp (originalName attr) with
    ⟨hnone, hnone'⟩ | ⟨expVal, expVal', hexpVal, hexpVal', hexpPermuted⟩
  · rw [hnone, hnone']
  rcases getAttibuteValue_permuted hact (originalName attr) with
    ⟨hnone, hnone'⟩ | ⟨actVal, actVal', hactVal, hactVal', hactPermuted⟩
  · rw [hexpVal, hexpVal', hnone, hnone']
  rw [hexpVal, hexpVal', hactVal, hactVal']
  simp only [hexpPermuted.isSet_eq, hactPermuted.isSet_eq]
  by_cases hset : (expVal.isSet && actVal.isSet) = true
  · rw [if_pos hset, if_pos hset]
    rw [Bool.and_eq_true] at hset
    have hcompares : Compares ds ignore expElm actElm attr spec expVal actVal :=
      ⟨hmem, hignored, hexpVal, hactVal, hset.1, hset.2⟩
    refine compareValues_permuted hblind hexpPermuted hactPermuted ?_ ?_ ?_ equal
    · exact horderly.texts _ _ _ .root attr spec expVal actVal hcompares
    · rintro firstExp restExp firstAct restAct rfl rfl htext
      exact horderly.lists _ _ _ .root attr spec _ _ _ _ hcompares htext
    · intro htext e a e' a' hpaired
      exact h e a e' a' ⟨attr, spec, expVal, actVal, hcompares, htext, hpaired⟩
  · rw [if_neg hset, if_neg hset]

/-- The result is the same for permuted trees. -/
theorem compareElements_permuted (hblind : OrderBlind printer) (limit : Nat)
    {expElm' actElm' : Value} (hexp : Permuted expElm expElm') (hact : Permuted actElm actElm')
    (horderly : Orderly printer ds ignore expElm actElm) (equal : Bool) :
    compareElements printer ds limit ignore expElm actElm equal =
      compareElements printer ds limit ignore expElm' actElm' equal := by
  induction limit generalizing ignore expElm expElm' actElm actElm' equal with
  | zero => rfl
  | succ limit ih =>
    unfold compareElements
    rw [hact.falsy_eq, hexp.className_eq]
    split
    · rfl
    · cases hclass : ds (getClassName expElm.className) with
      | none => rfl
      | some elmClass =>
        refine foldlM_congr fun item hitem equal => ?_
        refine compareAttribute_permuted hblind hexp hact horderly ?_ ⟨elmClass, hclass, hitem⟩
          equal
        intro e a e' a' hcalls hee haa equal
        exact ih hee haa (horderly.of_calls hcalls) equal

mutual

theorem Permuted.refl : ∀ value, Permuted value value
  | .none => .none
  | .prim p => .prim p
  | .list items => .list (forall₂_permuted_refl items) (List.Perm.refl _)
  | .elem _ attrs => .elem (PermutedAttrs.refl attrs)

theorem forall₂_permuted_refl : ∀ items, List.Forall₂ Permuted items items
  | [] => .nil
  | item :: rest => .cons (Permuted.refl item) (forall₂_permuted_refl rest)

theorem PermutedAttrs.refl : ∀ attrs, PermutedAttrs attrs attrs
  | [] => .nil
  | (_, value) :: rest => .cons (Permuted.refl value) (PermutedAttrs.refl rest)

end

/-- An element with one list, permuted. -/
theorem permuted_of_perm {className name : String} (h : items.Perm items') :
    Permuted (.elem className [(name, .list items)]) (.elem className [(name, .list items')]) :=
  .elem (.cons (.list (forall₂_permuted_refl items) h) .nil)

/-- A cluster with networks of these names. -/
def clusterOf (names : List String) : Value :=
  .elem "Cluster" (clusterAttrs (names.map (network · "")))

theorem exists_network_of_mem (h : elm ∈ names.map (network · "")) :
    ∃ name comment, elm = network name comment := by
  obtain ⟨name, -, rfl⟩ := List.mem_map.mp h
  exact ⟨name, "", rfl⟩

theorem hasClass_clusterOf (names : List String) :
    HasClass clusterModule "Cluster" (clusterOf names) := by
  refine hasClass_cluster fun elm helm => ?_
  obtain ⟨name, comment, rfl⟩ := exists_network_of_mem helm
  exact hasClass_network name comment

/-- The clusters are compared, and networks. -/
theorem called_clusterOf {firstExp firstAct : String} {restExp restAct : List String} {e a : Value}
    (h : Called clusterModule [] (clusterOf (firstExp :: restExp))
      (clusterOf (firstAct :: restAct)) names e a) :
    e = clusterOf (firstExp :: restExp) ∧ a = clusterOf (firstAct :: restAct) ∨
      ∃ name comment, e = network name comment := by
  have hexp : ∀ elm ∈ (firstExp :: restExp).map (network · ""),
      ∃ name comment, elm = network name comment := fun _ => exists_network_of_mem
  exact called_clusters hexp h

/-- A text of a network is compared with a single value. -/
theorem not_list_of_network {a : Value} {name comment className : String}
    (hexp : HasClass clusterModule className expElm)
    (hact : HasClass clusterModule className actElm)
    (hcalled : Called clusterModule [] expElm actElm names (network name comment) a)
    (hcompares : Compares clusterModule names (network name comment) a attr spec expVal actVal) :
    (∀ items, expVal ≠ .list items) ∧ ∀ items, actVal ≠ .list items := by
  have hsingle := hcompares.network.1
  rcases hcalled.hasClass hexp hact with ⟨className, he, ha⟩ | rfl | ⟨-, hleaf | ⟨p, hleaf⟩⟩
  · obtain ⟨hexpFits, hactFits⟩ := hcompares.fits he ha
    exact ⟨fun items => hexpFits.ne_list hsingle, fun items => hactFits.ne_list hsingle⟩
  · cases (exists_elem_of_getAttibuteValue hcompares.actual).choose_spec.choose_spec
  · cases hleaf
  · cases hleaf

/-- Clusters with networks are compared without regard to the order of the networks. -/
theorem orderly_clusters {printer : Printer} {firstExp firstAct : String}
    {restExp restAct : List String}
    (h : Sortable ((firstAct :: restAct).map (network · ""))
      ((firstExp :: restExp).map (network · ""))) :
    Orderly printer clusterModule [] (clusterOf (firstExp :: restExp))
      (clusterOf (firstAct :: restAct)) := by
  refine ⟨?_, ?_⟩
  · intro names e a hcall attr spec expVal actVal hcompares htext
    rcases called_clusterOf hcall with ⟨rfl, rfl⟩ | ⟨name, comment, rfl⟩
    · obtain ⟨rfl, rfl, rfl⟩ := hcompares.clusters
      have hxs : (⟨["Network"], true⟩ : MemberSpec).isXs = false := by decide
      simp [Textual, Value.isPrimitive, hxs] at htext
    · exact Or.inl (not_list_of_network (hasClass_clusterOf _) (hasClass_clusterOf _) hcall
        hcompares)
  · intro names e a hcall attr spec firstExp' restExp' firstAct' restAct' hcompares htext
    rcases called_clusterOf hcall with ⟨rfl, rfl⟩ | ⟨name, comment, rfl⟩
    · obtain ⟨-, hexpEq, hactEq⟩ := hcompares.clusters
      rw [Value.list.inj hexpEq, Value.list.inj hactEq]
      exact h
    · exact absurd (by simp [Textual, hcompares.network.2]) htext

/-- A module with pools whose hosts may lack a name, and with properties of one or of several
values. -/
def poolModule : DsModule
  | "Pool" => some (.mk [("host", ⟨["Host"], true⟩)] none)
  | "Host" => some (.mk [("name", ⟨["xs:string"], false⟩), ("id", ⟨["xs:string"], false⟩),
      ("comment", ⟨["xs:string"], false⟩)] none)
  | "Values" => some (.mk [("value", ⟨["xs:string"], true⟩)] none)
  | _ => none

/-- A text, or nothing. -/
def textOrNone (text : String) : Value :=
  if text.isEmpty then .none else .prim (.str text.toList)

/-- A host of which what is empty is not set. -/
def hostWith (name id comment : String) : Value :=
  .elem "Host" [("name", textOrNone name), ("id", textOrNone id), ("comment", textOrNone comment)]

/-- A pool with these hosts. -/
def pool (hosts : List Value) : Value := .elem "Pool" [("host", .list hosts)]

/-- An element with a list of values. -/
def valueList (values : List Prim) : Value :=
  .elem "Values" [("value", .list (values.map Value.prim))]

/-- The keys of the elements that have the attribute set. -/
def keysWhereSet (elms : List Value) (attr : String) : List Value.Key :=
  (elms.filter fun elm => (elm.getattr attr).any Value.isSet).map (sortKey attr)

/-- The elements that have a name, an id or an index have distinct ones. -/
def DistinctWhereSet (elms : List Value) : Prop :=
  (keysWhereSet elms "name").Nodup ∧ (keysWhereSet elms "id").Nodup ∧
    (keysWhereSet elms "index").Nodup

end OvirtArt.CoreApi
