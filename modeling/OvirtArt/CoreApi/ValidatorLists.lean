import OvirtArt.CoreApi.ValidatorSound

set_option autoImplicit false

/-!
# Lists of elements

`compareElements` pairs the elements of two lists by their positions after
`sort_elements`.  Where the keys of each list are distinct and those of one list
are among those of the other, these pairs are the elements with the same key.

This is the case in which the sort does what it is for.  The other cases are in the modules on
pairing and on order.
-/

namespace OvirtArt.CoreApi

open OvirtArt.Foundation

variable {printer : Printer} {ds : DsModule}

/-! ## Keys -/

/-- Every element has the attribute set, no two of them to the same key. -/
structure DistinctKeys (attr : String) (elms : List Value) : Prop where
  set : ∀ elm ∈ elms, ∃ value, elm.getattr attr = some value ∧ value.isSet = true
  nodup : (elms.map (sortKey attr)).Nodup

/-- Every key of the first list is one of the second. -/
def KeysAmong (attr : String) (elms others : List Value) : Prop :=
  ∀ elm ∈ elms, sortKey attr elm ∈ others.map (sortKey attr)

/-- Every expected element is accepted against every actual one with its key. -/
def HoldsByKey (printer : Printer) (ds : DsModule) (attr : String)
    (expElms actElms : List Value) : Prop :=
  ∀ e ∈ expElms, ∀ a ∈ actElms, sortKey attr e = sortKey attr a → Accepts printer ds e a

variable {attr : String} {actElms expElms elms : List Value}

theorem DistinctKeys.eq_of_key (h : DistinctKeys attr elms) {x y : Value} (hx : x ∈ elms)
    (hy : y ∈ elms) (hkey : sortKey attr x = sortKey attr y) : x = y :=
  List.inj_on_of_nodup_map h.nodup hx hy hkey

theorem KeysAmong.length_le {others : List Value} (h : KeysAmong attr elms others)
    (hnodup : (elms.map (sortKey attr)).Nodup) : elms.length ≤ others.length := by
  have hsub : elms.map (sortKey attr) ⊆ others.map (sortKey attr) := by
    intro k hk
    obtain ⟨elm, helm, rfl⟩ := List.mem_map.mp hk
    exact h elm helm
  have hle := (List.subperm_of_subset hnodup hsub).length_le
  simpa using hle

/-- Lists with as many keys, those of one among those of the other, have the
same keys. -/
theorem KeysAmong.perm {others : List Value} (h : KeysAmong attr elms others)
    (hnodup : (elms.map (sortKey attr)).Nodup) (hlength : others.length ≤ elms.length) :
    (elms.map (sortKey attr)).Perm (others.map (sortKey attr)) := by
  have hsub : elms.map (sortKey attr) ⊆ others.map (sortKey attr) := by
    intro k hk
    obtain ⟨elm, helm, rfl⟩ := List.mem_map.mp hk
    exact h elm helm
  exact (List.subperm_of_subset hnodup hsub).perm_of_length_le (by simpa using hlength)

/-! ## Alignment -/

/-- Of a larger list sorted by existence, the keys begin with those of the
smaller one. -/
theorem keys_sortByExistence {small large : List Value} (hsmall : (small.map (sortKey attr)).Nodup)
    (hlarge : (large.map (sortKey attr)).Nodup) (hamong : KeysAmong attr small large) :
    (sortOn (sortKey attr) small).map (sortKey attr) <+:
      (sortByExistence attr (sortOn (sortKey attr) large)
        (sortOn (sortKey attr) small)).map (sortKey attr) := by
  have hkeys : ∀ elm, sortKey attr elm ∈ (sortOn (sortKey attr) small).map (sortKey attr) ↔
      sortKey attr elm ∈ small.map (sortKey attr) :=
    fun elm => ((sortOn_perm (sortKey attr) small).map (sortKey attr)).mem_iff
  unfold sortByExistence
  rw [sortOn_two (by decide), List.map_append,
    map_filter_sortOn (sortKey attr) hsmall hlarge hamong hkeys]
  exact List.prefix_append _ _

/-- Where all elements have keys, both lists are sorted by them. -/
theorem sortElements_of_distinctKeys (hattr : sortAttr actElms expElms = some attr)
    (hact : DistinctKeys attr actElms) (hexp : DistinctKeys attr expElms) :
    ∃ actSorted expSorted, sortElements actElms expElms = .ok (actSorted, expSorted) ∧
      sortElementsByExistence (sortOn (sortKey attr) actElms) (sortOn (sortKey attr) expElms)
        attr = (actSorted, expSorted) := by
  have hset : ∀ elm ∈ actElms ++ expElms, (elm.getattr attr).isSome = true := by
    intro elm hmem
    rcases List.mem_append.mp hmem with hmem | hmem
    · obtain ⟨value, hvalue, _⟩ := hact.set elm hmem
      simp [hvalue]
    · obtain ⟨value, hvalue, _⟩ := hexp.set elm hmem
      simp [hvalue]
  refine ⟨_, _, ?_, rfl⟩
  simp only [sortElements, hattr, sortElementsByAttr, if_pos hset]
  rfl

/-- After `sort_elements` the keys of one list begin with those of the other. -/
theorem sortElements_aligned (hattr : sortAttr actElms expElms = some attr)
    (hexp : DistinctKeys attr expElms) (hact : DistinctKeys attr actElms)
    (hamong : KeysAmong attr expElms actElms ∨ KeysAmong attr actElms expElms) :
    ∃ actSorted expSorted, sortElements actElms expElms = .ok (actSorted, expSorted) ∧
      (expSorted.map (sortKey attr) <+: actSorted.map (sortKey attr) ∨
        actSorted.map (sortKey attr) <+: expSorted.map (sortKey attr)) := by
  obtain ⟨actSorted, expSorted, hsort, hsorted⟩ := sortElements_of_distinctKeys hattr hact hexp
  refine ⟨actSorted, expSorted, hsort, ?_⟩
  simp only [sortElementsByExistence, length_sortOn] at hsorted
  rcases hamong with hamong | hamong
  · have hle := hamong.length_le hexp.nodup
    by_cases heq : actElms.length = expElms.length
    · rw [if_pos heq] at hsorted
      obtain ⟨rfl, rfl⟩ := Prod.mk.inj hsorted
      have hperm := hamong.perm hexp.nodup (by omega)
      rw [map_sortOn_eq (sortKey attr) hperm]
      exact Or.inl (List.prefix_refl _)
    · rw [if_neg heq, if_pos (by omega)] at hsorted
      obtain ⟨rfl, rfl⟩ := Prod.mk.inj hsorted
      exact Or.inl (keys_sortByExistence hexp.nodup hact.nodup hamong)
  · have hle := hamong.length_le hact.nodup
    by_cases heq : actElms.length = expElms.length
    · rw [if_pos heq] at hsorted
      obtain ⟨rfl, rfl⟩ := Prod.mk.inj hsorted
      have hperm := hamong.perm hact.nodup (by omega)
      rw [map_sortOn_eq (sortKey attr) hperm]
      exact Or.inl (List.prefix_refl _)
    · rw [if_neg heq, if_neg (by omega)] at hsorted
      obtain ⟨rfl, rfl⟩ := Prod.mk.inj hsorted
      exact Or.inr (keys_sortByExistence hact.nodup hexp.nodup hamong)

/-- Where keys begin with other keys, the elements at a position have one key. -/
theorem key_eq_of_aligned {xs ys : List Value} (h : xs.map (sortKey attr) <+: ys.map (sortKey attr))
    {i : Nat} {x y : Value} (hx : xs[i]? = some x) (hy : ys[i]? = some y) :
    sortKey attr x = sortKey attr y := by
  have hx' : (xs.map (sortKey attr))[i]? = some (sortKey attr x) := by simp [hx]
  have hy' : (ys.map (sortKey attr))[i]? = some (sortKey attr y) := by simp [hy]
  obtain ⟨rest, hrest⟩ := h
  rw [← hrest, List.getElem?_append_left] at hy'
  · exact Option.some.inj (hx'.symm.trans hy')
  · obtain ⟨hi, _⟩ := List.getElem?_eq_some_iff.mp hx'
    exact hi

/-- Where keys begin with other keys, an element has a partner at its position. -/
theorem exists_partner_of_aligned {xs ys : List Value}
    (h : xs.map (sortKey attr) <+: ys.map (sortKey attr)) {i : Nat} {x : Value}
    (hx : xs[i]? = some x) : ∃ y, ys[i]? = some y := by
  obtain ⟨hi, _⟩ := List.getElem?_eq_some_iff.mp hx
  have hle : xs.length ≤ ys.length := by simpa using h.length_le
  exact ⟨_, List.getElem?_eq_getElem (by omega)⟩

/-- Where the keys are distinct and those of one list among those of the other,
comparing by position is comparing by key. -/
theorem listHolds_iff_holdsByKey (hattr : sortAttr actElms expElms = some attr)
    (hexp : DistinctKeys attr expElms) (hact : DistinctKeys attr actElms)
    (hamong : KeysAmong attr expElms actElms ∨ KeysAmong attr actElms expElms) :
    ListHolds printer ds expElms actElms ↔ HoldsByKey printer ds attr expElms actElms := by
  obtain ⟨actSorted, expSorted, hsort, haligned⟩ :=
    sortElements_aligned hattr hexp hact hamong
  obtain ⟨hactPerm, hexpPerm⟩ := sortElements_perm hsort
  constructor
  · rintro ⟨_, _, heq, hall⟩ e he a ha hkey
    obtain ⟨rfl, rfl⟩ := Prod.mk.inj (Except.ok.inj (hsort.symm.trans heq))
    rcases haligned with hprefix | hprefix
    · obtain ⟨i, hi⟩ := List.getElem?_of_mem (hexpPerm.mem_iff.mpr he)
      obtain ⟨a', ha'⟩ := exists_partner_of_aligned hprefix hi
      have hsame : a' = a := hact.eq_of_key
        (hactPerm.mem_iff.mp (List.mem_of_getElem? ha')) ha
        ((key_eq_of_aligned hprefix hi ha').symm.trans hkey)
      exact hsame ▸ hall i e a' hi ha'
    · obtain ⟨i, hi⟩ := List.getElem?_of_mem (hactPerm.mem_iff.mpr ha)
      obtain ⟨e', he'⟩ := exists_partner_of_aligned hprefix hi
      have hsame : e' = e := hexp.eq_of_key
        (hexpPerm.mem_iff.mp (List.mem_of_getElem? he')) he
        ((key_eq_of_aligned hprefix hi he').symm.trans hkey.symm)
      exact hsame ▸ hall i e' a he' hi
  · intro hall
    refine ⟨actSorted, expSorted, hsort, fun i e a he ha => ?_⟩
    have hkey : sortKey attr e = sortKey attr a := by
      rcases haligned with hprefix | hprefix
      · exact key_eq_of_aligned hprefix he ha
      · exact (key_eq_of_aligned hprefix ha he).symm
    exact hall e (hexpPerm.mem_iff.mp (List.mem_of_getElem? he)) a
      (hactPerm.mem_iff.mp (List.mem_of_getElem? ha)) hkey

/-! ## A true verdict and keys -/

/-- Elements of one class that have a text in the attribute. -/
def TextKeys (attr className : String) (elmClass : DsClass) (elms : List Value) : Prop :=
  ∀ elm ∈ elms, (∃ attrs, elm = .elem className attrs) ∧ Declares elmClass elm ∧
    ∃ text, elm.getattr attr = some (.prim (.str text))

/-- The names by which elements are sorted are those of their getters. -/
theorem names_of_mem_sortAttrs (h : attr ∈ sortAttrs) :
    attr ∉ ignoreList ∧ originalName attr = attr ∧ getterName attr = attr := by
  revert attr
  decide

/-- An element that is accepted has the text that was expected. -/
theorem key_eq_of_accepts {className : String} {elmClass : DsClass} {spec : MemberSpec}
    (hattr : attr ∈ sortAttrs) (hclass : ds (getClassName className) = some elmClass)
    (hspec : (attr, spec) ∈ getObjAttributes elmClass) (hxs : spec.isXs = true)
    (hboolean : spec.isBoolean = false) {e a : Value} (he : TextKeys attr className elmClass [e])
    (ha : TextKeys attr className elmClass [a]) (h : Accepts printer ds e a) :
    sortKey attr e = sortKey attr a := by
  obtain ⟨hcounts, horiginal, hgetter⟩ := names_of_mem_sortAttrs hattr
  obtain ⟨⟨expAttrs, rfl⟩, hexp, expText, hexpText⟩ := he e List.mem_cons_self
  obtain ⟨⟨actAttrs, rfl⟩, hact, actText, hactText⟩ := ha a List.mem_cons_self
  have hexpVal : getAttibuteValue (.elem className expAttrs) (originalName attr) =
      some (.prim (.str expText)) := by
    simp [getAttibuteValue, horiginal, hgetter, hexpText]
  have hactVal : getAttibuteValue (.elem className actAttrs) (originalName attr) =
      some (.prim (.str actText)) := by
    simp [getAttibuteValue, horiginal, hgetter, hactText]
  have hholds := (accepts_iff hclass hexp hact).mp h attr spec hspec hcounts _ _ hexpVal
    hactVal rfl rfl
  unfold ValueHolds at hholds
  rw [if_pos (by simp [hxs])] at hholds
  obtain ⟨text, htext⟩ := hholds
  have htexts : (expText, actText) = (text, text) := by
    simpa [comparedTexts, comparedValues, Value.pyStr, Prim.pyStr, hboolean, Value.isBool,
      bind, Except.bind, pure, Except.pure] using htext
  obtain ⟨rfl, rfl⟩ := Prod.mk.inj htexts
  simp [sortKey, hexpText, hactText]

/-- Where the keys are distinct texts, a true verdict on two lists is one on all
elements that have a key in common. -/
theorem holdsByKey_of_listHolds {className : String} {elmClass : DsClass} {spec : MemberSpec}
    (hattr : attr ∈ sortAttrs) (hclass : ds (getClassName className) = some elmClass)
    (hspec : (attr, spec) ∈ getObjAttributes elmClass) (hxs : spec.isXs = true)
    (hboolean : spec.isBoolean = false) (hexp : TextKeys attr className elmClass expElms)
    (hact : TextKeys attr className elmClass actElms)
    (hexpKeys : (expElms.map (sortKey attr)).Nodup) (hactKeys : (actElms.map (sortKey attr)).Nodup)
    (h : ListHolds printer ds expElms actElms) : HoldsByKey printer ds attr expElms actElms := by
  obtain ⟨actSorted, expSorted, hsort, hall⟩ := h
  obtain ⟨hactPerm, hexpPerm⟩ := sortElements_perm hsort
  have hpair : ∀ (i : Nat) (e a : Value), expSorted[i]? = some e → actSorted[i]? = some a →
      sortKey attr e = sortKey attr a := by
    intro i e a he ha
    have heMem := hexpPerm.mem_iff.mp (List.mem_of_getElem? he)
    have haMem := hactPerm.mem_iff.mp (List.mem_of_getElem? ha)
    refine key_eq_of_accepts hattr hclass hspec hxs hboolean ?_ ?_ (hall i e a he ha)
    · intro elm helm
      exact hexp elm (by simpa [List.mem_singleton.mp helm] using heMem)
    · intro elm helm
      exact hact elm (by simpa [List.mem_singleton.mp helm] using haMem)
  intro e he a ha hkey
  obtain ⟨i, hi⟩ := List.getElem?_of_mem (hexpPerm.mem_iff.mpr he)
  obtain ⟨j, hj⟩ := List.getElem?_of_mem (hactPerm.mem_iff.mpr ha)
  by_cases hlt : i < actSorted.length
  · -- `e` has a partner, and it can only be `a`
    have ha' := List.getElem?_eq_getElem hlt
    have hsame : actSorted[i] = a := List.inj_on_of_nodup_map hactKeys
      (hactPerm.mem_iff.mp (List.mem_of_getElem? ha')) ha
      ((hpair i e _ hi ha').symm.trans hkey)
    rw [hsame] at ha'
    exact hall i e a hi ha'
  · -- then `a` has a partner in front of `e`, with the key of `e`
    obtain ⟨hj', _⟩ := List.getElem?_eq_some_iff.mp hj
    obtain ⟨hi', _⟩ := List.getElem?_eq_some_iff.mp hi
    have he' := List.getElem?_eq_getElem (show j < expSorted.length by omega)
    have hsame : expSorted[j] = e := List.inj_on_of_nodup_map hexpKeys
      (hexpPerm.mem_iff.mp (List.mem_of_getElem? he')) he
      ((hpair j _ a he' hj).trans hkey.symm)
    rw [hsame] at he'
    exact hall j e a he' hj

/-! ## The law of `compareElements` -/

/-- Of two elements of a class the actual one is accepted exactly if every
attribute that counts and is set in both agrees.  For lists of elements with
distinct texts as keys this says that elements with the same key are accepted;
it says no more if the keys of one list are among those of the other. -/
theorem compareElements_accepts_iff (printer : Printer) (ds : DsModule) (className : String)
    (elmClass : DsClass) (expAttrs actAttrs : List (String × Value))
    (hclass : ds (getClassName className) = some elmClass)
    (hexp : Declares elmClass (.elem className expAttrs))
    (hact : Declares elmClass (.elem className actAttrs)) :
    (compare printer ds (.elem className expAttrs) (.elem className actAttrs) = .ok true ↔
      ∀ attr spec, (attr, spec) ∈ getObjAttributes elmClass → attr ∉ ignoreList →
        ∀ expVal actVal,
          getAttibuteValue (.elem className expAttrs) (originalName attr) = some expVal →
          getAttibuteValue (.elem className actAttrs) (originalName attr) = some actVal →
          expVal.isSet = true → actVal.isSet = true →
          ValueHolds printer ds attr spec expVal actVal) ∧
    (∀ attr expElms actElms, sortAttr actElms expElms = some attr →
      DistinctKeys attr expElms → DistinctKeys attr actElms →
      KeysAmong attr expElms actElms ∨ KeysAmong attr actElms expElms →
      (ListHolds printer ds expElms actElms ↔ HoldsByKey printer ds attr expElms actElms)) ∧
    ∀ attr name elementClass spec expElms actElms, attr ∈ sortAttrs →
      ds (getClassName name) = some elementClass →
      (attr, spec) ∈ getObjAttributes elementClass → spec.isXs = true →
      spec.isBoolean = false → TextKeys attr name elementClass expElms →
      TextKeys attr name elementClass actElms → (expElms.map (sortKey attr)).Nodup →
      (actElms.map (sortKey attr)).Nodup → ListHolds printer ds expElms actElms →
      HoldsByKey printer ds attr expElms actElms := by
  refine ⟨accepts_iff hclass hexp hact, ?_, ?_⟩
  · intro attr expElms actElms hattr hexpKeys hactKeys hamong
    exact listHolds_iff_holdsByKey hattr hexpKeys hactKeys hamong
  · intro attr name elementClass spec expElms actElms hattr hname hspec hxs hboolean hexpText
      hactText hexpKeys hactKeys hlists
    exact holdsByKey_of_listHolds hattr hname hspec hxs hboolean hexpText hactText hexpKeys
      hactKeys hlists

/-- A module with clusters that have networks, each with a name and a comment. -/
def clusterModule : DsModule
  | "Cluster" => some (.mk [("network", ⟨["Network"], true⟩)] none)
  | "Network" => some (.mk [("comment", ⟨["xs:string"], false⟩)]
      (some (.mk [("name", ⟨["xs:string"], false⟩)] none)))
  | _ => none

/-- A network. -/
def network (name comment : String) : Value :=
  .elem "Network"
    [("name", .prim (.str name.toList)), ("comment", .prim (.str comment.toList))]

/-- The attributes of a cluster with these networks. -/
def clusterAttrs (networks : List Value) : List (String × Value) := [("network", .list networks)]

/-- A printer for values in which nothing is printed by other means. -/
def plainPrinter : Printer := ⟨fun _ => [], fun _ => [], fun _ => []⟩

theorem declares_clusterAttrs (networks : List Value) :
    Declares (.mk [("network", ⟨["Network"], true⟩)] none)
      (.elem "Cluster" (clusterAttrs networks)) := by
  intro item hitem
  obtain rfl := List.mem_singleton.mp hitem
  simp [getAttibuteValue, Value.getattr, clusterAttrs, originalName, nameTable, getterName]

theorem getClassName_cluster : getClassName "Cluster" = "Cluster" := by decide +kernel

theorem getClassName_network : getClassName "Network" = "Network" := by decide +kernel

/-- Two expected networks are found among three, in another order. -/
theorem accepts_networks_in_any_order :
    compare plainPrinter clusterModule
      (.elem "Cluster" (clusterAttrs [network "b" "", network "a" "x"]))
      (.elem "Cluster" (clusterAttrs [network "c" "y", network "a" "x", network "b" ""])) =
        .ok true ∧
      HoldsByKey plainPrinter clusterModule "name" [network "b" "", network "a" "x"]
        [network "c" "y", network "a" "x", network "b" ""] := by
  obtain ⟨hiff, hbyKey, _⟩ := compareElements_accepts_iff plainPrinter clusterModule "Cluster"
    (.mk [("network", ⟨["Network"], true⟩)] none)
    (clusterAttrs [network "b" "", network "a" "x"])
    (clusterAttrs [network "c" "y", network "a" "x", network "b" ""])
    (by rw [getClassName_cluster]; rfl) (declares_clusterAttrs _) (declares_clusterAttrs _)
  have haccepts : compare plainPrinter clusterModule
      (.elem "Cluster" (clusterAttrs [network "b" "", network "a" "x"]))
      (.elem "Cluster" (clusterAttrs [network "c" "y", network "a" "x", network "b" ""])) =
        .ok true := by decide +kernel
  have hlists : ListHolds plainPrinter clusterModule [network "b" "", network "a" "x"]
      [network "c" "y", network "a" "x", network "b" ""] :=
    hiff.mp haccepts "network" ⟨["Network"], true⟩ List.mem_cons_self (by decide)
      _ _ rfl rfl rfl rfl
  have hset : ∀ elms : List Value, (∀ elm ∈ elms, ∃ name comment, elm = network name comment) →
      ∀ elm ∈ elms, ∃ value, elm.getattr "name" = some value ∧ value.isSet = true := by
    intro elms hall elm helm
    obtain ⟨name, comment, rfl⟩ := hall elm helm
    exact ⟨.prim (.str name.toList), rfl, rfl⟩
  refine ⟨haccepts, (hbyKey "name" _ _ (by decide) ⟨hset _ ?_, by decide⟩
    ⟨hset _ ?_, by decide⟩ (Or.inl ?_)).mp hlists⟩
  · simp
  · simp
  · unfold KeysAmong
    decide

/-- Pairing by keys differs both ways: with overlapping lists nothing is
accepted, and of two expected elements with one key only the first counts. -/
theorem keys_and_positions_differ :
    (compare plainPrinter clusterModule
        (.elem "Cluster" (clusterAttrs [network "a" "", network "c" ""]))
        (.elem "Cluster" (clusterAttrs [network "b" "", network "c" ""])) = .ok false ∧
      HoldsByKey plainPrinter clusterModule "name" [network "a" "", network "c" ""]
        [network "b" "", network "c" ""]) ∧
    compare plainPrinter clusterModule
        (.elem "Cluster" (clusterAttrs [network "a" "x", network "a" "y"]))
        (.elem "Cluster" (clusterAttrs [network "a" "x"])) = .ok true ∧
      ¬ HoldsByKey plainPrinter clusterModule "name" [network "a" "x", network "a" "y"]
        [network "a" "x"] := by
  unfold HoldsByKey Accepts
  refine ⟨⟨?_, ?_⟩, ?_, ?_⟩
  · decide +kernel
  · decide +kernel
  · decide +kernel
  · decide +kernel

end OvirtArt.CoreApi
