import OvirtArt.CoreApi.ValidatorSafe

set_option autoImplicit false

/-!
# What the `ignore` of `compareElements` is worth

The names to ignore are those of the root: no recursive call gets them.  Where two trees are
accepted without the attributes of these names, they are accepted with them exactly if what is
compared below the root has no difference at all.

A name below the root is therefore never ignored.  The condition is on the two trees, and is
decidable by the same comparison without the names.
-/

namespace OvirtArt.CoreApi

open OvirtArt.Foundation

variable {printer : Printer} {ds : DsModule}

/-! ## Trees without attributes -/

/-- The getters of the attributes of a class that are ignored. -/
def ignoredGetters (ds : DsModule) (ignore : List String) (className : String) : List String :=
  match ds (getClassName className) with
  | none => []
  | some elmClass =>
    ((getObjAttributes elmClass).filter fun item => item.1 ∈ ignore).map
      fun item => getterName (originalName item.1)

mutual

/-- The value after the attributes to ignore are removed at every depth. -/
def strip (ds : DsModule) (ignore : List String) : Value → Value
  | .none => .none
  | .prim p => .prim p
  | .list items => .list (stripItems ds ignore items)
  | .elem className attrs =>
    .elem className (stripAttrs ds ignore (ignoredGetters ds ignore className) attrs)

/-- The items of a list, each after the attributes to ignore are removed. -/
def stripItems (ds : DsModule) (ignore : List String) : List Value → List Value
  | [] => []
  | item :: rest => strip ds ignore item :: stripItems ds ignore rest

/-- The attributes of an element: what is ignored is not set. -/
def stripAttrs (ds : DsModule) (ignore names : List String) :
    List (String × Value) → List (String × Value)
  | [] => []
  | (name, value) :: rest =>
    (name, if name ∈ names then .none else strip ds ignore value) ::
      stripAttrs ds ignore names rest

end

variable {ignore : List String} {className : String} {attrs : List (String × Value)}
  {spec : MemberSpec}

theorem lookup_stripAttrs {names : List String} {name : String} (attrs : List (String × Value)) :
    (stripAttrs ds ignore names attrs).lookup name =
      (attrs.lookup name).map fun value =>
        if name ∈ names then .none else strip ds ignore value := by
  induction attrs with
  | nil => rfl
  | cons first rest ih =>
    obtain ⟨firstName, firstValue⟩ := first
    rw [stripAttrs, List.lookup_cons, List.lookup_cons]
    cases hname : name == firstName with
    | true =>
      obtain rfl : name = firstName := by simpa using hname
      rfl
    | false => exact ih

/-- An attribute that is not ignored is kept, and stripped itself. -/
theorem getAttibuteValue_strip {name : String}
    (h : getterName name ∉ ignoredGetters ds ignore className) :
    getAttibuteValue (strip ds ignore (.elem className attrs)) name =
      (getAttibuteValue (.elem className attrs) name).map (strip ds ignore) := by
  rw [strip, getAttibuteValue, getAttibuteValue, Value.getattr, lookup_stripAttrs, Option.map_map,
    Option.map_map]
  refine congrArg (fun f => Option.map f _) (funext fun value => ?_)
  simp only [Function.comp_apply, if_neg h]
  cases value with
  | prim p => cases p <;> rfl
  | none | list _ | elem _ _ => rfl

theorem declares_strip {elmClass : DsClass} (h : Declares elmClass (.elem className attrs)) :
    Declares elmClass (strip ds ignore (.elem className attrs)) := by
  intro item hitem hnone
  apply h item hitem
  rw [strip, getAttibuteValue, Option.map_eq_none_iff, Value.getattr, lookup_stripAttrs,
    Option.map_eq_none_iff] at hnone
  rw [getAttibuteValue, Value.getattr, hnone]
  rfl

theorem stripItems_of_primitive {items : List Value} (h : ∀ item ∈ items, item.isPrimitive = true) :
    stripItems ds ignore items = items := by
  induction items with
  | nil => rfl
  | cons item rest ih =>
    have hitem := h item List.mem_cons_self
    rw [stripItems, ih fun other hother => h other (List.mem_cons_of_mem _ hother)]
    cases item with
    | prim p => rfl
    | none | list _ | elem _ _ => simp [Value.isPrimitive] at hitem

/-- Only elements have attributes to remove. -/
theorem Fits.strip_eq {value actVal : Value} (h : Fits ds spec value) (hact : Fits ds spec actVal)
    (htext : Textual spec actVal) (helem : ∀ name attrs, value ≠ .elem name attrs) :
    strip ds ignore value = value := by
  cases h with
  | unset | prim => rfl
  | tree hsingle hxs htree =>
    obtain ⟨_, attrs, rfl, _⟩ := htree.exists_elem
    exact absurd rfl (helem _ _)
  | prims hcontainer hxs hprims => rw [strip, stripItems_of_primitive hprims]
  | trees hcontainer hxs htrees =>
    -- the actual value is a list, too, so that the type of the attribute decides
    obtain ⟨items, rfl⟩ := hact.eq_list hcontainer
    unfold Textual at htext
    simp [hxs, Value.isPrimitive] at htext

/-- An attribute of a class that counts is not among those removed. -/
theorem not_mem_ignoredGetters {attr : String} {elmClass : DsClass}
    (hclass : ds (getClassName className) = some elmClass) (hgetters : elmClass.getters.Nodup)
    (hmem : (attr, spec) ∈ getObjAttributes elmClass) (hcounts : attr ∉ ignore) :
    getterName (originalName attr) ∉ ignoredGetters ds ignore className := by
  intro hignored
  simp only [ignoredGetters, hclass, List.mem_map, List.mem_filter, decide_eq_true_iff] at hignored
  obtain ⟨item, ⟨hitem, hname⟩, hgetter⟩ := hignored
  obtain rfl := List.inj_on_of_nodup_map hgetters hitem hmem hgetter
  exact hcounts hname

/-! ## The texts of the root -/

/-- Where the stripped trees are accepted, the texts of the root are the same, but where an
element is expected and there is a primitive. -/
theorem sameText_of_strip {expElm actElm : Value} (hexp : HasClass ds className expElm)
    (hact : HasClass ds className actElm)
    (haccepted : Accepts printer ds (strip ds ignore expElm) (strip ds ignore actElm))
    {attr : String} {expVal actVal : Value}
    (hcompares : Compares ds ignore expElm actElm attr spec expVal actVal)
    (htext : Textual spec actVal) (helem : ∀ name attrs, expVal ≠ .elem name attrs) :
    SameText printer attr spec expVal actVal := by
  obtain ⟨hexpFits, hactFits⟩ := hcompares.fits hexp hact
  obtain ⟨elmClass, expAttrs, rfl, hclass, hgetters, hexpDeclares, -⟩ := hexp.exists_elem
  obtain ⟨actClass, actAttrs, rfl, hclass', -, hactDeclares, -⟩ := hact.exists_elem
  obtain rfl : elmClass = actClass := Option.some.inj (hclass.symm.trans hclass')
  obtain ⟨found, hfound, hmem⟩ := hcompares.member
  obtain rfl : elmClass = found := Option.some.inj (hclass.symm.trans hfound)
  have hcounts := hcompares.counts
  rw [List.mem_append, not_or] at hcounts
  have hkept := not_mem_ignoredGetters hclass hgetters hmem hcounts.2
  have hactElem : ∀ name attrs, actVal ≠ .elem name attrs := by
    rintro name attrs rfl
    have hxs : spec.isXs = true := by simpa [Textual, Value.isPrimitive] using htext
    cases hactFits with
    | tree _ hxs' _ => simp [hxs] at hxs'
  have hexpVal : getAttibuteValue (strip ds ignore (.elem className expAttrs))
      (originalName attr) = some expVal := by
    rw [getAttibuteValue_strip hkept, hcompares.expected, Option.map_some,
      hexpFits.strip_eq hactFits htext helem]
  have hactVal : getAttibuteValue (strip ds ignore (.elem className actAttrs))
      (originalName attr) = some actVal := by
    rw [getAttibuteValue_strip hkept, hcompares.actual, Option.map_some,
      hactFits.strip_eq hactFits htext hactElem]
  have hholds := (accepts_iff hclass (declares_strip hexpDeclares)
    (declares_strip hactDeclares)).mp haccepted attr spec hmem hcounts.1 expVal actVal hexpVal
      hactVal hcompares.expectedSet hcompares.actualSet
  unfold Textual at htext
  unfold ValueHolds at hholds
  rwa [if_pos htext] at hholds

/-! ## Below the root -/

/-- The actual value is false, or both are elements and have the same text in every attribute
that counts and is set in both. -/
def Agrees (printer : Printer) (ds : DsModule) (expElm actElm : Value) : Prop :=
  actElm.falsy = true ∨
    OnElements ds expElm actElm ∧
      ∀ attr spec expVal actVal, Compares ds [] expElm actElm attr spec expVal actVal →
        Textual spec actVal → SameText printer attr spec expVal actVal

/-- The module has no class with the name of a type of Python. -/
def BuiltinsNoClasses (ds : DsModule) : Prop :=
  ∀ name ∈ ["int", "bool", "float", "str", "unicode", "list"], ds (getClassName name) = none

/-- `getattr(ds, elmClass)` raises for what is no element. -/
theorem compare_no_element (hbuiltins : BuiltinsNoClasses ds) {e a : Value}
    (hfalsy : a.falsy = false) (hleaf : e = .list [] ∨ ∃ p, e = .prim p) :
    compare printer ds e a = .error .attributeError := by
  have hclass : ds (getClassName e.className) = none := by
    apply hbuiltins
    rcases hleaf with rfl | ⟨p, rfl⟩
    · simp [Value.className]
    · cases p <;> simp [Value.className]
  rw [compare, compareElements]
  simp [hfalsy, hclass]

/-- Where all calls agree in their texts, they are accepted. -/
theorem accepts_of_agrees {e a : Value}
    (hclass : (∃ name, HasClass ds name e ∧ HasClass ds name a) ∨ a = .list [] ∨
      a.falsy = false ∧ (e = .list [] ∨ ∃ p, e = .prim p))
    (h : ∀ e' a', Called ds [] e a [] e' a' → Agrees printer ds e' a') :
    compare printer ds e a = .ok true := by
  induction hdepth : e.depth using Nat.strong_induction_on generalizing e a with
  | _ depth ih =>
    rcases h e a .root with hfalsy | ⟨helements, htexts⟩
    · exact compare_falsy hfalsy
    · obtain ⟨_, _, _, _, _, rfl, rfl, -⟩ := helements
      rcases hclass with ⟨name, he, ha⟩ | hempty | ⟨-, hleaf | ⟨p, hleaf⟩⟩
      · rw [← compareIgnoring_nil, judged_iff_calls judges_ok_true he ha]
        refine ⟨?_, ?_⟩
        · intro attr spec expVal actVal hcompares htext
          exact textVerdict_eq_ok_true.mpr (htexts attr spec expVal actVal hcompares htext)
        · intro e' a' hcalls
          apply ih e'.depth (hdepth ▸ hcalls.depth_lt) (hcalls.hasClass he ha) ?_ rfl
          intro e'' a'' hcalled
          exact h e'' a'' (hcalled.of_calls hcalls)
      · cases hempty
      · cases hleaf
      · cases hleaf

section

variable {ignore : List String} {className : String} {expElm actElm : Value}
  (hexp : HasClass ds className expElm) (hact : HasClass ds className actElm)

include hexp hact

/-- Where the comparison is true, every pair below the root agrees. -/
theorem agrees_of_ok_true (hbuiltins : BuiltinsNoClasses ds)
    (htrue : compareIgnoring printer ds ignore expElm actElm = .ok true) {e a : Value}
    (hcalled : Called ds ignore expElm actElm [] e a) : Agrees printer ds e a := by
  have hnested := accepts_of_called hexp hact htrue hcalled
  rcases hcalled.hasClass hexp hact with ⟨name, he, ha⟩ | rfl | ⟨hfalsy, hleaf⟩
  · have htexts := ((judged_iff_calls judges_ok_true he ha).mp hnested).1
    refine Or.inr ⟨he.onElements ha, fun attr spec expVal actVal hcompares htext => ?_⟩
    exact textVerdict_eq_ok_true.mp (htexts attr spec expVal actVal hcompares htext)
  · exact Or.inl rfl
  · rw [compareIgnoring_nil, compare_no_element hbuiltins hfalsy hleaf] at hnested
    cases hnested

/-- An element that is expected is compared as a text with a primitive only. -/
theorem exists_prim_of_textual {names : List String} {attr name : String} {spec : MemberSpec}
    {attrs : List (String × Value)} {actVal : Value}
    (hcompares : Compares ds names expElm actElm attr spec (.elem name attrs) actVal)
    (htext : Textual spec actVal) : ∃ p, actVal = .prim p := by
  obtain ⟨hexpFits, -⟩ := hcompares.fits hexp hact
  cases hexpFits with
  | tree _ hxs _ =>
    unfold Textual at htext
    rw [hxs] at htext
    cases actVal with
    | prim p => exact ⟨p, rfl⟩
    | none | list _ | elem _ _ => simp [Value.isPrimitive] at htext

end

/-- As `clusterModule`, with a comment of each cluster. -/
def commentedModule : DsModule
  | "Cluster" => some (.mk [("comment", ⟨["xs:string"], false⟩), ("network", ⟨["Network"], true⟩)]
      none)
  | name => clusterModule name

/-- A cluster with a comment. -/
def commentedCluster (comment : String) (networks : List Value) : Value :=
  .elem "Cluster" [("comment", .prim (.str comment.toList)), ("network", .list networks)]

theorem commentedModule_network :
    commentedModule (getClassName "Network") = some networkClass := by
  rw [getClassName_network]
  rfl

theorem hasClass_commentedNetwork (name comment : String) :
    HasClass commentedModule "Network" (network name comment) :=
  hasClass_network_of commentedModule_network name comment

theorem hasClass_commentedCluster {networks : List Value} (comment : String)
    (h : ∀ elm ∈ networks, HasClass commentedModule "Network" elm) :
    HasClass commentedModule "Cluster" (commentedCluster comment networks) := by
  have hclass : commentedModule (getClassName "Cluster") =
      some (.mk [("comment", ⟨["xs:string"], false⟩), ("network", ⟨["Network"], true⟩)] none) := by
    rw [getClassName_cluster]
    rfl
  have hmembers : (getObjAttributes
      (.mk [("comment", ⟨["xs:string"], false⟩), ("network", ⟨["Network"], true⟩)] none)).map
      (fun item => (getterName (originalName item.1), item.2)) =
        [("comment", ⟨["xs:string"], false⟩), ("network", ⟨["Network"], true⟩)] := by decide
  refine .of_attrs hclass hmembers (by decide) (List.Perm.refl _) ?_
  refine List.forall_mem_cons.mpr ⟨?_, List.forall_mem_singleton.mpr ?_⟩
  · exact ⟨.prim (.str comment.toList), by simp, .prim _ rfl⟩
  · exact ⟨.list networks, by simp, .trees rfl (by decide) h⟩

/-- Of clusters whose comments are ignored the networks are compared. -/
theorem Compares.commentedClusters {first second : String} {exp act : List Value} {attr : String}
    {spec : MemberSpec} {expVal actVal : Value}
    (h : Compares commentedModule ["comment"] (commentedCluster first exp)
      (commentedCluster second act) attr spec expVal actVal) :
    expVal = .list exp ∧ actVal = .list act := by
  obtain ⟨elmClass, hclass, hmem⟩ := h.member
  obtain rfl : .mk [("comment", ⟨["xs:string"], false⟩), ("network", ⟨["Network"], true⟩)]
      none = elmClass := by
    rw [commentedCluster, Value.className, getClassName_cluster] at hclass
    exact Option.some.inj hclass
  rcases List.mem_pair.mp hmem with hattr | hattr
  · exact absurd (by rw [(Prod.mk.inj hattr).1]; decide) h.counts
  · have hexpected := h.expected
    have hactual := h.actual
    rw [(Prod.mk.inj hattr).1] at hexpected hactual
    exact ⟨(Option.some.inj hexpected).symm, (Option.some.inj hactual).symm⟩

theorem not_calls_commentedNetwork {names : List String} {name comment : String}
    {act e a : Value} : ¬ Calls commentedModule names (network name comment) act e a := by
  rintro ⟨attr, spec, expVal, actVal, hcompares, htext, -⟩
  obtain ⟨elmClass, hclass, hmem⟩ := hcompares.member
  obtain rfl := Option.some.inj (commentedModule_network.symm.trans hclass)
  exact absurd (by simp [Textual, (mem_networkClass hmem).2]) htext

/-- Below such clusters whose networks are the same when they are sorted, each network is compared
with itself. -/
theorem called_commentedClusters {first second : String} {firstExp firstAct : Value}
    {restExp restAct sorted : List Value}
    (hsorted : sortElements (firstAct :: restAct) (firstExp :: restExp) = .ok (sorted, sorted))
    (hnetworks : ∀ elm ∈ sorted, ∃ name comment, elm = network name comment)
    {names : List String} {e a : Value} (h : Called commentedModule ["comment"]
      (commentedCluster first (firstExp :: restExp))
      (commentedCluster second (firstAct :: restAct)) names e a) :
    names = ["comment"] ∧ e = commentedCluster first (firstExp :: restExp) ∧
        a = commentedCluster second (firstAct :: restAct) ∨
      e ∈ sorted ∧ a = e := by
  induction h with
  | root => exact .inl ⟨rfl, rfl, rfl⟩
  | nested _ hcalls ih =>
    rcases ih with ⟨rfl, rfl, rfl⟩ | ⟨hmem, rfl⟩
    · obtain ⟨attr, spec, expVal, actVal, hcompares, htext, hpaired⟩ := hcalls
      obtain ⟨rfl, rfl⟩ := hcompares.commentedClusters
      obtain ⟨actSorted, expSorted, hsort, i, he, ha⟩ := hpaired
      obtain ⟨rfl, rfl⟩ := Prod.mk.inj (Except.ok.inj (hsorted.symm.trans hsort))
      exact .inr ⟨List.mem_of_getElem? he, Option.some.inj (ha.symm.trans he)⟩
    · obtain ⟨name, comment, rfl⟩ := hnetworks _ hmem
      exact absurd hcalls not_calls_commentedNetwork

end OvirtArt.CoreApi
