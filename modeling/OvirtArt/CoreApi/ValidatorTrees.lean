import OvirtArt.CoreApi.ValidatorSound

set_option autoImplicit false

/-!
# Element trees

A tree of a class has a value for each attribute of the class and for no other: a list where
the attribute is a container, nothing or a single value elsewhere.  On such trees the verdict
of `compareElements` is put together from the pairs of values for which it calls itself.

The modules on order, copies and exceptions use this form.  An attribute that a class does not
declare cannot be in a tree.
-/

namespace OvirtArt.CoreApi

open OvirtArt.Foundation

variable {printer : Printer} {ds : DsModule}

/-! ## Trees of a class -/

/-- The names that the attributes of a class have in its elements. -/
def DsClass.getters (elmClass : DsClass) : List String :=
  (getObjAttributes elmClass).map fun item => getterName (originalName item.1)

mutual

/-- A tree whose root is an element of the class. -/
inductive HasClass (ds : DsModule) : String → Value → Prop
  | elem {className : String} {elmClass : DsClass} {attrs : List (String × Value)}
      (hclass : ds (getClassName className) = some elmClass)
      (hgetters : elmClass.getters.Nodup)
      (hnames : ∀ name, ((Value.elem className attrs).getattr name).isSome = true ↔
        name ∈ elmClass.getters)
      (hattrs : ∀ attr spec value, (attr, spec) ∈ getObjAttributes elmClass →
        getAttibuteValue (.elem className attrs) (originalName attr) = some value →
          Fits ds spec value) :
      HasClass ds className (.elem className attrs)

/-- A value of an attribute: in a container a list of primitives or of trees, elsewhere
nothing, a primitive or a tree. -/
inductive Fits (ds : DsModule) : MemberSpec → Value → Prop
  | unset {spec : MemberSpec} (hsingle : spec.container = false) : Fits ds spec .none
  | prim {spec : MemberSpec} (p : Prim) (hsingle : spec.container = false) :
      Fits ds spec (.prim p)
  | tree {spec : MemberSpec} {value : Value} (hsingle : spec.container = false)
      (hxs : spec.isXs = false) (htree : HasClass ds spec.getDataType value) :
      Fits ds spec value
  | prims {spec : MemberSpec} {items : List Value} (hcontainer : spec.container = true)
      (hxs : spec.isXs = true) (hprims : ∀ item ∈ items, item.isPrimitive = true) :
      Fits ds spec (.list items)
  | trees {spec : MemberSpec} {items : List Value} (hcontainer : spec.container = true)
      (hxs : spec.isXs = false) (htrees : ∀ item ∈ items, HasClass ds spec.getDataType item) :
      Fits ds spec (.list items)

end

variable {spec : MemberSpec} {className attr name : String} {ignore names : List String}
  {actVal expVal expElm actElm e a value elm : Value} {attrs : List (String × Value)}

/-- The root of a tree is an element of the class, and has a getter for every attribute. -/
theorem HasClass.exists_elem (h : HasClass ds className elm) :
    ∃ elmClass attrs, elm = .elem className attrs ∧
      ds (getClassName className) = some elmClass ∧ elmClass.getters.Nodup ∧
      Declares elmClass elm ∧
      ∀ attr spec value, (attr, spec) ∈ getObjAttributes elmClass →
        getAttibuteValue elm (originalName attr) = some value → Fits ds spec value := by
  cases h with
  | @elem _ elmClass attrs hclass hgetters hnames hattrs =>
    refine ⟨elmClass, attrs, rfl, hclass, hgetters, ?_, hattrs⟩
    intro item hitem hnone
    have hsome := (hnames (getterName (originalName item.1))).mpr
      (List.mem_map.mpr ⟨item, hitem, rfl⟩)
    unfold getAttibuteValue at hnone
    rw [Option.map_eq_none_iff] at hnone
    rw [hnone] at hsome
    cases hsome

/-- A value keeps its kind in `getAttibuteValue`. -/
theorem Fits.of_getAttibuteValue {raw : Value} {attrName : String} (hfits : Fits ds spec raw)
    (hraw : elm.getattr (getterName attrName) = some raw)
    (hvalue : getAttibuteValue elm attrName = some value) : Fits ds spec value := by
  rw [getAttibuteValue, hraw, Option.map_some] at hvalue
  obtain rfl := Option.some.inj hvalue
  split
  · cases hfits with
    | prim _ hsingle => exact .prim _ hsingle
    | tree _ _ htree => cases htree
  · exact hfits

/-- An element with a value for each attribute of its class. -/
theorem HasClass.of_attrs {elmClass : DsClass} {members : List (String × MemberSpec)}
    (hclass : ds (getClassName className) = some elmClass)
    (hmembers : (getObjAttributes elmClass).map
      (fun item => (getterName (originalName item.1), item.2)) = members)
    (hnodup : (members.map Prod.fst).Nodup)
    (hnames : (attrs.map Prod.fst).Perm (members.map Prod.fst))
    (hattrs : ∀ member ∈ members, ∃ value, (member.1, value) ∈ attrs ∧ Fits ds member.2 value) :
    HasClass ds className (.elem className attrs) := by
  have hgetters : elmClass.getters = members.map Prod.fst := by
    rw [← hmembers, List.map_map]
    rfl
  refine .elem hclass (hgetters ▸ hnodup) ?_ ?_
  · intro name
    rw [hgetters, ← hnames.mem_iff, Value.getattr, List.lookup_isSome_iff, List.mem_map]
    constructor
    · rintro ⟨entry, hentry, hname⟩
      exact ⟨entry, hentry, (beq_iff_eq.mp hname).symm⟩
    · rintro ⟨entry, hentry, rfl⟩
      exact ⟨entry, hentry, beq_self_eq_true _⟩
  · intro attr spec value hmem hvalue
    obtain ⟨raw, hraw, -⟩ := Option.map_eq_some_iff.mp hvalue
    obtain ⟨front, back, hsplit, -⟩ := List.lookup_eq_some_iff.mp hraw
    have hentry : (getterName (originalName attr), raw) ∈ attrs := by simp [hsplit]
    have hmember : (getterName (originalName attr), spec) ∈ members := by
      rw [← hmembers]
      exact List.mem_map.mpr ⟨(attr, spec), hmem, rfl⟩
    obtain ⟨found, hfound, hfits⟩ := hattrs _ hmember
    obtain rfl := (Prod.mk.inj
      (List.inj_on_of_nodup_map (hnames.nodup_iff.mpr hnodup) hentry hfound rfl)).2
    exact hfits.of_getAttibuteValue hraw hvalue

/-- Trees of one class have the same attributes. -/
theorem HasClass.isSome_getattr {x y : Value} (hx : HasClass ds className x)
    (hy : HasClass ds className y) (h : (x.getattr name).isSome = true) :
    (y.getattr name).isSome = true := by
  cases hx with
  | @elem _ xClass xAttrs hxClass _ hxNames _ =>
    cases hy with
    | @elem _ yClass yAttrs hyClass _ hyNames _ =>
      obtain rfl : xClass = yClass := Option.some.inj (hxClass.symm.trans hyClass)
      exact (hyNames name).mpr ((hxNames name).mp h)

/-- Lists of trees of one class can be sorted. -/
theorem sortElements_ok {actElms expElms : List Value}
    (hact : ∀ elm ∈ actElms, HasClass ds className elm)
    (hexp : ∀ elm ∈ expElms, HasClass ds className elm) :
    ∃ actSorted expSorted, sortElements actElms expElms = .ok (actSorted, expSorted) := by
  unfold sortElements
  cases hattr : sortAttr actElms expElms with
  | none => exact ⟨actElms, expElms, rfl⟩
  | some attr =>
    have hboth := List.find?_some hattr
    rw [Bool.and_eq_true] at hboth
    have hfirst : ∃ first, HasClass ds className first ∧
        (first.getattr attr).isSome = true := by
      cases actElms with
      | nil => simp at hboth
      | cons first rest =>
        refine ⟨first, hact first List.mem_cons_self, ?_⟩
        have hset := hboth.1
        cases hget : first.getattr attr with
        | none => simp [hget] at hset
        | some value => rfl
    obtain ⟨first, hclass, hsome⟩ := hfirst
    have hall : ∀ elm ∈ actElms ++ expElms, (elm.getattr attr).isSome = true := by
      intro elm helm
      rcases List.mem_append.mp helm with hmem | hmem
      · exact hclass.isSome_getattr (hact elm hmem) hsome
      · exact hclass.isSome_getattr (hexp elm hmem) hsome
    simp only [sortElementsByAttr, if_pos hall]
    exact ⟨_, _, rfl⟩

/-! ## Calls -/

/-- An attribute that counts, and its values where it is set in both elements. -/
structure Compares (ds : DsModule) (ignore : List String) (expElm actElm : Value)
    (attr : String) (spec : MemberSpec) (expVal actVal : Value) : Prop where
  member : ∃ elmClass, ds (getClassName expElm.className) = some elmClass ∧
    (attr, spec) ∈ getObjAttributes elmClass
  counts : attr ∉ ignoreList ++ ignore
  expected : getAttibuteValue expElm (originalName attr) = some expVal
  actual : getAttibuteValue actElm (originalName attr) = some actVal
  expectedSet : expVal.isSet = true
  actualSet : actVal.isSet = true

/-- The values are compared as texts. -/
def Textual (spec : MemberSpec) (actVal : Value) : Prop :=
  (spec.isXs || actVal.isPrimitive) = true

/-- The pairs that nested values are compared by: those of the sorted lists, or the values
themselves. -/
def Paired (expVal actVal e a : Value) : Prop :=
  match expVal, actVal with
  | .list (firstExp :: restExp), .list (firstAct :: restAct) =>
    ∃ actSorted expSorted, sortElements (firstAct :: restAct) (firstExp :: restExp) =
        .ok (actSorted, expSorted) ∧
      ∃ i : Nat, expSorted[i]? = some e ∧ actSorted[i]? = some a
  | _, _ => e = expVal ∧ a = actVal

/-- `compareElements(expElm, actElm, .., ignore=ignore)` calls itself with this pair. -/
def Calls (ds : DsModule) (ignore : List String) (expElm actElm e a : Value) : Prop :=
  ∃ attr spec expVal actVal, Compares ds ignore expElm actElm attr spec expVal actVal ∧
    ¬ Textual spec actVal ∧ Paired expVal actVal e a

/-- Values that are not both non-empty lists are a pair themselves. -/
theorem paired_of_not_lists
    (h : ∀ firstExp restExp firstAct restAct, expVal = .list (firstExp :: restExp) →
      actVal = .list (firstAct :: restAct) → False) (e a : Value) :
    Paired expVal actVal e a ↔ e = expVal ∧ a = actVal := by
  unfold Paired
  split
  · exact (h _ _ _ _ rfl rfl).elim
  · exact Iff.rfl

theorem depth_le_of_paired (h : Paired expVal actVal e a) : e.depth ≤ expVal.depth := by
  unfold Paired at h
  split at h
  · obtain ⟨_, _, hsort, i, he, _⟩ := h
    have hmem := (sortElements_perm hsort).2.mem_iff.mp (List.mem_of_getElem? he)
    exact Nat.le_of_lt (Value.depth_lt_of_mem hmem)
  · rw [h.1]

/-- A call goes down in the expected tree. -/
theorem Calls.depth_lt (h : Calls ds ignore expElm actElm e a) : e.depth < expElm.depth := by
  obtain ⟨attr, spec, expVal, actVal, hcompares, _, hpaired⟩ := h
  exact Nat.lt_of_le_of_lt (depth_le_of_paired hpaired)
    (depth_getAttibuteValue hcompares.expected)

/-- The items of a list under an attribute of a class are trees of it. -/
theorem Fits.trees_of_list {items : List Value} (h : Fits ds spec (.list items))
    (hxs : spec.isXs = false) : ∀ item ∈ items, HasClass ds spec.getDataType item := by
  cases h with
  | tree hsingle hxs' htree => cases htree
  | prims hcontainer hxs' hprims => simp [hxs] at hxs'
  | trees hcontainer hxs' htrees => exact htrees

/-- The value of a container is a list. -/
theorem Fits.eq_list (h : Fits ds spec value) (hcontainer : spec.container = true) :
    ∃ items, value = .list items := by
  cases h with
  | prims => exact ⟨_, rfl⟩
  | trees => exact ⟨_, rfl⟩
  | unset hsingle | prim _ hsingle | tree hsingle => simp [hcontainer] at hsingle

/-- The value of an attribute that is no container is no list. -/
theorem Fits.ne_list {items : List Value} (h : Fits ds spec value)
    (hsingle : spec.container = false) : value ≠ .list items := by
  rintro rfl
  cases h with
  | tree _ _ htree => cases htree
  | prims hcontainer | trees hcontainer => simp [hsingle] at hcontainer

theorem not_textual (h : ¬ Textual spec actVal) :
    spec.isXs = false ∧ actVal.isPrimitive = false := by
  unfold Textual at h
  rwa [Bool.or_eq_true, not_or, Bool.not_eq_true, Bool.not_eq_true] at h

theorem valueJudged_of_textual {judge : Except PyError Bool → Prop} (h : Textual spec actVal) :
    ValueJudged printer ds judge attr spec expVal actVal ↔
      judge (textVerdict printer attr spec expVal actVal) := by
  unfold Textual at h
  unfold ValueJudged
  rw [if_pos h]

section

variable {judge : Except PyError Bool → Prop}

/-- The values of an attribute that are no texts are judged as the calls for them are. -/
theorem valueJudged_iff_paired {attr : String} {spec : MemberSpec} {expVal actVal : Value}
    (htext : ¬ Textual spec actVal) (hexp : Fits ds spec expVal) (hact : Fits ds spec actVal) :
    ValueJudged printer ds judge attr spec expVal actVal ↔
      ∀ e a, Paired expVal actVal e a → judge (compare printer ds e a) := by
  have htext' : ¬ (spec.isXs || actVal.isPrimitive) = true := htext
  unfold ValueJudged
  rw [if_neg htext']
  split
  · obtain ⟨actSorted, expSorted, hsort⟩ := sortElements_ok
      (hact.trees_of_list (not_textual htext).1) (hexp.trees_of_list (not_textual htext).1)
    constructor
    · rintro ⟨_, _, heq, hall⟩ e a ⟨_, _, heq', i, he, ha⟩
      obtain ⟨rfl, rfl⟩ := Prod.mk.inj (Except.ok.inj (heq.symm.trans heq'))
      exact hall i e a he ha
    · intro hall
      exact ⟨actSorted, expSorted, hsort,
        fun i e a he ha => hall e a ⟨actSorted, expSorted, hsort, i, he, ha⟩⟩
  · rename_i hlists
    have hpaired := paired_of_not_lists fun _ _ _ _ => hlists _ _ _ _
    constructor
    · intro hjudged e a hpair
      obtain ⟨rfl, rfl⟩ := (hpaired e a).mp hpair
      exact hjudged
    · intro hall
      exact hall _ _ ((hpaired _ _).mpr ⟨rfl, rfl⟩)

/-- Two trees of a class are judged as the texts of their attributes and the calls for the
others are. -/
theorem judged_iff_calls (hjudge : Judges judge) {ignore : List String} {className : String}
    {expElm actElm : Value} (hexp : HasClass ds className expElm)
    (hact : HasClass ds className actElm) :
    judge (compareIgnoring printer ds ignore expElm actElm) ↔
      (∀ attr spec expVal actVal, Compares ds ignore expElm actElm attr spec expVal actVal →
        Textual spec actVal → judge (textVerdict printer attr spec expVal actVal)) ∧
      ∀ e a, Calls ds ignore expElm actElm e a → judge (compare printer ds e a) := by
  obtain ⟨elmClass, expAttrs, rfl, hclass, -, hexpDeclares, hexpFits⟩ := hexp.exists_elem
  obtain ⟨actClass, actAttrs, rfl, hclass', -, hactDeclares, hactFits⟩ := hact.exists_elem
  obtain rfl : elmClass = actClass := Option.some.inj (hclass.symm.trans hclass')
  rw [compareIgnoring_iff hjudge hclass hexpDeclares hactDeclares]
  constructor
  · intro hall
    refine ⟨?_, ?_⟩
    · rintro attr spec expVal actVal ⟨⟨found, hfound, hmem⟩, hcounts, hev, hav, hes, has⟩ htext
      obtain rfl : elmClass = found := Option.some.inj (hclass.symm.trans hfound)
      have hjudged := hall attr spec hmem hcounts expVal actVal hev hav hes has
      exact (valueJudged_of_textual htext).mp hjudged
    · rintro e a ⟨attr, spec, expVal, actVal, ⟨⟨found, hfound, hmem⟩, hcounts, hev, hav, hes,
        has⟩, htext, hpaired⟩
      obtain rfl : elmClass = found := Option.some.inj (hclass.symm.trans hfound)
      have hjudged := hall attr spec hmem hcounts expVal actVal hev hav hes has
      exact (valueJudged_iff_paired htext (hexpFits attr spec expVal hmem hev)
        (hactFits attr spec actVal hmem hav)).mp hjudged e a hpaired
  · rintro ⟨htexts, hcalls⟩ attr spec hmem hcounts expVal actVal hev hav hes has
    have hcompares : Compares ds ignore (.elem className expAttrs) (.elem className actAttrs)
        attr spec expVal actVal := ⟨⟨elmClass, hclass, hmem⟩, hcounts, hev, hav, hes, has⟩
    by_cases htext : Textual spec actVal
    · rw [valueJudged_of_textual htext]
      exact htexts attr spec expVal actVal hcompares htext
    · rw [valueJudged_iff_paired htext (hexpFits attr spec expVal hmem hev)
        (hactFits attr spec actVal hmem hav)]
      intro e a hpaired
      exact hcalls e a ⟨attr, spec, expVal, actVal, hcompares, htext, hpaired⟩

end

/-- A comparison in which nothing is ignored but what always is. -/
theorem compareIgnoring_nil (expElm actElm : Value) :
    compareIgnoring printer ds [] expElm actElm = compare printer ds expElm actElm := rfl

/-! ## Calls at every depth -/

/-- The calls that `compareElements(expElm, actElm, .., ignore=ignore)` leads to, itself among
them, each with what it ignores. -/
inductive Called (ds : DsModule) (ignore : List String) (expElm actElm : Value) :
    List String → Value → Value → Prop
  | root : Called ds ignore expElm actElm ignore expElm actElm
  | nested {names : List String} {e a e' a' : Value}
      (hcalled : Called ds ignore expElm actElm names e a) (hcalls : Calls ds names e a e' a') :
      Called ds ignore expElm actElm [] e' a'

/-- What a call leads to its caller leads to. -/
theorem Called.of_calls {e' a' : Value} (hcalls : Calls ds ignore expElm actElm e a)
    (h : Called ds [] e a names e' a') : Called ds ignore expElm actElm names e' a' := by
  induction h with
  | root => exact .nested .root hcalls
  | nested _ hnext ih => exact .nested ih hnext

/-- Both are elements, the expected one of a class of the module, and both have a getter for
every attribute of this class. -/
def OnElements (ds : DsModule) (expElm actElm : Value) : Prop :=
  ∃ expName expAttrs actName actAttrs elmClass, expElm = .elem expName expAttrs ∧
    actElm = .elem actName actAttrs ∧ ds (getClassName expName) = some elmClass ∧
    Declares elmClass expElm ∧ Declares elmClass actElm

theorem HasClass.onElements (hexp : HasClass ds className expElm)
    (hact : HasClass ds className actElm) : OnElements ds expElm actElm := by
  obtain ⟨elmClass, expAttrs, rfl, hclass, -, hexpDeclares, -⟩ := hexp.exists_elem
  obtain ⟨actClass, actAttrs, rfl, hclass', -, hactDeclares, -⟩ := hact.exists_elem
  obtain rfl : elmClass = actClass := Option.some.inj (hclass.symm.trans hclass')
  exact ⟨_, _, _, _, elmClass, rfl, rfl, hclass, hexpDeclares, hactDeclares⟩

/-- Two lists with elements, or two elements. -/
inductive Nested : Value → Value → Prop
  | lists (firstExp firstAct : Value) (restExp restAct : List Value) :
      Nested (.list (firstExp :: restExp)) (.list (firstAct :: restAct))
  | elems (expName actName : String) (expAttrs actAttrs : List (String × Value)) :
      Nested (.elem expName expAttrs) (.elem actName actAttrs)

theorem Compares.fits (h : Compares ds ignore expElm actElm attr spec expVal actVal)
    (hexp : HasClass ds className expElm) (hact : HasClass ds className actElm) :
    Fits ds spec expVal ∧ Fits ds spec actVal := by
  obtain ⟨elmClass, expAttrs, rfl, hclass, -, -, hexpFits⟩ := hexp.exists_elem
  obtain ⟨actClass, actAttrs, rfl, hclass', -, -, hactFits⟩ := hact.exists_elem
  obtain rfl : elmClass = actClass := Option.some.inj (hclass.symm.trans hclass')
  obtain ⟨found, hfound, hmem⟩ := h.member
  obtain rfl : elmClass = found := Option.some.inj (hclass.symm.trans hfound)
  exact ⟨hexpFits attr spec expVal hmem h.expected, hactFits attr spec actVal hmem h.actual⟩

/-- A value that is compared as an element and is one is a tree. -/
theorem Fits.hasClass (h : Fits ds spec (.elem name attrs)) :
    HasClass ds spec.getDataType (.elem name attrs) := by
  cases h with
  | tree hsingle hxs htree => exact htree

/-- The pairs of nested values are pairs of trees of one class. -/
theorem hasClass_of_paired (hexp : Fits ds spec expVal) (hact : Fits ds spec actVal)
    (hxs : spec.isXs = false) (hnested : Nested expVal actVal) (hpaired : Paired expVal actVal e a)
    :
    ∃ className, HasClass ds className e ∧ HasClass ds className a := by
  cases hnested with
  | lists firstExp firstAct restExp restAct =>
    obtain ⟨actSorted, expSorted, hsort, i, he, ha⟩ := hpaired
    obtain ⟨hactPerm, hexpPerm⟩ := sortElements_perm hsort
    refine ⟨spec.getDataType, ?_, ?_⟩
    · apply hexp.trees_of_list hxs
      exact hexpPerm.mem_iff.mp (List.mem_of_getElem? he)
    · apply hact.trees_of_list hxs
      exact hactPerm.mem_iff.mp (List.mem_of_getElem? ha)
  | elems expName actName expAttrs actAttrs =>
    obtain ⟨rfl, rfl⟩ := hpaired
    exact ⟨spec.getDataType, hexp.hasClass, hact.hasClass⟩

/-- Values that are not nested are a pair themselves, of which the actual one is an empty list
or the expected one is no element. -/
theorem not_nested (hexp : Fits ds spec expVal) (hact : Fits ds spec actVal)
    (hexpSet : expVal.isSet = true) (hactSet : actVal.isSet = true) (htext : ¬ Textual spec actVal)
    (h : ¬ Nested expVal actVal) :
    Paired expVal actVal expVal actVal ∧
      (actVal = .list [] ∨
        actVal.falsy = false ∧ (expVal = .list [] ∨ ∃ p, expVal = .prim p)) := by
  have hpaired : Paired expVal actVal expVal actVal := by
    refine (paired_of_not_lists ?_ _ _).mpr ⟨rfl, rfl⟩
    rintro _ _ _ _ rfl rfl
    exact h (.lists ..)
  refine ⟨hpaired, ?_⟩
  cases hcontainer : spec.container with
  | true =>
    obtain ⟨expItems, rfl⟩ := hexp.eq_list hcontainer
    obtain ⟨actItems, rfl⟩ := hact.eq_list hcontainer
    cases actItems with
    | nil => exact Or.inl rfl
    | cons firstAct restAct =>
      cases expItems with
      | nil => exact Or.inr ⟨rfl, Or.inl rfl⟩
      | cons firstExp restExp => exact absurd (.lists ..) h
  | false =>
    have hactElem : ∃ name attrs, actVal = .elem name attrs := by
      cases hact with
      | unset => cases hactSet
      | prim p => exact absurd (not_textual htext).2 (by simp [Value.isPrimitive])
      | tree _ _ htree =>
        obtain ⟨_, attrs, rfl, _⟩ := htree.exists_elem
        exact ⟨_, attrs, rfl⟩
      | prims hcontainer' | trees hcontainer' => simp [hcontainer] at hcontainer'
    obtain ⟨name, attrs, rfl⟩ := hactElem
    refine Or.inr ⟨rfl, Or.inr ?_⟩
    cases hexp with
    | unset => cases hexpSet
    | prim p => exact ⟨p, rfl⟩
    | tree _ _ htree =>
      obtain ⟨_, expAttrs, rfl, _⟩ := htree.exists_elem
      exact absurd (.elems ..) h
    | prims hcontainer' | trees hcontainer' => simp [hcontainer] at hcontainer'

/-- A call is for two trees of one class, or for values that are not nested. -/
theorem Calls.hasClass (h : Calls ds ignore expElm actElm e a) (hexp : HasClass ds className expElm)
    (hact : HasClass ds className actElm) :
    (∃ name, HasClass ds name e ∧ HasClass ds name a) ∨ a = .list [] ∨
      a.falsy = false ∧ (e = .list [] ∨ ∃ p, e = .prim p) := by
  obtain ⟨attr, spec, expVal, actVal, hcompares, htext, hpaired⟩ := h
  obtain ⟨hexpFits, hactFits⟩ := hcompares.fits hexp hact
  by_cases hnested : Nested expVal actVal
  · exact Or.inl (hasClass_of_paired hexpFits hactFits (not_textual htext).1 hnested hpaired)
  · have hlists : ∀ firstExp restExp firstAct restAct, expVal = .list (firstExp :: restExp) →
        actVal = .list (firstAct :: restAct) → False := by
      rintro _ _ _ _ rfl rfl
      exact hnested (.lists ..)
    obtain ⟨rfl, rfl⟩ := (paired_of_not_lists hlists e a).mp hpaired
    exact Or.inr (not_nested hexpFits hactFits hcompares.expectedSet hcompares.actualSet htext
      hnested).2

/-- Only elements have attributes. -/
theorem exists_elem_of_getAttibuteValue {attrName : String}
    (h : getAttibuteValue elm attrName = some value) : ∃ name attrs, elm = .elem name attrs := by
  cases elm with
  | elem name attrs => exact ⟨name, attrs, rfl⟩
  | none | prim _ | list _ => simp [getAttibuteValue, Value.getattr] at h

/-- Only elements lead to further calls. -/
theorem Calls.exists_elems (h : Calls ds ignore expElm actElm e a) :
    (∃ name attrs, expElm = .elem name attrs) ∧ ∃ name attrs, actElm = .elem name attrs := by
  obtain ⟨attr, spec, expVal, actVal, hcompares, -, -⟩ := h
  exact ⟨exists_elem_of_getAttibuteValue hcompares.expected,
    exists_elem_of_getAttibuteValue hcompares.actual⟩

/-- The elements for which `compareElements` is called are trees of one class. -/
theorem Called.hasClass (h : Called ds ignore expElm actElm names e a)
    (hexp : HasClass ds className expElm) (hact : HasClass ds className actElm) :
    (∃ name, HasClass ds name e ∧ HasClass ds name a) ∨ a = .list [] ∨
      a.falsy = false ∧ (e = .list [] ∨ ∃ p, e = .prim p) := by
  induction h with
  | root => exact Or.inl ⟨className, hexp, hact⟩
  | nested _ hcalls ih =>
    obtain ⟨⟨_, _, rfl⟩, _, _, rfl⟩ := hcalls.exists_elems
    rcases ih with ⟨name, he, ha⟩ | hempty | ⟨-, hleaf | ⟨p, hleaf⟩⟩
    · exact hcalls.hasClass he ha
    · cases hempty
    · cases hleaf
    · cases hleaf

/-! ## What is accepted at every depth -/

/-- Against a false value everything is accepted. -/
theorem compare_falsy (h : a.falsy = true) : compare printer ds e a = .ok true := by
  rw [compare, compareElements]
  simp [h]

/-- Where the root is accepted every call is. -/
theorem accepts_of_called (hexp : HasClass ds className expElm)
    (hact : HasClass ds className actElm)
    (haccepted : compareIgnoring printer ds ignore expElm actElm = .ok true)
    (h : Called ds ignore expElm actElm names e a) :
    compareIgnoring printer ds names e a = .ok true := by
  induction h with
  | root => exact haccepted
  | @nested names e a e' a' hcalled hcalls ih =>
    obtain ⟨⟨_, _, rfl⟩, _, _, rfl⟩ := hcalls.exists_elems
    rcases hcalled.hasClass hexp hact with ⟨name, he, ha⟩ | hempty | ⟨-, hleaf | ⟨p, hleaf⟩⟩
    · exact ((judged_iff_calls judges_ok_true he ha).mp ih).2 e' a' hcalls
    · cases hempty
    · cases hleaf
    · cases hleaf

/-! ## Texts -/

/-- What a getter returns is no `unicode`. -/
theorem getAttibuteValue_ne_unicode {text : Text} :
    getAttibuteValue elm name ≠ some (.prim (.unicode text)) := by
  intro h
  obtain ⟨raw, -, hraw⟩ := Option.map_eq_some_iff.mp h
  split at hraw
  · cases hraw
  · rename_i hother
    exact hother text hraw

/-- `str` of anything but a `unicode` is a text. -/
theorem pyStr_ok {value : Value} (h : ∀ text, value ≠ .prim (.unicode text)) :
    ∃ text, value.pyStr printer = .ok text := by
  cases value with
  | prim p =>
    cases p with
    | unicode text => exact absurd rfl (h text)
    | _ => exact ⟨_, rfl⟩
  | _ => exact ⟨_, rfl⟩

/-- Single values are compared as they are. -/
theorem comparedValues_of_single (hsingle : spec.container = false) :
    comparedValues attr spec expVal actVal = .ok (expVal, actVal) := by
  unfold comparedValues
  split
  · simp [hsingle]
  · simp [hsingle]
  · rfl

/-- The values of an attribute of two trees have texts. -/
theorem textVerdict_ok (hexp : Fits ds spec expVal) (hact : Fits ds spec actVal)
    (hexpText : ∀ text, expVal ≠ .prim (.unicode text))
    (hactText : ∀ text, actVal ≠ .prim (.unicode text)) :
    ∃ verdict, textVerdict printer attr spec expVal actVal = .ok verdict := by
  have hvalues : ∃ exp act, comparedValues attr spec expVal actVal = .ok (exp, act) ∧
      (∀ text, exp ≠ .prim (.unicode text)) ∧ ∀ text, act ≠ .prim (.unicode text) := by
    cases hcontainer : spec.container with
    | false => exact ⟨_, _, comparedValues_of_single hcontainer, hexpText, hactText⟩
    | true =>
      obtain ⟨expItems, rfl⟩ := hexp.eq_list hcontainer
      obtain ⟨actItems, rfl⟩ := hact.eq_list hcontainer
      unfold comparedValues
      simp only [hcontainer, if_true]
      exact ⟨_, _, rfl, fun _ h => (by cases h), fun _ h => (by cases h)⟩
  obtain ⟨exp, act, hcompared, hexpOk, hactOk⟩ := hvalues
  obtain ⟨expText, hexpStr⟩ := @pyStr_ok printer exp hexpOk
  obtain ⟨actText, hactStr⟩ := @pyStr_ok printer act hactOk
  unfold textVerdict comparedTexts
  rw [hcompared]
  simp only [bind, Except.bind, hexpStr, hactStr]
  cases spec.isBoolean || act.isBool with
  | false => exact ⟨_, rfl⟩
  | true => exact ⟨_, rfl⟩

end OvirtArt.CoreApi
