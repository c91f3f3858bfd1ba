import OvirtArt.CoreApi.Validator
import OvirtArt.Foundation.Conjunction

set_option autoImplicit false

/-!
# What a true result of `compareElements` means

The verdict is carried through two loops and through the recursion.  No step
turns a false verdict into a true one, so that the result is true exactly if
every attribute by itself is accepted.

Nothing is assumed of the trees here; a verdict is what the source returns, and a run that raises
has none.
-/

namespace OvirtArt.CoreApi

open OvirtArt.Foundation

variable {printer : Printer} {ds : DsModule}

/-! ## The depth of the recursion -/

theorem depth_getAttibuteValue {elm found : Value} {name : String}
    (h : getAttibuteValue elm name = some found) : found.depth < elm.depth := by
  obtain ⟨raw, hraw, rfl⟩ := Option.map_eq_some_iff.mp h
  have hlt := Value.depth_lt_of_getattr hraw
  split
  · exact Nat.lt_of_le_of_lt (Nat.zero_le _) hlt
  · exact hlt

theorem compareLists_congr {first second : Recursion} :
    ∀ {expElms actElms : List Value} {equal : Bool},
      (∀ e ∈ expElms, ∀ a equal, first e a equal = second e a equal) →
      compareLists first expElms actElms equal = compareLists second expElms actElms equal
  | [], _, _, _ => rfl
  | _ :: expElms, [], equal, h =>
    @compareLists_congr first second expElms [] equal
      fun e he => h e (List.mem_cons_of_mem _ he)
  | e :: expElms, a :: actElms, equal, h => by
      rw [compareLists, compareLists, h e List.mem_cons_self a equal]
      refine congrArg _ (funext fun same => ?_)
      exact compareLists_congr fun e he => h e (List.mem_cons_of_mem _ he)

/-- Sorting neither adds nor drops elements. -/
theorem sortElements_perm {actElms expElms actElms' expElms' : List Value}
    (h : sortElements actElms expElms = .ok (actElms', expElms')) :
    actElms'.Perm actElms ∧ expElms'.Perm expElms := by
  unfold sortElements at h
  split at h
  case h_1 =>
      obtain ⟨rfl, rfl⟩ : actElms = actElms' ∧ expElms = expElms' := by simpa using h
      exact ⟨List.Perm.refl _, List.Perm.refl _⟩
  case h_2 attr hattr =>
      unfold sortElementsByAttr at h
      split at h
      case isFalse => simp [bind, Except.bind] at h
      case isTrue =>
          have hact := sortOn_perm (sortKey attr) actElms
          have hexp := sortOn_perm (sortKey attr) expElms
          simp only [bind, Except.bind, pure, Except.pure, Except.ok.injEq,
            sortElementsByExistence] at h
          split at h
          · obtain ⟨rfl, rfl⟩ := Prod.mk.inj h
            exact ⟨hact, hexp⟩
          · split at h
            · obtain ⟨rfl, rfl⟩ := Prod.mk.inj h
              exact ⟨(sortOn_perm _ _).trans hact, hexp⟩
            · obtain ⟨rfl, rfl⟩ := Prod.mk.inj h
              exact ⟨hact, (sortOn_perm _ _).trans hexp⟩

variable {recursion : Recursion} {spec : MemberSpec} {expVal actVal expElm : Value} {attr : String}
  {equal : Bool}

theorem compareValues_congr {first second : Recursion}
    (h : ∀ e, e.depth ≤ expVal.depth → ∀ a equal, first e a equal = second e a equal) :
    compareValues printer first attr spec expVal actVal equal =
      compareValues printer second attr spec expVal actVal equal := by
  unfold compareValues
  split
  · rfl
  · split
    · cases hsort : sortElements _ _ with
      | error e => rfl
      | ok sorted =>
        obtain ⟨actElms, expElms⟩ := sorted
        refine compareLists_congr fun e he => h e ?_
        have hmem := (sortElements_perm hsort).2.mem_iff.mp he
        exact Nat.le_of_lt (Value.depth_lt_of_mem hmem)
    · rw [h expVal (Nat.le_refl _)]

theorem compareAttribute_congr {first second : Recursion} {ignore : List String} {actElm : Value}
    {item : String × MemberSpec}
    (h : ∀ e, e.depth < expElm.depth → ∀ a equal, first e a equal = second e a equal) :
    compareAttribute printer first ignore expElm actElm equal item =
      compareAttribute printer second ignore expElm actElm equal item := by
  unfold compareAttribute
  dsimp only
  split
  · rfl
  · split
    case h_1 expVal actVal hexp hact =>
        split
        · refine compareValues_congr fun e he => h e ?_
          exact Nat.lt_of_le_of_lt he (depth_getAttibuteValue hexp)
        · rfl
    case h_2 => rfl

/-- Once Python allows as many nested calls as the expected element is deep, it
does not matter how many it allows. -/
theorem compareElements_stable {m n : Nat} {ignore : List String} {actElm : Value}
    (hm : expElm.depth < m) (hn : expElm.depth < n) :
    compareElements printer ds m ignore expElm actElm equal =
      compareElements printer ds n ignore expElm actElm equal := by
  induction m generalizing n ignore expElm actElm equal with
  | zero => exact absurd hm (Nat.not_lt_zero _)
  | succ m ih =>
    cases n with
    | zero => exact absurd hn (Nat.not_lt_zero _)
    | succ n =>
      have hrec : ∀ e : Value, e.depth < expElm.depth → ∀ a equal,
          compareElements printer ds m [] e a equal =
            compareElements printer ds n [] e a equal := by
        intro e he a equal
        exact ih (by omega) (by omega)
      unfold compareElements
      split
      · rfl
      · split
        · rfl
        · refine congrArg (fun step => List.foldlM step equal _) ?_
          funext equal item
          exact compareAttribute_congr hrec

/-! ## The verdict -/

/-- A recursion that only adds its own judgement to the verdict; of a false
actual value it always judges true. -/
def Carries (recursion : Recursion) : Prop :=
  ∀ e a equal, (recursion e a equal).map (equal && ·) =
    (recursion e a true).map (equal && ·)

theorem and_eq_ite (equal same : Bool) : (if same then equal else false) = (equal && same) := by
  cases same <;> simp

theorem compareLists_conjunctive (h : Carries recursion) :
    ∀ (expElms actElms : List Value) (equal : Bool),
      compareLists recursion expElms actElms equal =
        (compareLists recursion expElms actElms true).map (equal && ·)
  | [], _, equal => by simp [compareLists, Except.map]
  | _ :: expElms, [], equal => by
      rw [compareLists, compareLists]
      exact compareLists_conjunctive h expElms [] equal
  | e :: expElms, a :: actElms, equal => by
      have hrest := compareLists_conjunctive h expElms actElms
      have hcarries := h e a equal
      rw [compareLists, compareLists]
      simp only [and_eq_ite, Bool.true_and]
      cases htrue : recursion e a true with
      | error error =>
        rw [htrue] at hcarries
        cases hequal : recursion e a equal with
        | error other =>
          rw [hequal] at hcarries
          simpa [Except.map, bind, Except.bind] using hcarries
        | ok same => simp [hequal, Except.map] at hcarries
      | ok judged =>
        rw [htrue] at hcarries
        cases hequal : recursion e a equal with
        | error other => simp [hequal, Except.map] at hcarries
        | ok same =>
          have hsame : (equal && same) = (equal && judged) := by
            simpa [hequal, Except.map] using hcarries
          simp only [bind, Except.bind]
          rw [hrest (equal && same), hrest judged, map_and_and, hsame]

theorem compareValues_conjunctive (h : Carries recursion) (attr : String) (spec : MemberSpec)
    (expVal actVal : Value) (equal : Bool) :
    compareValues printer recursion attr spec expVal actVal equal =
      (compareValues printer recursion attr spec expVal actVal true).map (equal && ·) := by
  unfold compareValues
  split
  · cases comparedTexts printer attr spec expVal actVal with
    | error e => rfl
    | ok texts =>
      obtain ⟨expText, actText⟩ := texts
      by_cases htext : expText = actText
      · simp [htext, bind, Except.bind, pure, Except.pure, Except.map]
      · simp [htext, bind, Except.bind, pure, Except.pure, Except.map]
  · split
    · cases sortElements _ _ with
      | error e => rfl
      | ok sorted =>
        obtain ⟨actElms, expElms⟩ := sorted
        exact compareLists_conjunctive h expElms actElms equal
    · have hcarries := h expVal actVal equal
      simp only [and_eq_ite]
      exact hcarries.trans (by
        cases recursion expVal actVal true <;>
          simp [bind, Except.bind, pure, Except.pure, Except.map])

theorem compareAttribute_conjunctive (h : Carries recursion) (ignore : List String)
    (expElm actElm : Value) :
    Conjunctive (compareAttribute printer recursion ignore expElm actElm) := by
  rintro equal ⟨attr, spec⟩
  unfold compareAttribute
  dsimp only
  split
  · simp [Except.map]
  · split
    · split
      · exact compareValues_conjunctive h ..
      · simp [Except.map]
    · split
      · simp [Except.map]
      · simp [Except.map]

/-- No verdict is turned back by `compareElements`. -/
theorem compareElements_carries (limit : Nat) (ignore : List String) :
    Carries (compareElements printer ds limit ignore) := by
  induction limit generalizing ignore with
  | zero => exact fun _ _ _ => rfl
  | succ limit ih =>
    intro expElm actElm equal
    unfold compareElements
    split
    · rfl
    · split
      · rfl
      · rw [(compareAttribute_conjunctive (ih []) ignore expElm actElm).foldlM _ equal,
          map_and_and, Bool.and_self]

/-! ## What is accepted -/

section

variable (printer ds)

/-- `compareElements(expElm, actElm, logger, root)`. -/
def compare (expElm actElm : Value) : Except PyError Bool :=
  compareElements printer ds (expElm.depth + 1) [] expElm actElm true

/-- The actual value is accepted. -/
def Accepts (expElm actElm : Value) : Prop := compare printer ds expElm actElm = .ok true

/-- The values of an attribute have the same text: booleans up to case, lists
sorted, and without ignored items that are not expected. -/
def SameText (attr : String) (spec : MemberSpec) (expVal actVal : Value) : Prop :=
  ∃ text, comparedTexts printer attr spec expVal actVal = .ok (text, text)

/-- After `sort_elements` every expected element is accepted against the actual
one at the same position, if there is one. -/
def ListHolds (expElms actElms : List Value) : Prop :=
  ∃ actSorted expSorted, sortElements actElms expElms = .ok (actSorted, expSorted) ∧
    ∀ (i : Nat) (e a : Value), expSorted[i]? = some e → actSorted[i]? = some a →
      Accepts printer ds e a

/-- The values of an attribute that is set in both elements agree. -/
def ValueHolds (attr : String) (spec : MemberSpec) (expVal actVal : Value) : Prop :=
  if spec.isXs || actVal.isPrimitive then SameText printer attr spec expVal actVal
  else
    match expVal, actVal with
    | .list (firstExp :: restExp), .list (firstAct :: restAct) =>
      ListHolds printer ds (firstExp :: restExp) (firstAct :: restAct)
    | _, _ => Accepts printer ds expVal actVal

end

/-- The element has a getter for every attribute of the class. -/
def Declares (elmClass : DsClass) (elm : Value) : Prop :=
  ∀ item ∈ getObjAttributes elmClass, getAttibuteValue elm (originalName item.1) ≠ none

theorem compareElements_eq_compare {limit : Nat} (h : expElm.depth < limit) (actElm : Value) :
    compareElements printer ds limit [] expElm actElm true =
      compare printer ds expElm actElm :=
  compareElements_stable h (Nat.lt_succ_self _)

section

variable {judge : Except PyError Bool → Prop}

/-- The loop over a list is judged as all its pairs are. -/
theorem compareLists_iff (hjudge : Judges judge) {recursion : Recursion}
    (h : Carries recursion) {expElms actElms : List Value} :
    judge (compareLists recursion expElms actElms true) ↔
      ∀ (i : Nat) (e a : Value), expElms[i]? = some e → actElms[i]? = some a →
        judge (recursion e a true) := by
  induction expElms generalizing actElms with
  | nil => exact iff_of_true hjudge.ok_true fun i e a he => by cases he
  | cons first expElms ih =>
    cases actElms with
    | nil =>
      rw [compareLists, ih]
      simp
    | cons a actElms =>
      have hsplit : (∀ (i : Nat) (e a' : Value), (first :: expElms)[i]? = some e →
          (a :: actElms)[i]? = some a' → judge (recursion e a' true)) ↔
          judge (recursion first a true) ∧
            ∀ (i : Nat) (e a' : Value), expElms[i]? = some e →
              actElms[i]? = some a' → judge (recursion e a' true) := by
        constructor
        · intro hall
          exact ⟨hall 0 first a rfl rfl, fun i e a' he ha =>
            hall (i + 1) e a' (by simpa using he) (by simpa using ha)⟩
        · rintro ⟨hfirst, hrest⟩ i e a' he ha
          cases i with
          | zero =>
            obtain rfl : first = e := by simpa using he
            obtain rfl : a = a' := by simpa using ha
            exact hfirst
          | succ i => exact hrest i e a' (by simpa using he) (by simpa using ha)
      rw [hsplit, ← ih, compareLists]
      cases hfirst : recursion first a true with
      | error e => exact iff_of_false (hjudge.error e) fun hboth => hjudge.error e hboth.1
      | ok same =>
        simp only [bind, Except.bind, and_eq_ite, Bool.true_and]
        rw [compareLists_conjunctive h expElms actElms same, hjudge.conj]

variable (printer ds judge)

/-- The verdict on two texts. -/
def textVerdict (attr : String) (spec : MemberSpec) (expVal actVal : Value) :
    Except PyError Bool := do
  let (expText, actText) ← comparedTexts printer attr spec expVal actVal
  pure (expText = actText)

/-- The judgement of the values of an attribute that is set in both elements: of their texts,
of the pairs of the sorted lists, or of the nested values. -/
def ValueJudged (attr : String) (spec : MemberSpec) (expVal actVal : Value) : Prop :=
  if spec.isXs || actVal.isPrimitive then judge (textVerdict printer attr spec expVal actVal)
  else
    match expVal, actVal with
    | .list (firstExp :: restExp), .list (firstAct :: restAct) =>
      ∃ actSorted expSorted, sortElements (firstAct :: restAct) (firstExp :: restExp) =
          .ok (actSorted, expSorted) ∧
        ∀ (i : Nat) (e a : Value), expSorted[i]? = some e → actSorted[i]? = some a →
          judge (compare printer ds e a)
    | _, _ => judge (compare printer ds expVal actVal)

variable {printer ds judge} {spec : MemberSpec} {attr : String}

/-- Two lists that hold an element each are judged pair by pair, in their sorted order. -/
theorem valueJudged_of_lists {firstExp firstAct : Value} {restExp restAct : List Value}
    (htext : ¬ (spec.isXs || (Value.list (firstAct :: restAct)).isPrimitive) = true) :
    ValueJudged printer ds judge attr spec (.list (firstExp :: restExp))
        (.list (firstAct :: restAct)) ↔
      ∃ actSorted expSorted, sortElements (firstAct :: restAct) (firstExp :: restExp) =
          .ok (actSorted, expSorted) ∧
        ∀ (i : Nat) (e a : Value), expSorted[i]? = some e → actSorted[i]? = some a →
          judge (compare printer ds e a) := by
  unfold ValueJudged
  rw [if_neg htext]

theorem valueJudged_of_not_lists {expVal actVal : Value}
    (htext : ¬ (spec.isXs || actVal.isPrimitive) = true)
    (hlists : ∀ (firstExp : Value) (restExp : List Value) (firstAct : Value)
      (restAct : List Value), expVal = .list (firstExp :: restExp) →
        actVal = .list (firstAct :: restAct) → False) :
    ValueJudged printer ds judge attr spec expVal actVal ↔
      judge (compare printer ds expVal actVal) := by
  unfold ValueJudged
  rw [if_neg htext]
  split
  · exact (hlists _ _ _ _ rfl rfl).elim
  · exact Iff.rfl

theorem compareValues_iff (hjudge : Judges judge) {limit : Nat} {expVal actVal : Value}
    (hdepth : expVal.depth < limit) :
    judge (compareValues printer (compareElements printer ds limit []) attr spec expVal actVal
        true) ↔
      ValueJudged printer ds judge attr spec expVal actVal := by
  unfold compareValues
  split
  case isTrue htext =>
      unfold ValueJudged textVerdict
      rw [if_pos htext]
      cases comparedTexts printer attr spec expVal actVal with
      | error e => exact Iff.rfl
      | ok texts =>
        obtain ⟨expText, actText⟩ := texts
        by_cases hequal : expText = actText
        · simp [hequal, bind, Except.bind, pure, Except.pure]
        · simp [hequal, bind, Except.bind, pure, Except.pure]
  case isFalse htext =>
      split
      case h_1 firstExp restExp firstAct restAct =>
          rw [valueJudged_of_lists htext]
          generalize hsort : sortElements (firstAct :: restAct) (firstExp :: restExp) = sorted
          cases sorted with
          | error e =>
            refine iff_of_false (hjudge.error e) ?_
            rintro ⟨_, _, heq, _⟩
            cases heq
          | ok sorted =>
            obtain ⟨actElms, expElms⟩ := sorted
            simp only [bind, Except.bind]
            rw [compareLists_iff hjudge (compareElements_carries limit [])]
            have hmem : ∀ (i : Nat) (e : Value), expElms[i]? = some e → e.depth < limit := by
              intro i e he
              have hin := (sortElements_perm hsort).2.mem_iff.mp (List.mem_of_getElem? he)
              exact Nat.lt_trans (Value.depth_lt_of_mem hin) hdepth
            constructor
            · intro hall
              refine ⟨actElms, expElms, rfl, fun i e a he ha => ?_⟩
              rw [← compareElements_eq_compare (hmem i e he)]
              exact hall i e a he ha
            · rintro ⟨_, _, heq, hall⟩ i e a he ha
              obtain ⟨rfl, rfl⟩ := Prod.mk.inj (Except.ok.inj heq)
              rw [compareElements_eq_compare (hmem i e he)]
              exact hall i e a he ha
      case h_2 hlists =>
          rw [compareElements_eq_compare hdepth, valueJudged_of_not_lists htext hlists]
          have hsame : (do
              let same ← compare printer ds expVal actVal
              pure (if same = true then true else false) : Except PyError Bool) =
                compare printer ds expVal actVal := by
            cases compare printer ds expVal actVal with
            | error e => rfl
            | ok same => cases same <;> rfl
          rw [hsame]

/-- `compareElements(expElm, actElm, logger, root, ignore=ignore)`. -/
def compareIgnoring (printer : Printer) (ds : DsModule) (ignore : List String)
    (expElm actElm : Value) : Except PyError Bool :=
  compareElements printer ds (expElm.depth + 1) ignore expElm actElm true

/-- Two elements of a class are judged as the values of every attribute that counts and is set
in both. -/
theorem compareIgnoring_iff (hjudge : Judges judge) {ignore : List String} {className : String}
    {elmClass : DsClass} {expAttrs actAttrs : List (String × Value)}
    (hclass : ds (getClassName className) = some elmClass)
    (hexp : Declares elmClass (.elem className expAttrs))
    (hact : Declares elmClass (.elem className actAttrs)) :
    judge (compareIgnoring printer ds ignore (.elem className expAttrs)
        (.elem className actAttrs)) ↔
      ∀ attr spec, (attr, spec) ∈ getObjAttributes elmClass → attr ∉ ignoreList ++ ignore →
        ∀ expVal actVal,
          getAttibuteValue (.elem className expAttrs) (originalName attr) = some expVal →
          getAttibuteValue (.elem className actAttrs) (originalName attr) = some actVal →
          expVal.isSet = true → actVal.isSet = true →
          ValueJudged printer ds judge attr spec expVal actVal := by
  have hclass' : ds (getClassName (Value.elem className expAttrs).className) =
      some elmClass := hclass
  rw [compareIgnoring, compareElements]
  simp only [Value.falsy, Bool.false_eq_true, if_false, hclass']
  rw [(compareAttribute_conjunctive (compareElements_carries _ []) _ _ _).foldlM_iff hjudge]
  constructor
  · intro hall attr spec hmem hignore expVal actVal hexpVal hactVal hexpSet hactSet
    have hok := hall (attr, spec) hmem
    simp only [compareAttribute, hignore, if_false, hexpVal, hactVal, hexpSet, hactSet,
      Bool.and_self, if_true] at hok
    exact (compareValues_iff hjudge (depth_getAttibuteValue hexpVal)).mp hok
  · rintro hall ⟨attr, spec⟩ hmem
    by_cases hignore : attr ∈ ignoreList ++ ignore
    · simp only [compareAttribute, hignore, if_true]
      exact hjudge.ok_true
    · obtain ⟨expVal, hexpVal⟩ := Option.ne_none_iff_exists'.mp (hexp (attr, spec) hmem)
      obtain ⟨actVal, hactVal⟩ := Option.ne_none_iff_exists'.mp (hact (attr, spec) hmem)
      simp only [compareAttribute, hignore, if_false, hexpVal, hactVal]
      split
      case isFalse => exact hjudge.ok_true
      case isTrue hset =>
          rw [Bool.and_eq_true] at hset
          rw [compareValues_iff hjudge (depth_getAttibuteValue hexpVal)]
          exact hall attr spec hmem hignore expVal actVal hexpVal hactVal hset.1 hset.2

end

/-- The texts are judged equal exactly if they are the same. -/
theorem textVerdict_eq_ok_true :
    textVerdict printer attr spec expVal actVal = .ok true ↔
      SameText printer attr spec expVal actVal := by
  unfold textVerdict SameText
  cases comparedTexts printer attr spec expVal actVal with
  | error e => simp [bind, Except.bind]
  | ok texts =>
    obtain ⟨expText, actText⟩ := texts
    simp only [bind, Except.bind, pure, Except.pure, Except.ok.injEq, decide_eq_true_iff,
      Prod.mk.injEq]
    constructor
    · rintro rfl
      exact ⟨expText, rfl, rfl⟩
    · rintro ⟨text, rfl, rfl⟩
      rfl

/-- The values of an attribute are judged equal exactly if they agree. -/
theorem valueJudged_iff_valueHolds :
    ValueJudged printer ds (· = .ok true) attr spec expVal actVal ↔
      ValueHolds printer ds attr spec expVal actVal := by
  unfold ValueJudged ValueHolds
  split
  · exact textVerdict_eq_ok_true
  · split <;> exact Iff.rfl

/-- Of two elements of a class, the actual one is accepted exactly if the values
of every attribute that counts and is set in both agree. -/
theorem accepts_iff {className : String} {elmClass : DsClass}
    {expAttrs actAttrs : List (String × Value)}
    (hclass : ds (getClassName className) = some elmClass)
    (hexp : Declares elmClass (.elem className expAttrs))
    (hact : Declares elmClass (.elem className actAttrs)) :
    Accepts printer ds (.elem className expAttrs) (.elem className actAttrs) ↔
      ∀ attr spec, (attr, spec) ∈ getObjAttributes elmClass → attr ∉ ignoreList →
        ∀ expVal actVal,
          getAttibuteValue (.elem className expAttrs) (originalName attr) = some expVal →
          getAttibuteValue (.elem className actAttrs) (originalName attr) = some actVal →
          expVal.isSet = true → actVal.isSet = true →
          ValueHolds printer ds attr spec expVal actVal := by
  have hiff := @compareIgnoring_iff printer ds _ judges_ok_true [] _ _ _ _ hclass hexp hact
  simp only [List.append_nil, valueJudged_iff_valueHolds] at hiff
  exact hiff

end OvirtArt.CoreApi
