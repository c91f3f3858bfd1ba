import OvirtArt.CoreApi.PyText

set_option autoImplicit false

/-!
# `searchForObj` of `rhevm_api/utils/test_utils.py`

The number of objects that a search is expected to find is counted by the test itself: the value
that is searched for is matched, as a regular expression, with what each object has.

Regular expressions are modelled as far as single characters go: these stand for themselves or, if
they are the dot, for any but the end of a line; they may be repeated by `*`, `+` and `?`, also
lazily; and `^` and `$` are anchors.  Brackets, bars, backslashes and braces are not: what `re`
makes of a pattern with one of them is a parameter.  Whether a pattern matches is all that is asked,
so the repetitions need not be greedy.
-/

namespace OvirtArt.Utils.SearchForObj

open OvirtArt.CoreApi

/-- What the function raises. -/
inductive SearchException where
  | testCaseError
  /-- `re.error`. -/
  | reError
  deriving DecidableEq, Repr

/-- An object, of which only the property that is searched for is read. -/
structure Entity where
  objProperty : Option Text

/-! ## `re.match` -/

/-- What `re` makes of a pattern and a text, where the reading of the pattern is not modelled. -/
abbrev Special := Text → Text → Except SearchException Bool

/-- The characters that are modelled. -/
def readable (c : Char) : Bool := c ∉ "\x7b[\\|()".toList

/-- The characters that stand for one character in a pattern: themselves or, if it is the dot, any
but the end of a line. -/
def plain (c : Char) : Bool := readable c && c ∉ "^$*+?".toList

/-- How often a character is repeated: it may be left out, it may come more than once; a question
mark behind makes it lazy. -/
inductive Times where
  | once
  | repeated (optional many lazy : Bool)

/-- An item of a pattern. -/
inductive Item where
  /-- `^`. -/
  | start
  /-- `$`. -/
  | finish
  | char (p : Char) (times : Times)

/-- The items, the last one first, with a sign of repetition behind; `none` if there is nothing to
repeat, or it is repeated already. -/
def repeatLast (c : Char) : List Item → Option (List Item)
  | .char p .once :: before =>
    some (.char p (.repeated (decide (c ≠ '+')) (decide (c ≠ '?')) false) :: before)
  | .char p (.repeated optional many false) :: before =>
    if c = '?' then some (.char p (.repeated optional many true) :: before) else none
  | _ => none

/-- The item of a character. -/
def itemOf (c : Char) : Item :=
  if c = '^' then .start else if c = '$' then .finish else .char c .once

/-- The items of a pattern behind those that were read, the last one first. -/
def itemsFrom : List Item → Text → Option (List Item)
  | before, [] => some before.reverse
  | before, c :: rest =>
    if c ∈ ['*', '+', '?'] then (repeatLast c before).bind fun items => itemsFrom items rest
    else itemsFrom (itemOf c :: before) rest

/-- `"(?i)"`. -/
def caseFlag : Text := "(?i)".toList

/-- The character of the pattern stands for that of the text. -/
def standsFor (ignoreCase : Bool) (p c : Char) : Bool :=
  if p = '.' then decide (c ≠ '\n')
  else if ignoreCase then decide (p.toLower = c.toLower) else decide (p = c)

/-- The text begins with characters for which those of the pattern stand. -/
def fits (ignoreCase : Bool) : Text → Text → Bool
  | [], _ => true
  | _ :: _, [] => false
  | p :: pattern, c :: text => standsFor ignoreCase p c && fits ignoreCase pattern text

/-- One of these characters, and then what follows. -/
def oneThen (among : Char → Bool) (next : Bool → Text → Bool) : Text → Bool
  | [] => false
  | c :: rest => among c && next false rest

/-- Any number of these characters, and then what follows. -/
def manyThen (among : Char → Bool) (next : Bool → Text → Bool) : Bool → Text → Bool
  | atStart, [] => next atStart []
  | atStart, c :: rest => next atStart (c :: rest) || (among c && manyThen among next false rest)

/-- The items match the beginning of the text, which is at the start of the whole text or not. -/
def itemsFit (ignoreCase : Bool) : List Item → Bool → Text → Bool
  | [], _, _ => true
  | .start :: items, atStart, text => atStart && itemsFit ignoreCase items atStart text
  | .finish :: items, atStart, text =>
    decide (text = [] ∨ text = ['\n']) && itemsFit ignoreCase items atStart text
  | .char p .once :: items, _, text =>
    oneThen (standsFor ignoreCase p) (itemsFit ignoreCase items) text
  | .char p (.repeated optional many _) :: items, atStart, text =>
    (optional && itemsFit ignoreCase items atStart text) ||
      oneThen (standsFor ignoreCase p)
        (if many then manyThen (standsFor ignoreCase p) (itemsFit ignoreCase items)
          else itemsFit ignoreCase items) text

/-- The pattern without its flag, and whether it has it. -/
def withoutFlag (pattern : Text) : Bool × Text :=
  if caseFlag.isPrefixOf pattern then (true, pattern.drop caseFlag.length)
  else if ('^' :: caseFlag).isPrefixOf pattern then
    (true, '^' :: pattern.drop (caseFlag.length + 1))
  else (false, pattern)

/-- `re.match` for a pattern without its flag. -/
def matchBody (ignoreCase : Bool) (body : Text) (otherwise : Except SearchException Bool)
    (text : Text) : Except SearchException Bool :=
  if body.all readable then
    match itemsFrom [] body with
    | none => .error .reError
    | some items => .ok (itemsFit ignoreCase items true text)
  else otherwise

/-- `re.match(pattern, text)`, as a truth value. -/
def reMatch (special : Special) (pattern text : Text) : Except SearchException Bool :=
  matchBody (withoutFlag pattern).1 (withoutFlag pattern).2 (special pattern text) text

/-! ## The source -/

/-- `re.match(r'(.*)\*$', text)`: the end may be that before the end of a last line. -/
def endsWithStar (text : Text) : Bool :=
  let line := if text.getLast? = some '\n' then text.dropLast else text
  decide (line.getLast? = some '*') && !line.contains '\n'

/-- The `pattern`. -/
def searchPattern (queryVal : Text) (caseSensitive : Bool) : Text :=
  let pattern := if caseSensitive then queryVal else caseFlag ++ queryVal
  if endsWithStar queryVal then '^' :: pattern else pattern

/-- The loop over the objects. -/
def countMatches (special : Special) (pattern : Text) :
    List Entity → Nat → Except SearchException Nat
  | [], count => .ok count
  | obj :: objs, count =>
    match obj.objProperty with
    | none => .error .testCaseError
    | some objProperty =>
      match reMatch special pattern objProperty with
      | .error e => .error e
      | .ok found => countMatches special pattern objs (if found then count + 1 else count)

/-- `if max > 0: expected_count = min(expected_count, max)`, where `None` is below each number. -/
def limited (max : Option Int) (count : Nat) : Int :=
  match max with
  | none => count
  | some max => if 0 < max then min (count : Int) max else count

/-- The `expected_count`, unless the caller gives it. -/
def expectation (special : Special) (objs : List Entity) (queryVal : Text) (max : Option Int)
    (caseSensitive : Bool) (expectedCount : Option Int) : Except SearchException Int :=
  match expectedCount with
  | some expectedCount => .ok expectedCount
  | none =>
    match countMatches special (searchPattern queryVal caseSensitive) objs 0 with
    | .error e => .error e
    | .ok count => .ok (limited max count)

/-- `compareCollectionSize` of `core_api/validator.py`, for a number. -/
def compareCollectionSize (collection : Option (List Entity)) (expectedSize : Int) : Bool :=
  match collection with
  | none => false
  | some members => decide ((members.length : Int) = expectedSize)

/-- `"{0}={1}".format(query_key, query_val)`. -/
def searchConstraint (queryKey queryVal : Text) : Text := queryKey ++ "=".toList ++ queryVal

/-- `str(case_sensitive).lower()`. -/
def flagText (caseSensitive : Bool) : Text :=
  if caseSensitive then "true".toList else "false".toList

/-- `searchForObj`, with the reply of `util.get` and those of `util.query`. -/
def searchForObj (special : Special) (objs : List Entity)
    (query : Text → Option Int → Text → Option (List Entity)) (queryKey queryVal : Text)
    (max : Option Int) (caseSensitive : Bool) (expectedCount : Option Int) :
    Except SearchException Bool :=
  match expectation special objs queryVal max caseSensitive expectedCount with
  | .error e => .error e
  | .ok expectedCount =>
    .ok (compareCollectionSize
      (query (searchConstraint queryKey queryVal) max (flagText caseSensitive)) expectedCount)

/-! ## What is asked of it -/

/-- A text under the case rule. -/
def folded (caseSensitive : Bool) (text : Text) : Text :=
  if caseSensitive then text else Text.lower text

/-- The objects that the search is for: those with the literal as value or, if a star follows it,
with a value that starts with it. -/
def meant (literal : Text) (starred caseSensitive : Bool) (value : Text) : Bool :=
  if starred then (folded caseSensitive literal).isPrefixOf (folded caseSensitive value)
  else decide (folded caseSensitive literal = folded caseSensitive value)

/-- The query value of a literal. -/
def queryValue (literal : Text) (starred : Bool) : Text :=
  if starred then literal ++ ['*'] else literal

/-- `min(max, count)`, where there is a maximum. -/
def atMost (max : Option Int) (count : Nat) : Int :=
  match max with
  | none => count
  | some max => min max count

section

variable (special : Special) (literal : Text) (starred caseSensitive : Bool) (max : Option Int)
  (values : List Text)

/-- How many objects the search is for. -/
def meantCount : Nat := (values.filter (meant literal starred caseSensitive)).length

/-- The verdict of `re` on the value of an object. -/
def verdict (value : Text) : Except SearchException Bool :=
  reMatch special (searchPattern (queryValue literal starred) caseSensitive) value

/-- The object is counted. -/
def counted (value : Text) : Bool :=
  match verdict special literal starred caseSensitive value with
  | .ok found => found
  | .error _ => false

/-- The answer of the engine is compared with the number of the objects that the search is for, and
no other object is counted. -/
structure Expects : Prop where
  compares : ∀ (queryKey : Text) (query : Text → Option Int → Text → Option (List Entity)),
    searchForObj special (values.map fun value => ⟨some value⟩) query queryKey
        (queryValue literal starred) max caseSensitive none =
      .ok (compareCollectionSize
        (query (searchConstraint queryKey (queryValue literal starred)) max
          (flagText caseSensitive))
        (atMost max (meantCount literal starred caseSensitive values)))
  others : ∀ value ∈ values, counted special literal starred caseSensitive value = true →
    meant literal starred caseSensitive value = true

/-- A literal without special characters: no object but those that the search is for has a value
that begins as the literal or, if a star follows, as the literal without its last character; a star
has a character to repeat; and a maximum that is not positive is no limit that matters. -/
structure OnlyMeantFit : Prop where
  fitting : ∀ value ∈ values,
    fits (!caseSensitive) (if starred then literal.dropLast else literal) value = true →
      meant literal starred caseSensitive value = true
  repeats : starred = true → literal = [] → values = []
  limit : ∀ m, max = some m → 0 < m ∨ (meantCount literal starred caseSensitive values : Int) ≤ m

/-- What `re` says of the values: the pattern is one, matches no object but those that the search
is for, and as many of them as are to be counted. -/
structure ReadAsMeant : Prop where
  answered : ∀ value ∈ values, ∃ found,
    verdict special literal starred caseSensitive value = .ok found
  within : ∀ value ∈ values, counted special literal starred caseSensitive value = true →
    meant literal starred caseSensitive value = true
  enough : limited max (values.filter (counted special literal starred caseSensitive)).length =
    atMost max (meantCount literal starred caseSensitive values)

/-- The items that the query value is read as. -/
def queryItems : Option (List Item) :=
  if endsWithStar (queryValue literal starred) then itemsFrom [.start] (queryValue literal starred)
  else itemsFrom [] (queryValue literal starred)

/-- The items fit the value. -/
def itemsFitValue (value : Text) : Bool :=
  (queryItems literal starred).any fun items => itemsFit (!caseSensitive) items true value

/-- A literal of characters that are modelled: its signs of repetition have something to repeat; its
items fit no object but those that the search is for, and all of these or as many as a maximum asks
for; and a maximum that is not positive is no limit that matters. -/
structure OnlyMeantItemsFit : Prop where
  repeats : values ≠ [] → queryItems literal starred ≠ none
  fitting : ∀ value ∈ values, itemsFitValue literal starred caseSensitive value = true →
    meant literal starred caseSensitive value = true
  missed : (∀ value ∈ values, meant literal starred caseSensitive value = true →
      itemsFitValue literal starred caseSensitive value = true) ∨
    ∃ m, max = some m ∧
      m ≤ (values.filter (itemsFitValue literal starred caseSensitive)).length
  limit : ∀ m, max = some m → 0 < m ∨
    ((values.filter (itemsFitValue literal starred caseSensitive)).length : Int) ≤ m

end

/-! ## The count -/

section

variable {special : Special} {literal : Text} {starred caseSensitive : Bool} {max : Option Int}
  {values : List Text}

/-- The loop raises, or every value has a verdict and those that match are counted. -/
theorem countMatches_eq_ok_iff {pattern : Text} {count n : Nat} :
    countMatches special pattern (values.map fun value => ⟨some value⟩) count = .ok n ↔
      (∀ value ∈ values, ∃ found, reMatch special pattern value = .ok found) ∧
        n = count + (values.filter fun value =>
          decide (reMatch special pattern value = .ok true)).length := by
  induction values generalizing count with
  | nil =>
    simp only [List.map_nil, countMatches, List.filter_nil, List.length_nil, Nat.add_zero]
    constructor
    · intro h
      exact ⟨nofun, (Except.ok.inj h).symm⟩
    · intro h
      rw [h.2]
  | cons value rest ih =>
    simp only [List.map_cons, countMatches, List.forall_mem_cons]
    cases hvalue : reMatch special pattern value with
    | error e =>
      refine iff_of_false nofun ?_
      rintro ⟨⟨⟨found, hfound⟩, -⟩, -⟩
      exact nomatch hfound
    | ok found =>
      simp only []
      rw [ih, List.filter_cons, hvalue]
      cases found with
      | true =>
        rw [if_pos rfl, if_pos (decide_eq_true rfl), List.length_cons, Nat.add_assoc,
          Nat.add_comm 1]
        exact and_congr_left fun _ => (and_iff_right ⟨true, rfl⟩).symm
      | false =>
        rw [if_neg nofun, if_neg (by simp)]
        exact and_congr_left fun _ => (and_iff_right ⟨false, rfl⟩).symm

theorem counted_eq_decide (value : Text) :
    counted special literal starred caseSensitive value =
      decide (verdict special literal starred caseSensitive value = .ok true) := by
  unfold counted
  cases verdict special literal starred caseSensitive value with
  | error e => rfl
  | ok found => cases found <;> rfl

theorem limited_nonneg (count : Nat) : 0 ≤ limited max count := by
  unfold limited
  cases max with
  | none => exact Int.natCast_nonneg count
  | some m =>
    simp only []
    split
    · omega
    · omega

/-- A reply that has the expected size tells two expectations apart. -/
theorem eq_of_compare_eq {a b : Int} (ha : 0 ≤ a)
    (h : ∀ reply, compareCollectionSize reply a = compareCollectionSize reply b) : a = b := by
  have hsize := h (some (List.replicate a.toNat ⟨none⟩))
  simp only [compareCollectionSize, List.length_replicate] at hsize
  rw [decide_eq_true (Int.toNat_of_nonneg ha)] at hsize
  have hb := of_decide_eq_true hsize.symm
  omega

/-- What is asked, in terms of the verdicts of `re`. -/
theorem expects_iff_readAsMeant :
    Expects special literal starred caseSensitive max values ↔
      ReadAsMeant special literal starred caseSensitive max values := by
  have hfilter : values.filter (counted special literal starred caseSensitive) =
      values.filter fun value =>
        decide (verdict special literal starred caseSensitive value = .ok true) :=
    List.filter_congr fun value _ => counted_eq_decide value
  constructor
  · intro h
    have hrun := h.compares []
    simp only [searchForObj, expectation] at hrun
    cases hcount : countMatches special (searchPattern (queryValue literal starred) caseSensitive)
        (values.map fun value => ⟨some value⟩) 0 with
    | error e =>
      rw [hcount] at hrun
      exact nomatch hrun fun _ _ _ => none
    | ok count =>
      rw [hcount] at hrun
      obtain ⟨hanswered, hn⟩ := countMatches_eq_ok_iff.mp hcount
      have heq := eq_of_compare_eq (limited_nonneg count) fun reply =>
        Except.ok.inj (hrun fun _ _ _ => reply)
      rw [Nat.zero_add] at hn
      refine ⟨hanswered, h.others, ?_⟩
      rw [hfilter, ← heq, hn]
      rfl
  · intro h
    have hcount := countMatches_eq_ok_iff.mpr
      ⟨h.answered, (Nat.zero_add (values.filter fun value =>
        decide (verdict special literal starred caseSensitive value = .ok true)).length).symm⟩
    refine ⟨fun queryKey query => ?_, h.within⟩
    rw [← h.enough, hfilter]
    simp only [searchForObj, expectation, hcount]

end

/-! ## Patterns that are modelled -/

section

variable {special : Special} {literal : Text} {starred caseSensitive : Bool} {max : Option Int}
  {values : List Text} {start text : Text}

/-- The query value is readable if the literal is. -/
theorem readable_queryValue (h : literal.all readable = true) :
    (queryValue literal starred).all readable = true := by
  unfold queryValue
  cases starred with
  | true =>
    rw [if_pos rfl, List.all_append, h]
    rfl
  | false => exact h

/-- No flag begins in a readable text. -/
theorem not_isPrefixOf_of_readable {c : Char} (hc : readable c = false) (hmem : c ∈ start)
    (h : text.all readable = true) : start.isPrefixOf text = false := by
  refine Bool.eq_false_iff.mpr fun hprefix => ?_
  have htext := (List.isPrefixOf_iff_prefix.mp hprefix).mem hmem
  rw [List.all_eq_true.mp h c htext] at hc
  exact nomatch hc

theorem withoutFlag_searchPattern (h : literal.all readable = true) :
    withoutFlag (searchPattern (queryValue literal starred) caseSensitive) =
      (!caseSensitive, if endsWithStar (queryValue literal starred) then
        '^' :: queryValue literal starred else queryValue literal starred) := by
  have hquery : (queryValue literal starred).all readable = true := readable_queryValue h
  have hflag := @not_isPrefixOf_of_readable caseFlag _ '(' (by decide) (by decide) hquery
  have hanchored := @not_isPrefixOf_of_readable ('^' :: caseFlag) _ '(' (by decide) (by decide)
    hquery
  unfold searchPattern
  generalize queryValue literal starred = query at hflag hanchored
  have hpresent : caseFlag.isPrefixOf (caseFlag ++ query) = true :=
    List.isPrefixOf_iff_prefix.mpr (List.prefix_append _ _)
  have hhat : ∀ text : Text, caseFlag.isPrefixOf ('^' :: text) = false := fun _ => rfl
  have hbehind : ∀ text : Text,
      ('^' :: caseFlag).isPrefixOf ('^' :: text) = caseFlag.isPrefixOf text := fun _ => rfl
  unfold withoutFlag
  cases caseSensitive with
  | true =>
    cases endsWithStar query with
    | true => simp [hhat, hbehind, hflag]
    | false => simp [hflag, hanchored]
  | false =>
    cases endsWithStar query with
    | true => simp [hhat, hbehind, hpresent]
    | false => simp [hpresent]

/-- The verdict on a pattern that is modelled. -/
theorem verdict_of_readable (h : literal.all readable = true) (value : Text) :
    verdict special literal starred caseSensitive value =
      match queryItems literal starred with
      | none => .error .reError
      | some items => .ok (itemsFit (!caseSensitive) items true value) := by
  have hquery : (queryValue literal starred).all readable = true := readable_queryValue h
  unfold verdict reMatch queryItems
  rw [withoutFlag_searchPattern h]
  unfold matchBody
  cases endsWithStar (queryValue literal starred) with
  | true =>
    have hall : ('^' :: queryValue literal starred).all readable = true := by
      rw [List.all_cons, hquery]
      rfl
    exact if_pos hall
  | false => exact if_pos hquery

theorem counted_of_readable (h : literal.all readable = true) (value : Text) :
    counted special literal starred caseSensitive value =
      itemsFitValue literal starred caseSensitive value := by
  unfold counted itemsFitValue
  rw [verdict_of_readable h]
  cases queryItems literal starred <;> rfl

/-- If only objects that are meant are counted, the limits agree where all of them or as many as the
maximum are. -/
theorem limited_eq_atMost_iff {fitting wanted : Nat} (hle : fitting ≤ wanted) :
    limited max fitting = atMost max wanted ↔
      (fitting = wanted ∨ ∃ m, max = some m ∧ m ≤ fitting) ∧
        ∀ m, max = some m → 0 < m ∨ (fitting : Int) ≤ m := by
  cases max with
  | none => simp [limited, atMost]
  | some m =>
    simp only [limited, atMost, Option.some.injEq, exists_eq_left', forall_eq']
    split
    · omega
    · omega

/-- Every search with this literal has an answer unless a sign has nothing to repeat. -/
theorem answered_iff (h : literal.all readable = true) :
    (∀ value ∈ values, ∃ found,
        verdict special literal starred caseSensitive value = .ok found) ↔
      (values ≠ [] → queryItems literal starred ≠ none) := by
  simp only [verdict_of_readable h]
  cases queryItems literal starred with
  | none =>
    cases values with
    | nil => exact iff_of_true nofun fun h => absurd rfl h
    | cons value rest =>
      refine iff_of_false (fun h => ?_) fun h => h nofun rfl
      obtain ⟨found, hfound⟩ := h value (.head _)
      exact nomatch hfound
  | some items => exact iff_of_true (fun _ _ => ⟨_, rfl⟩) fun _ => nofun

section

variable (hwithin : ∀ value ∈ values, itemsFitValue literal starred caseSensitive value = true →
  meant literal starred caseSensitive value = true)

include hwithin

theorem fitting_le_meantCount :
    (values.filter (itemsFitValue literal starred caseSensitive)).length ≤
    meantCount literal starred caseSensitive values := by
  rw [meantCount, ← List.countP_eq_length_filter, ← List.countP_eq_length_filter]
  exact List.countP_mono_left hwithin

/-- If nothing else fits, all that are meant are counted exactly if each of them fits. -/
theorem fitting_eq_meantCount_iff :
    (values.filter (itemsFitValue literal starred caseSensitive)).length =
      meantCount literal starred caseSensitive values ↔
      ∀ value ∈ values, meant literal starred caseSensitive value = true →
        itemsFitValue literal starred caseSensitive value = true := by
  have hsame : values.countP (itemsFitValue literal starred caseSensitive) =
      (values.filter (meant literal starred caseSensitive)).countP
        (itemsFitValue literal starred caseSensitive) := by
    rw [List.countP_filter]
    refine List.countP_congr fun value hvalue => ?_
    rw [Bool.and_eq_true]
    exact (and_iff_left_of_imp (hwithin value hvalue)).symm
  rw [← List.countP_eq_length_filter, hsame, meantCount, List.countP_eq_length]
  simp only [List.mem_filter, and_imp]

end

/-- What is asked, for a literal of characters that are modelled. -/
theorem readAsMeant_iff_itemsFit (h : literal.all readable = true) :
    ReadAsMeant special literal starred caseSensitive max values ↔
      OnlyMeantItemsFit literal starred caseSensitive max values := by
  have hcount : (values.filter (counted special literal starred caseSensitive)).length =
      (values.filter (itemsFitValue literal starred caseSensitive)).length := by
    rw [List.filter_congr fun value _ => counted_of_readable h value]
  constructor
  · intro hread
    have hwithin := hread.within
    simp only [counted_of_readable h] at hwithin
    have henough := hread.enough
    rw [hcount, limited_eq_atMost_iff (fitting_le_meantCount hwithin),
      fitting_eq_meantCount_iff hwithin] at henough
    exact ⟨(answered_iff h).mp hread.answered, hwithin, henough.1, henough.2⟩
  · intro honly
    refine ⟨(answered_iff h).mpr honly.repeats, ?_, ?_⟩
    · simp only [counted_of_readable h]
      exact honly.fitting
    · rw [hcount, limited_eq_atMost_iff (fitting_le_meantCount honly.fitting),
        fitting_eq_meantCount_iff honly.fitting]
      exact ⟨honly.missed, honly.limit⟩

end

/-! ## Literals without special characters -/

section

variable {special : Special} {literal : Text} {starred caseSensitive : Bool} {max : Option Int}
  {values : List Text} {start text : Text}

theorem readable_of_plain (h : literal.all plain = true) : literal.all readable = true :=
  List.all_eq_true.mpr fun c hc =>
    (Bool.and_eq_true_iff.mp (List.all_eq_true.mp h c hc)).1

/-- The items of characters that stand for themselves. -/
def single (text : Text) : List Item := text.map fun c => .char c .once

theorem itemsFrom_append {before : List Item} {rest : Text} (h : text.all plain = true) :
    itemsFrom before (text ++ rest) = itemsFrom ((single text).reverse ++ before) rest := by
  induction text generalizing before with
  | nil => rfl
  | cons c text ih =>
    rw [List.all_cons, Bool.and_eq_true] at h
    have hc : ∀ d ∈ "^$*+?".toList, c ≠ d := by
      intro d hd heq
      have hplain := (Bool.and_eq_true_iff.mp h.1).2
      rw [heq] at hplain
      exact absurd hd (of_decide_eq_true hplain)
    have hrepeat : c ∉ ['*', '+', '?'] := by simp [hc]
    have hitem : itemOf c = .char c .once := by
      rw [itemOf, if_neg (hc '^' (by decide)), if_neg (hc '$' (by decide))]
    have hsingle : single (c :: text) = .char c .once :: single text := rfl
    rw [List.cons_append, itemsFrom, if_neg hrepeat, hitem, ih h.2, hsingle, List.reverse_cons,
      List.append_assoc]
    rfl

/-- Single characters fit as they stand, if what follows always fits. -/
theorem itemsFit_single {ignoreCase : Bool} {items : List Item}
    (hitems : ∀ atStart text, itemsFit ignoreCase items atStart text = true) (atStart : Bool) :
    itemsFit ignoreCase (single text ++ items) atStart start = fits ignoreCase text start := by
  induction text generalizing atStart start with
  | nil => exact hitems atStart start
  | cons p text ih =>
    cases start with
    | nil => rfl
    | cons c rest =>
      change (standsFor ignoreCase p c && itemsFit ignoreCase (single text ++ items) false rest) = _
      rw [ih]
      rfl

/-- What the items of such a query value fit, whether it is anchored or not. -/
theorem queryItems_of_plain (h : literal.all plain = true)
    (hrepeats : starred = true → literal ≠ []) :
    ∃ items, queryItems literal starred = some items ∧ ∀ value,
      itemsFit (!caseSensitive) items true value =
        fits (!caseSensitive) (if starred then literal.dropLast else literal) value := by
  have hbefore : ∀ before : List Item, before = [] ∨ before = [.start] →
      ∃ items, itemsFrom before (queryValue literal starred) = some items ∧ ∀ value,
        itemsFit (!caseSensitive) items true value =
          fits (!caseSensitive) (if starred then literal.dropLast else literal) value := by
    intro before hcases
    have hstart : ∀ items value, itemsFit (!caseSensitive) (before.reverse ++ items) true value =
        itemsFit (!caseSensitive) items true value := by
      rcases hcases with rfl | rfl
      · exact fun _ _ => rfl
      · exact fun _ _ => rfl
    cases starred with
    | false =>
      refine ⟨before.reverse ++ (single literal ++ []), ?_, fun value => ?_⟩
      · have hitems := @itemsFrom_append literal before [] h
        rw [List.append_nil] at hitems
        rw [queryValue, if_neg nofun, hitems, itemsFrom]
        simp
      · rw [hstart, itemsFit_single fun _ _ => rfl]
        rfl
    | true =>
      obtain ⟨others, last, rfl⟩ := (List.eq_nil_or_concat literal).resolve_left (hrepeats rfl)
      refine ⟨before.reverse ++ (single others ++ [.char last (.repeated true true false)]), ?_,
        fun value => ?_⟩
      · rw [queryValue, if_pos rfl, itemsFrom_append h]
        simp [single, itemsFrom, repeatLast]
      · rw [hstart, itemsFit_single fun _ _ => rfl]
        simp
  unfold queryItems
  split
  · exact hbefore _ (.inr rfl)
  · exact hbefore _ (.inl rfl)

/-- A star with nothing to repeat. -/
theorem queryItems_nil_star : queryItems [] true = none := rfl

theorem standsFor_of_same {p c : Char} {ignoreCase : Bool}
    (h : (if ignoreCase then p.toLower else p) = if ignoreCase then c.toLower else c) :
    standsFor ignoreCase p c = true := by
  unfold standsFor
  by_cases hdot : p = '.'
  · rw [if_pos hdot]
    refine decide_eq_true ?_
    rintro rfl
    subst hdot
    cases ignoreCase <;> exact absurd h (by decide)
  · rw [if_neg hdot]
    cases ignoreCase with
    | true => exact decide_eq_true h
    | false => exact decide_eq_true h

/-- A text that begins with the literal, under the case rule, fits it. -/
theorem fits_of_isPrefix {pattern : Text}
    (h : folded caseSensitive pattern <+: folded caseSensitive text) :
    fits (!caseSensitive) pattern text = true := by
  induction pattern generalizing text with
  | nil => rfl
  | cons p pattern ih =>
    cases text with
    | nil =>
      have hnil := h.length_le
      cases caseSensitive <;> simp [folded, Text.lower] at hnil
    | cons c text =>
      have hboth : ((if !caseSensitive then p.toLower else p) =
          if !caseSensitive then c.toLower else c) ∧
          folded caseSensitive pattern <+: folded caseSensitive text := by
        cases caseSensitive with
        | true => exact List.cons_prefix_cons.mp h
        | false => exact List.cons_prefix_cons.mp h
      change (standsFor (!caseSensitive) p c && fits (!caseSensitive) pattern text) = true
      rw [standsFor_of_same hboth.1, ih hboth.2]
      rfl

/-- The values that the search is for are counted. -/
theorem fits_of_meant {value : Text} (h : meant literal starred caseSensitive value = true) :
    fits (!caseSensitive) (if starred then literal.dropLast else literal) value = true := by
  refine fits_of_isPrefix ?_
  cases starred with
  | true =>
    have hprefix : folded caseSensitive literal.dropLast <+: folded caseSensitive literal := by
      cases caseSensitive with
      | true => exact List.dropLast_prefix literal
      | false => exact (List.dropLast_prefix literal).map Char.toLower
    exact hprefix.trans (List.isPrefixOf_iff_prefix.mp h)
  | false =>
    have heq : folded caseSensitive literal = folded caseSensitive value := of_decide_eq_true h
    exact (congrArg (folded caseSensitive literal <+: ·) heq).mp (List.prefix_refl _)

/-- What is asked, for a literal without special characters. -/
theorem onlyMeantItemsFit_iff (h : literal.all plain = true) :
    OnlyMeantItemsFit literal starred caseSensitive max values ↔
      OnlyMeantFit literal starred caseSensitive max values := by
  by_cases hrepeats : starred = true → literal ≠ []
  · obtain ⟨items, hitems, hfit⟩ := @queryItems_of_plain _ starred caseSensitive h hrepeats
    have hvalue : ∀ value, itemsFitValue literal starred caseSensitive value =
        fits (!caseSensitive) (if starred then literal.dropLast else literal) value := by
      intro value
      rw [itemsFitValue, hitems]
      exact hfit value
    have hmeant : ∀ value ∈ values, meant literal starred caseSensitive value = true →
        itemsFitValue literal starred caseSensitive value = true := fun value _ hmeant => by
      rw [hvalue, fits_of_meant hmeant]
    constructor
    · intro honly
      refine ⟨fun value hmem hfits => honly.fitting value hmem ((hvalue value).trans hfits),
        fun hstar hnil => absurd hnil (hrepeats hstar), ?_⟩
      rw [← (fitting_eq_meantCount_iff honly.fitting).mpr hmeant]
      exact honly.limit
    · intro honly
      have hwithin : ∀ value ∈ values, itemsFitValue literal starred caseSensitive value = true →
          meant literal starred caseSensitive value = true := fun value hmem hfits =>
        honly.fitting value hmem ((hvalue value).symm.trans hfits)
      refine ⟨fun _ => hitems ▸ nofun, hwithin, .inl hmeant, ?_⟩
      rw [(fitting_eq_meantCount_iff hwithin).mpr hmeant]
      exact honly.limit
  · obtain ⟨rfl, hnot⟩ := Classical.not_imp.mp hrepeats
    obtain rfl := not_not.mp hnot
    constructor
    · intro honly
      have hnone : values = [] := by
        by_contra hsome
        exact honly.repeats hsome queryItems_nil_star
      subst hnone
      exact ⟨nofun, fun _ _ => rfl, honly.limit⟩
    · intro honly
      obtain rfl := honly.repeats rfl rfl
      exact ⟨nofun, nofun, .inl nofun, honly.limit⟩

/-- Where there are no objects the pattern is not looked at. -/
theorem expects_nil_iff : Expects special literal starred caseSensitive max [] ↔
    ∀ m, max = some m → 0 ≤ m := by
  rw [expects_iff_readAsMeant]
  have hlimit : limited max 0 = atMost max 0 ↔ ∀ m, max = some m → 0 ≤ m := by
    rw [limited_eq_atMost_iff (Nat.le_refl 0)]
    constructor
    · intro h m hm
      rcases h.2 m hm with hpos | hle
      · omega
      · exact hle
    · intro h
      exact ⟨.inl rfl, fun m hm => .inr (h m hm)⟩
  exact ⟨fun h => hlimit.mp h.enough, fun h => ⟨nofun, nofun, hlimit.mpr h⟩⟩

end

end OvirtArt.Utils.SearchForObj
