import OvirtArt.CoreApi.PyLiteral
import OvirtArt.Foundation.Pieces
import Mathlib.Data.List.Perm.Subperm

set_option autoImplicit false

/-!
# What the reader of literals can gain

Characters have weights, and a text has a cost, which is counted while it is gone through.  An
escape costs at least what it stands for, so that what is read weighs at most what the text costs.

The weight bounds what a run of the reader can hand on.  It is used where an argument is read back
that was not written by `repr`: such a text cannot say as much as the one that was.
-/

namespace OvirtArt.CoreApi.PyLiteral

/-- Blanks weigh nothing, since they may stand between the parts of a dictionary. -/
def charWeight (c : Char) : Nat :=
  if c = ' ' then 0
  else if printable c && decide (c ≠ '\\') && decide (c ≠ '\'') && decide (c ≠ '"') then 1
  else 4

/-- What all characters of a text weigh. -/
def textWeight (text : Text) : Nat := Foundation.weight charWeight text

/-- The character begins an escape behind a backslash. -/
def beginsEscape (c : Char) : Bool := decide (c = 'x') || isOctal c || (simpleEscape c).isSome

/-- Where the count is: at a character, behind a backslash, or at a hexadecimal digit. -/
inductive Phase where
  | text
  | escape
  | high
  | low
  deriving DecidableEq, Repr

/-- The phase after a character. -/
def Phase.next : Phase → Char → Phase
  | .text, c => if c = '\\' then .escape else .text
  | .escape, c => if c = 'x' then .high else .text
  | .high, _ => .low
  | .low, _ => .text

/-- What a character costs: an escape is paid for with its backslash. -/
def Phase.price : Phase → Char → Nat
  | .text, c => charWeight c
  | .escape, c => if beginsEscape c then 0 else charWeight c
  | _, _ => 0

/-- What the characters of a text add to the weight, from a phase on. -/
def cost : Phase → Text → Nat
  | _, [] => 0
  | phase, c :: rest => phase.price c + cost (phase.next c) rest

/-- A string between the quotes that `repr` puts around it. -/
def rawStr (text : Text) : Text := quoteFor text :: (text ++ [quoteFor text])

/-- An item with the colon and the comma. -/
def itemWeight (item : Text × Literal) : Nat :=
  textWeight (rawStr item.1) + textWeight (writeLiteral rawStr item.2) + 2

/-- What the items of a dictionary weigh. -/
def itemsWeight (items : List (Text × Literal)) : Nat := (items.map itemWeight).sum

section

variable {text rest plain piece : Text} {c quote : Char} {used skip : Nat} {phase : Phase}

theorem charWeight_le (c : Char) : charWeight c ≤ 4 := by
  unfold charWeight
  split
  · exact Nat.zero_le _
  · split
    · decide
    · exact le_rfl

theorem charWeight_printable (hc : printable c = true) (hescape : c ≠ '\\') (hquote : c ≠ '\'')
    (hmark : c ≠ '"') : charWeight c ≤ 1 := by
  unfold charWeight
  split
  · exact Nat.zero_le _
  · rw [hc, decide_eq_true hescape, decide_eq_true hquote, decide_eq_true hmark]
    rfl

theorem charWeight_not_printable (hc : printable c = false) : charWeight c = 4 := by
  have hblank : c ≠ ' ' := by
    rintro rfl
    exact absurd hc (by decide)
  rw [charWeight, if_neg hblank, hc]
  rfl

theorem charWeight_quoteFor (text : Text) : charWeight (quoteFor text) = 4 := by
  unfold quoteFor
  split <;> decide

theorem price_le (phase : Phase) (c : Char) : phase.price c ≤ charWeight c := by
  cases phase with
  | text => exact le_rfl
  | escape =>
    rw [Phase.price]
    split
    · exact Nat.zero_le _
    · exact le_rfl
  | high => exact Nat.zero_le _
  | low => exact Nat.zero_le _

theorem textWeight_cons (c : Char) (text : Text) :
    textWeight (c :: text) = charWeight c + textWeight text := Foundation.weight_cons _ _ _

theorem textWeight_append (text more : Text) :
    textWeight (text ++ more) = textWeight text + textWeight more := Foundation.weight_append _ _ _

theorem cost_cons (phase : Phase) (c : Char) (rest : Text) :
    cost phase (c :: rest) = phase.price c + cost (phase.next c) rest := by
  rw [cost]

theorem cost_text_cons (hescape : c ≠ '\\') :
    cost .text (c :: rest) = charWeight c + cost .text rest := by
  rw [cost_cons, Phase.price, Phase.next, if_neg hescape]

theorem cost_text_escape : cost .text ('\\' :: rest) = 4 + cost .escape rest := by
  rfl

theorem cost_escape_cons (hx : c ≠ 'x') :
    cost .escape (c :: rest) = (if beginsEscape c then 0 else charWeight c) + cost .text rest := by
  rw [cost_cons, Phase.price, Phase.next, if_neg hx]

/-- Without a backslash, the cost is the weight. -/
theorem cost_text_append (hplain : '\\' ∉ plain) :
    cost .text (plain ++ rest) = textWeight plain + cost .text rest := by
  induction plain with
  | nil => exact (Nat.zero_add _).symm
  | cons c plain ih =>
    rw [List.mem_cons, not_or] at hplain
    rw [List.cons_append, cost_text_cons (Ne.symm hplain.1), ih hplain.2, textWeight_cons,
      Nat.add_assoc]

theorem cost_dropWhile_blank (text : Text) :
    cost .text (text.dropWhile (· == ' ')) = cost .text text := by
  induction text with
  | nil => rfl
  | cons c rest ih =>
    by_cases hblank : c = ' '
    · subst hblank
      rw [List.dropWhile_cons_of_pos rfl, ih]
      exact (Nat.zero_add _).symm
    · have hkeep : (c == ' ') = false := beq_eq_false_iff_ne.mpr hblank
      rw [List.dropWhile_cons, hkeep]
      rfl

/-! ## Strings -/

/-- An octal escape. -/
theorem cost_octal {digits : Text} (h : digits <+: c :: rest) (hc : isOctal c = true)
    (hdigits : ∀ d ∈ digits, isOctal d = true) (hne : digits ≠ []) :
    cost .text ((c :: rest).drop digits.length) ≤ cost .escape (c :: rest) := by
  have hx : c ≠ 'x' := by
    rintro rfl
    exact absurd hc (by decide)
  obtain ⟨tail, htail⟩ := h
  obtain ⟨d, more, rfl⟩ := List.exists_cons_of_ne_nil hne
  rw [List.cons_append, List.cons.injEq] at htail
  have hplain : '\\' ∉ more := fun hmem =>
    absurd (hdigits _ (List.mem_cons_of_mem _ hmem)) (by decide)
  rw [cost_escape_cons hx, ← htail.2, List.length_cons, List.drop_succ_cons, List.drop_left,
    cost_text_append hplain]
  exact (Nat.le_add_left _ _).trans (Nat.le_add_left _ _)

/-- A hexadecimal escape takes two more characters. -/
theorem readEscape_hex (h : readEscape ('x' :: rest) = some (piece, used)) :
    ∃ a b more d, rest = a :: b :: more ∧ piece = [d] ∧ used = 3 := by
  cases rest with
  | nil => cases h
  | cons a rest =>
    cases rest with
    | nil => cases h
    | cons b more =>
      rw [readEscape, if_neg (by decide), if_pos rfl] at h
      split at h
      · next high low hhigh hlow =>
          cases h
          exact ⟨a, b, more, _, rfl, rfl, rfl⟩
      · cases h

theorem readEscape_other (hx : c ≠ 'x') : readEscape (c :: rest) =
    if c = '\n' then some ([], 1)
    else if isOctal c then
      some ([Char.ofNat (Nat.ofDigitChars 8 (((c :: rest).take 3).takeWhile isOctal) 0 % 256)],
        (((c :: rest).take 3).takeWhile isOctal).length)
    else ((simpleEscape c).map fun d => ([d], 1)).getD (['\\', c], 1) := by
  simp only [readEscape, if_neg hx]
  cases simpleEscape c <;> rfl

/-- An escape costs what it stands for. -/
theorem readEscape_weight (h : readEscape text = some (piece, used)) :
    textWeight piece + cost .text (text.drop used) ≤ 4 + cost .escape text := by
  have hone : ∀ c : Char, textWeight [c] ≤ 4 := charWeight_le
  cases text with
  | nil => exact nomatch h
  | cons e rest =>
    by_cases hx : e = 'x'
    · subst hx
      obtain ⟨a, b, more, d, rfl, rfl, rfl⟩ := readEscape_hex h
      have hcost : cost .escape ('x' :: a :: b :: more) = cost .text more := by
        exact (Nat.zero_add _).trans ((Nat.zero_add _).trans (Nat.zero_add _))
      rw [hcost]
      exact Nat.add_le_add (hone d) le_rfl
    · rw [readEscape_other hx] at h
      split at h
      · next hline =>
          cases h
          rw [hline, List.drop_one, List.tail_cons]
          exact Nat.add_le_add (Nat.zero_le 4) (Nat.le_add_left _ _)
      · split at h
        · next hoctal =>
            cases h
            refine Nat.add_le_add (hone _) (cost_octal ?_ hoctal ?_ ?_)
            · exact (List.takeWhile_prefix _).trans (List.take_prefix _ _)
            · exact fun d hd => List.mem_takeWhile_imp hd
            · rw [List.take_succ_cons, List.takeWhile_cons_of_pos hoctal]
              exact List.cons_ne_nil _ _
        · next hoctal =>
            rw [cost_escape_cons hx]
            cases hsimple : simpleEscape e with
            | some d =>
              rw [hsimple] at h
              cases h
              rw [beginsEscape, hsimple, Option.isSome_some, Bool.or_true, if_pos rfl,
                Nat.zero_add]
              exact Nat.add_le_add (hone d) le_rfl
            | none =>
              rw [hsimple] at h
              cases h
              have hbegins : beginsEscape e = false := by
                rw [beginsEscape, hsimple, decide_eq_false hx, Bool.eq_false_iff.mpr hoctal]
                rfl
              rw [hbegins, textWeight_cons]
              exact (Nat.add_assoc 4 _ _).le

/-- What is read of a string, with its end, weighs at most what the text costs. -/
theorem readBody_weight {read : Text × Text} (hweight : charWeight quote = 4)
    (hescape : quote ≠ '\\') (h : readBody quote skip text = some read) :
    textWeight read.1 + 4 + cost .text read.2 ≤ cost .text (text.drop skip) := by
  induction text generalizing skip read with
  | nil => cases skip <;> cases h
  | cons c rest ih =>
    cases skip with
    | succ skip => exact ih h
    | zero =>
      rw [readBody] at h
      rw [List.drop_zero]
      split at h
      · next hquote =>
          cases h
          rw [hquote, cost_text_cons hescape, hweight]
          exact (Nat.add_assoc 0 4 _).trans (Nat.zero_add _) |>.le
      · split at h
        · next hc =>
            split at h
            · cases h
            · next piece used hread =>
                obtain ⟨later, hlater, rfl⟩ := Option.map_eq_some_iff.mp h
                have hrest := ih hlater
                have hpiece := readEscape_weight hread
                rw [hc, cost_text_escape]
                simp only [textWeight_append]
                omega
        · next hc =>
            split at h
            · cases h
            · obtain ⟨later, hlater, rfl⟩ := Option.map_eq_some_iff.mp h
              have hrest := ih hlater
              rw [List.drop_zero] at hrest
              rw [cost_text_cons hc]
              simp only [textWeight_cons]
              omega

theorem textWeight_rawStr (text : Text) : textWeight (rawStr text) = textWeight text + 8 := by
  rw [rawStr, textWeight_cons, textWeight_append, textWeight_cons, charWeight_quoteFor]
  exact (Nat.add_comm 4 _).trans (Nat.add_assoc _ 4 4)

theorem readStr_weight {read : Text × Text} (h : readStr text = some read) :
    textWeight (rawStr read.1) + cost .text read.2 ≤ cost .text text := by
  have hbody : ∀ quote rest, charWeight quote = 4 → quote ≠ '\\' →
      readBody quote 0 rest = some read →
        textWeight (rawStr read.1) + cost .text read.2 ≤ cost .text (quote :: rest) := by
    intro quote rest hweight hescape hread
    have hrest := readBody_weight hweight hescape hread
    rw [List.drop_zero] at hrest
    rw [textWeight_rawStr, cost_text_cons hescape, hweight]
    omega
  cases text with
  | nil => cases h
  | cons c rest =>
    rw [readStr] at h
    split at h
    · next hquote =>
        rcases hquote with rfl | rfl
        · exact hbody _ _ (by decide) (by decide) h
        · exact hbody _ _ (by decide) (by decide) h
    · cases h

/-! ## Dictionaries -/

/-- A number that is read is written as it was. -/
theorem writeLiteral_of_readNumber {value : Literal} (string : Text → Text)
    (h : readNumber text = some value) : writeLiteral string value = text := by
  have hint : ∀ {digits : Text} {n : Int}, readInt digits = some n → reprInt n = digits := by
    intro digits n hread
    obtain ⟨hsame, hnumber⟩ := Option.ite_none_right_eq_some.mp hread
    rw [← Option.some.inj hnumber]
    exact hsame
  unfold readNumber at h
  split at h
  · next hlast =>
      obtain ⟨n, hn, rfl⟩ := Option.map_eq_some_iff.mp h
      rw [writeLiteral, hint hn]
      exact List.dropLast_append_getLast? _ hlast
  · split at h
    · next n hn =>
        cases h
        exact hint hn
    · split at h
      · cases h
        rfl
      · cases h

theorem readLiteral_weight {read : Literal × Text} (h : readLiteral text = some read) :
    textWeight (writeLiteral rawStr read.1) + cost .text read.2 ≤ cost .text text := by
  unfold readLiteral at h
  split at h
  · next string rest hread =>
      cases h
      exact readStr_weight hread
  · obtain ⟨number, hnumber, rfl⟩ := Option.map_eq_some_iff.mp h
    have hplain : '\\' ∉ text.takeWhile numberChar := fun hmem =>
      absurd (List.mem_takeWhile_imp hmem) (by decide)
    have hcost := @cost_text_append (text.dropWhile numberChar) _ hplain
    rw [List.takeWhile_append_dropWhile] at hcost
    rw [writeLiteral_of_readNumber rawStr hnumber, hcost]

/-- The rest behind a colon or a comma. -/
theorem cost_behind (hhead : text.head? = some c) (hescape : c ≠ '\\') :
    cost .text ((text.drop 1).dropWhile (· == ' ')) + charWeight c = cost .text text := by
  cases text with
  | nil => exact nomatch hhead
  | cons d rest =>
    obtain rfl := Option.some.inj hhead
    rw [List.drop_one, List.tail_cons, cost_dropWhile_blank, cost_text_cons hescape,
      Nat.add_comm]

theorem itemsWeight_cons (item : Text × Literal) (items : List (Text × Literal)) :
    itemsWeight (item :: items) = itemWeight item + itemsWeight items := by
  rw [itemsWeight, List.map_cons, List.sum_cons, itemsWeight]

variable {items : List (Text × Literal)}

theorem readItems_weight {fuel : Nat} (h : readItems fuel text = some items) :
    itemsWeight items ≤ cost .text text := by
  induction fuel generalizing text items with
  | zero => cases h
  | succ fuel ih =>
    obtain ⟨key, behindKey, value, behindValue, hkey, hcolon, hvalue, hrest⟩ :=
      readItems_cases h
    have hkeyWeight := readStr_weight hkey
    have hcolonCost := cost_behind hcolon (by decide)
    have hcolonWeight : charWeight ':' = 1 := rfl
    have hvalueWeight := readLiteral_weight hvalue
    rcases hrest with ⟨hend, rfl⟩ | ⟨hcomma, others, hothers, rfl⟩
    · have hendCost : cost .text behindValue = 1 := by
        rw [hend]
        rfl
      have hnone : itemsWeight [] = 0 := rfl
      simp only [itemsWeight_cons, itemWeight, hnone] at hkeyWeight hvalueWeight ⊢
      omega
    · have hcommaCost := cost_behind hcomma (by decide)
      have hcommaWeight : charWeight ',' = 1 := rfl
      have hothersWeight := ih hothers
      simp only [itemsWeight_cons, itemWeight] at hkeyWeight hvalueWeight ⊢
      omega

/-- A dictionary that is read weighs at most what its text costs. -/
theorem readDict_weight (h : readDict text = some items) :
    1 + itemsWeight items ≤ cost .text text := by
  unfold readDict at h
  split at h
  · next hempty =>
      cases h
      rw [hempty]
      decide
  · split at h
    · next hbrace =>
        cases text with
        | nil => exact nomatch hbrace
        | cons c rest =>
          obtain rfl := Option.some.inj hbrace
          rw [cost_text_cons (by decide)]
          exact Nat.add_le_add_left (readItems_weight h) 1
    · exact nomatch h

/-- A dictionary with its braces weighs as much as its items. -/
theorem textWeight_writeDict (hne : items ≠ []) :
    textWeight (writeDict rawStr items) = 1 + itemsWeight items := by
  have hblank : charWeight ' ' = 0 := rfl
  have hcolon : charWeight ':' = 1 := rfl
  have hcomma : charWeight ',' = 1 := rfl
  have hend : textWeight ['}'] = 1 := rfl
  rw [writeDict, textWeight_cons]
  refine congrArg (1 + ·) ?_
  induction items with
  | nil => exact absurd rfl hne
  | cons item rest ih =>
    cases rest with
    | nil =>
      rw [writeItems, textWeight_append, textWeight_cons, textWeight_cons, textWeight_append,
        itemsWeight_cons, itemWeight, hend]
      simp only [itemsWeight, List.map_nil, List.sum_nil]
      omega
    | cons next rest =>
      have hmore := List.cons_ne_nil next rest
      rw [writeItems_cons _ item hmore, textWeight_append, textWeight_cons, textWeight_cons,
        textWeight_append, textWeight_cons, textWeight_cons, ih hmore, itemsWeight_cons item,
        itemWeight]
      omega

/-- A part of the items weighs no more. -/
theorem itemsWeight_le_of_subperm {others : List (Text × Literal)} (h : items.Subperm others) :
    itemsWeight items ≤ itemsWeight others := by
  obtain ⟨between, hperm, hsub⟩ := h
  have hsame : itemsWeight between = itemsWeight items := (hperm.map itemWeight).sum_nat
  rw [← hsame]
  exact (hsub.map itemWeight).sum_le_sum fun _ _ => Nat.zero_le _

end

end OvirtArt.CoreApi.PyLiteral
