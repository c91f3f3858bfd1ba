import OvirtArt.CoreApi.PyText

set_option autoImplicit false

/-!
# Literals of Python 2

`repr` writes a dictionary of strings and numbers as a literal, and the interpreter reads it again.
A string is one of bytes.  Integers are read in the form in which they are written, and a float is
the text that `repr` writes for it.

Both directions are executable.  Lists, tuples and objects are left out, as no caller writes any;
a text that the reader does not know as one of these literals has no value.
-/

namespace OvirtArt.CoreApi.PyLiteral

/-- A string or a number. -/
inductive Literal where
  | str (text : Text)
  | int (n : Int)
  | long (n : Int)
  | float (text : Text)
  deriving DecidableEq, Repr

/-! ## Writing -/

/-- The quote around a string: the quotation mark if only the apostrophe is in it. -/
def quoteFor (text : Text) : Char :=
  if '\'' ∈ text ∧ '"' ∉ text then '"' else '\''

/-- The two hexadecimal digits of a byte. -/
def hexByte (n : Nat) : Text := [Nat.digitChar (n / 16), Nat.digitChar (n % 16)]

/-- A character that is written as it is. -/
def printable (c : Char) : Bool := decide (32 ≤ c.toNat) && decide (c.toNat < 127)

/-- A character that is not written as it is. -/
def escapedChar (c : Char) : Text :=
  if c = '\t' then ['t']
  else if c = '\n' then ['n']
  else if c = '\r' then ['r']
  else 'x' :: hexByte c.toNat

/-- A character of a string. -/
def reprChar (quote c : Char) : Text :=
  if c = quote ∨ c = '\\' then ['\\', c]
  else if printable c then [c]
  else '\\' :: escapedChar c

/-- `repr` of a string. -/
def reprString (text : Text) : Text :=
  quoteFor text :: (text.flatMap (reprChar (quoteFor text)) ++ [quoteFor text])

/-- `repr` of an integer. -/
def reprInt (n : Int) : Text :=
  if n < 0 then '-' :: Nat.toDigits 10 n.natAbs else Nat.toDigits 10 n.natAbs

section

variable (string : Text → Text)

/-- A value, with the way in which strings are written. -/
def writeLiteral : Literal → Text
  | .str text => string text
  | .int n => reprInt n
  | .long n => reprInt n ++ ['L']
  | .float text => text

/-- The items of a dictionary behind its brace, in the order in which it is gone through. -/
def writeItems : List (Text × Literal) → Text
  | [] => ['}']
  | [item] => string item.1 ++ ':' :: ' ' :: (writeLiteral string item.2 ++ ['}'])
  | item :: rest =>
    string item.1 ++ ':' :: ' ' :: (writeLiteral string item.2 ++ ',' :: ' ' :: writeItems rest)

theorem writeItems_cons {rest : List (Text × Literal)} (item : Text × Literal) (hne : rest ≠ []) :
    writeItems string (item :: rest) = string item.1 ++ ':' :: ' ' ::
      (writeLiteral string item.2 ++ ',' :: ' ' :: writeItems string rest) := by
  cases rest with
  | nil => exact absurd rfl hne
  | cons next rest => rfl

/-- A dictionary. -/
def writeDict (items : List (Text × Literal)) : Text := '{' :: writeItems string items

end

/-- `repr` of a dictionary. -/
def reprDict (items : List (Text × Literal)) : Text := writeDict reprString items

/-! ## Reading -/

/-- The value of a hexadecimal digit. -/
def hexValue (c : Char) : Option Nat :=
  if c.isDigit then some (c.toNat - 48)
  else if 'a' ≤ c ∧ c ≤ 'f' then some (c.toNat - 87)
  else if 'A' ≤ c ∧ c ≤ 'F' then some (c.toNat - 55)
  else none

/-- The digits of an octal escape. -/
def isOctal (c : Char) : Bool := decide ('0' ≤ c) && decide (c ≤ '7')

/-- The escapes of one character. -/
def simpleEscape (e : Char) : Option Char :=
  match e with
  | '\\' => some '\\'
  | '\'' => some '\''
  | '"' => some '"'
  | 'a' => some '\x07'
  | 'b' => some '\x08'
  | 'f' => some '\x0c'
  | 'n' => some '\n'
  | 'r' => some '\r'
  | 't' => some '\t'
  | 'v' => some '\x0b'
  | _ => none

/-- What a backslash stands for with what follows it, and how many characters of that belong to it.
Before a character that is no escape it stands for itself. -/
def readEscape : Text → Option (Text × Nat)
  | [] => none
  | e :: rest =>
    if e = '\n' then some ([], 1)
    else if e = 'x' then
      match rest with
      | a :: b :: _ =>
        match hexValue a, hexValue b with
        | some high, some low => some ([Char.ofNat (16 * high + low)], 3)
        | _, _ => none
      | _ => none
    else if isOctal e then
      let digits := ((e :: rest).take 3).takeWhile isOctal
      some ([Char.ofNat (Nat.ofDigitChars 8 digits 0 % 256)], digits.length)
    else
      match simpleEscape e with
      | some c => some ([c], 1)
      | none => some (['\\', e], 1)

/-- The rest of a string behind its first quote, after `skip` more characters of an escape, and what
follows the string. -/
def readBody (quote : Char) : Nat → Text → Option (Text × Text)
  | _, [] => none
  | skip + 1, _ :: rest => readBody quote skip rest
  | 0, c :: rest =>
    if c = quote then some ([], rest)
    else if c = '\\' then
      match readEscape rest with
      | none => none
      | some (piece, used) =>
        (readBody quote used rest).map fun read => (piece ++ read.1, read.2)
    else if c = '\n' then none
    else (readBody quote 0 rest).map fun read => (c :: read.1, read.2)

/-- A string, which `repr` writes without a prefix and between single quotes. -/
def readStr : Text → Option (Text × Text)
  | [] => none
  | c :: rest => if c = '\'' ∨ c = '"' then readBody c 0 rest else none

/-- An integer, as it is written. -/
def readInt (text : Text) : Option Int :=
  let digits := if text.head? = some '-' then text.drop 1 else text
  let n : Int := (Nat.ofDigitChars 10 digits 0 : Int)
  let number := if text.head? = some '-' then -n else n
  if reprInt number = text then some number else none

/-- A character of a number. -/
def numberChar (c : Char) : Bool := c.isDigit || decide (c ∈ ".e+-L".toList)

/-- The text that `repr` writes for a finite float. -/
def isFloat (text : Text) : Bool :=
  text.all numberChar && (text.contains '.' || text.contains 'e') && !text.contains 'L'

/-- A number, up to the first character that is none of one. -/
def readNumber (text : Text) : Option Literal :=
  if text.getLast? = some 'L' then (readInt text.dropLast).map .long
  else
    match readInt text with
    | some n => some (.int n)
    | none => if isFloat text then some (.float text) else none

/-- Reads one literal, and returns what is left of the text. -/
def readLiteral (text : Text) : Option (Literal × Text) :=
  match readStr text with
  | some (string, rest) => some (.str string, rest)
  | none =>
    (readNumber (text.takeWhile numberChar)).map fun number =>
      (number, text.dropWhile numberChar)

/-- The items of a dictionary behind its brace, with fuel for so many. -/
def readItems : Nat → Text → Option (List (Text × Literal))
  | 0, _ => none
  | fuel + 1, text =>
    match readStr text with
    | none => none
    | some (key, rest) =>
      if rest.head? = some ':' then
        match readLiteral ((rest.drop 1).dropWhile (· == ' ')) with
        | none => none
        | some (value, rest) =>
          if rest = ['}'] then some [(key, value)]
          else if rest.head? = some ',' then
            (readItems fuel ((rest.drop 1).dropWhile (· == ' '))).map ((key, value) :: ·)
          else none
      else none

/-- The literal of a dictionary, evaluated. -/
def readDict (text : Text) : Option (List (Text × Literal)) :=
  if text = "{}".toList then some []
  else if text.head? = some '{' then readItems text.length (text.drop 1)
  else none

/-! ## What is written is read -/

section

variable {text rest piece : Text} {quote c : Char} {used : Nat}

theorem readBody_drop (skip : Nat) (text : Text) :
    readBody quote skip text = readBody quote 0 (text.drop skip) := by
  induction text generalizing skip with
  | nil =>
    cases skip <;> rfl
  | cons c rest ih =>
    cases skip with
    | zero => rfl
    | succ skip =>
      rw [List.drop_succ_cons, ← ih]
      rfl

theorem readBody_quote : readBody quote 0 (quote :: rest) = some ([], rest) := by
  rw [readBody, if_pos rfl]

theorem readBody_plain (hquote : c ≠ quote) (hescape : c ≠ '\\') (hline : c ≠ '\n') :
    readBody quote 0 (c :: rest) =
      (readBody quote 0 rest).map fun read => (c :: read.1, read.2) := by
  rw [readBody, if_neg hquote, if_neg hescape, if_neg hline]

theorem readBody_escape (hquote : '\\' ≠ quote) (h : readEscape text = some (piece, used)) :
    readBody quote 0 ('\\' :: text) =
      (readBody quote 0 (text.drop used)).map fun read => (piece ++ read.1, read.2) := by
  rw [readBody, if_neg hquote, if_pos rfl, h]
  simp only [readBody_drop used]

/-- The digits of a byte have their value. -/
theorem hexValue_digitChar : ∀ n < 16, hexValue (Nat.digitChar n) = some n := by
  decide

theorem toNat_lt_of_byte {n : Nat} (h : n < 256) : n / 16 < 16 ∧ n % 16 < 16 := by
  omega

/-- A byte that is escaped is read back. -/
theorem readEscape_escapedChar (hbyte : c.toNat < 256) (rest : Text) :
    readEscape (escapedChar c ++ rest) = some ([c], (escapedChar c).length) := by
  unfold escapedChar
  by_cases htab : c = '\t'
  · rw [htab]
    rfl
  · rw [if_neg htab]
    by_cases hline : c = '\n'
    · rw [hline]
      rfl
    · rw [if_neg hline]
      by_cases hreturn : c = '\r'
      · rw [hreturn]
        rfl
      · rw [if_neg hreturn]
        obtain ⟨hhigh, hlow⟩ := toNat_lt_of_byte hbyte
        have hvalue : 16 * (c.toNat / 16) + c.toNat % 16 = c.toNat := Nat.div_add_mod _ _
        simp only [hexByte, List.cons_append, List.nil_append, readEscape,
          hexValue_digitChar _ hhigh, hexValue_digitChar _ hlow, hvalue, Char.ofNat_toNat]
        rfl

/-! ## Numbers -/

theorem toDigits_head_ne_minus (n : Nat) : (Nat.toDigits 10 n).head? ≠ some '-' := by
  intro h
  have hdigit := Nat.isDigit_of_mem_toDigits (by decide) (by decide) (List.mem_of_head? h)
  exact absurd hdigit (by decide)

theorem readInt_reprInt (n : Int) : readInt (reprInt n) = some n := by
  unfold readInt reprInt
  by_cases hneg : n < 0
  · simp only [if_pos hneg, List.head?_cons, if_true, List.drop_one, List.tail_cons,
      Nat.ofDigitChars_ten_toDigits]
    have hvalue : -(n.natAbs : Int) = n := by omega
    rw [hvalue, if_pos (by rw [if_pos hneg])]
  · simp only [if_neg hneg, if_neg (toDigits_head_ne_minus n.natAbs),
      Nat.ofDigitChars_ten_toDigits]
    have hvalue : (n.natAbs : Int) = n := by omega
    rw [hvalue, if_pos (by rw [if_neg hneg])]

theorem mem_reprInt {n : Int} (h : c ∈ reprInt n) : c = '-' ∨ c.isDigit = true := by
  have hdigit : ∀ d ∈ Nat.toDigits 10 n.natAbs, d.isDigit = true := fun d hd =>
    Nat.isDigit_of_mem_toDigits (by decide) (by decide) hd
  unfold reprInt at h
  split at h
  · exact (List.mem_cons.mp h).imp_right (hdigit c)
  · exact .inr (hdigit c h)

theorem numberChar_of_digit (h : c = '-' ∨ c.isDigit = true) : numberChar c = true := by
  rcases h with rfl | hdigit
  · rfl
  · rw [numberChar, hdigit, Bool.true_or]

/-- Every value but a float that is infinite or not a number. -/
def Literal.finite : Literal → Bool
  | .float text => isFloat text
  | _ => true

/-- The text of a number. -/
def isNumber : Literal → Bool
  | .str _ => false
  | _ => true

variable {string : Text → Text} {value : Literal}

/-- A value is a string or a number. -/
theorem str_or_number (value : Literal) :
    (∃ text, value = .str text) ∨ isNumber value = true := by
  cases value with
  | str text => exact .inl ⟨text, rfl⟩
  | int n => exact .inr rfl
  | long n => exact .inr rfl
  | float text => exact .inr rfl

/-- A number is written alike however strings are. -/
theorem writeLiteral_number (hnumber : isNumber value = true) (other : Text → Text) :
    writeLiteral string value = writeLiteral other value := by
  cases value with
  | str text => exact nomatch hnumber
  | int n => rfl
  | long n => rfl
  | float text => rfl

theorem all_numberChar (hnumber : isNumber value = true) (hvalue : value.finite = true) :
    ∀ c ∈ writeLiteral string value, numberChar c = true := by
  intro c hc
  cases value with
  | str text => exact nomatch hnumber
  | int n => exact numberChar_of_digit (mem_reprInt hc)
  | long n =>
    rcases List.mem_append.mp hc with hc | hc
    · exact numberChar_of_digit (mem_reprInt hc)
    · rw [List.mem_singleton.mp hc]
      rfl
  | float text =>
    have hall := (Bool.and_eq_true_iff.mp (Bool.and_eq_true_iff.mp hvalue).1).1
    exact List.all_eq_true.mp hall c hc

/-- A float is not read as an integer. -/
theorem readInt_of_isFloat (h : isFloat text = true) : readInt text = none := by
  have hmark := (Bool.and_eq_true_iff.mp (Bool.and_eq_true_iff.mp h).1).2
  refine if_neg fun heq => ?_
  rw [← heq] at hmark
  rcases Bool.or_eq_true_iff.mp hmark with hdot | he
  · exact absurd (mem_reprInt (List.contains_iff_mem.mp hdot)) (by decide)
  · exact absurd (mem_reprInt (List.contains_iff_mem.mp he)) (by decide)

theorem readNumber_writeLiteral (hnumber : isNumber value = true)
    (hvalue : value.finite = true) :
    readNumber (writeLiteral string value) = some value := by
  cases value with
  | str text => exact nomatch hnumber
  | int n =>
    have hlast : (reprInt n).getLast? ≠ some 'L' := fun h =>
      absurd (mem_reprInt (List.mem_of_getLast? h)) (by decide)
    rw [writeLiteral, readNumber, if_neg hlast, readInt_reprInt]
  | long n =>
    rw [writeLiteral, readNumber, List.getLast?_concat, if_pos rfl, List.dropLast_concat,
      readInt_reprInt, Option.map_some]
  | float text =>
    have hlast : text.getLast? ≠ some 'L' := by
      intro h
      have hno := (Bool.and_eq_true_iff.mp hvalue).2
      rw [List.contains_iff_mem.mpr (List.mem_of_getLast? h)] at hno
      exact nomatch hno
    rw [writeLiteral, readNumber, if_neg hlast, readInt_of_isFloat hvalue]
    exact if_pos hvalue

theorem writeLiteral_ne_nil (hnumber : isNumber value = true) (hvalue : value.finite = true) :
    writeLiteral string value ≠ [] := by
  intro h
  have hread := @readNumber_writeLiteral string value hnumber hvalue
  rw [h] at hread
  exact nomatch hread

theorem readStr_of_not_quote (h : c ≠ '\'' ∧ c ≠ '"') : readStr (c :: rest) = none := by
  rw [readStr, if_neg fun hor => hor.elim h.1 h.2]

/-- A number is read up to the first character that is not one of a number. -/
theorem readLiteral_number (hnumber : isNumber value = true) (hvalue : value.finite = true)
    (hc : numberChar c = false) :
    readLiteral (writeLiteral string value ++ c :: rest) = some (value, c :: rest) := by
  have hall := @all_numberChar string value hnumber hvalue
  have hstr : readStr (writeLiteral string value ++ c :: rest) = none := by
    obtain ⟨d, more, hd⟩ := List.exists_cons_of_ne_nil (@writeLiteral_ne_nil string value
      hnumber hvalue)
    rw [hd, List.cons_append]
    have hnumberChar := hall d (by rw [hd]; exact List.mem_cons_self)
    refine readStr_of_not_quote ⟨?_, ?_⟩
    · rintro rfl
      exact absurd hnumberChar (by decide)
    · rintro rfl
      exact absurd hnumberChar (by decide)
  have htake : (writeLiteral string value ++ c :: rest).takeWhile numberChar =
      writeLiteral string value := by
    rw [List.takeWhile_append_of_pos hall, List.takeWhile_cons_of_neg (Bool.eq_false_iff.mp hc),
      List.append_nil]
  have hdrop : (writeLiteral string value ++ c :: rest).dropWhile numberChar = c :: rest := by
    rw [List.dropWhile_append_of_pos hall, List.dropWhile_cons_of_neg (Bool.eq_false_iff.mp hc)]
  rw [readLiteral, hstr]
  simp only [htake, hdrop, readNumber_writeLiteral hnumber hvalue, Option.map_some]

/-! ## What is read is finite -/

theorem readLiteral_finite {read : Literal × Text} (h : readLiteral text = some read) :
    read.1.finite = true := by
  unfold readLiteral at h
  split at h
  · cases h
    rfl
  · obtain ⟨number, hnumber, rfl⟩ := Option.map_eq_some_iff.mp h
    unfold readNumber at hnumber
    split at hnumber
    · obtain ⟨n, -, rfl⟩ := Option.map_eq_some_iff.mp hnumber
      rfl
    · split at hnumber
      · cases hnumber
        rfl
      · obtain ⟨hfloat, hvalue⟩ := Option.ite_none_right_eq_some.mp hnumber
        rw [← Option.some.inj hvalue]
        exact hfloat

variable {items : List (Text × Literal)}

/-- An item is read, and behind it the brace, or a comma and the other items. -/
theorem readItems_cases {fuel : Nat} (h : readItems (fuel + 1) text = some items) :
    ∃ key behindKey value behindValue, readStr text = some (key, behindKey) ∧
      behindKey.head? = some ':' ∧
      readLiteral ((behindKey.drop 1).dropWhile (· == ' ')) = some (value, behindValue) ∧
      (behindValue = ['}'] ∧ items = [(key, value)] ∨
        behindValue.head? = some ',' ∧ ∃ others,
          readItems fuel ((behindValue.drop 1).dropWhile (· == ' ')) = some others ∧
            items = (key, value) :: others) := by
  rw [readItems] at h
  split at h
  · cases h
  · next key behindKey hkey =>
      split at h
      · next hcolon =>
          split at h
          · cases h
          · next value behindValue hvalue =>
              refine ⟨key, behindKey, value, behindValue, hkey, hcolon, hvalue, ?_⟩
              split at h
              · next hend => exact .inl ⟨hend, (Option.some.inj h).symm⟩
              · split at h
                · next hcomma =>
                    obtain ⟨others, hothers, hitems⟩ := Option.map_eq_some_iff.mp h
                    exact .inr ⟨hcomma, others, hothers, hitems.symm⟩
                · cases h
      · cases h

theorem readItems_finite {fuel : Nat} (h : readItems fuel text = some items) :
    ∀ item ∈ items, item.2.finite = true := by
  induction fuel generalizing text items with
  | zero => cases h
  | succ fuel ih =>
    obtain ⟨key, behindKey, value, behindValue, -, -, hread, hrest⟩ := readItems_cases h
    have hvalue : value.finite = true := readLiteral_finite hread
    rcases hrest with ⟨-, rfl⟩ | ⟨-, others, hothers, rfl⟩
    · exact List.forall_mem_singleton.mpr hvalue
    · exact List.forall_mem_cons.mpr ⟨hvalue, ih hothers⟩

theorem readDict_finite (h : readDict text = some items) :
    ∀ item ∈ items, item.2.finite = true := by
  unfold readDict at h
  split at h
  · cases h
    exact List.forall_mem_nil _
  · split at h
    · exact readItems_finite h
    · cases h

end

end OvirtArt.CoreApi.PyLiteral
