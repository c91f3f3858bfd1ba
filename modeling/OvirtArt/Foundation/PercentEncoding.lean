import Mathlib.Data.List.Flatten

set_option autoImplicit false

/-!
# Percent-encoding

A character that has no place in a URL is written as its bytes in UTF-8, each of them as a percent
sign and two hexadecimal digits.  A text is read as a list of signs, so that a character that
separates parts is told from a byte that is encoded.

Encoding and decoding are computed on characters and bytes.  A percent sign without two digits
after it stands for itself, as most readers have it.
-/

namespace OvirtArt.Foundation.Percent

/-- A sign of a URL: a character that stands for itself, or a byte behind a percent sign. -/
inductive Sign where
  | plain (c : Char)
  | encoded (byte : UInt8)
  deriving DecidableEq

/-- The bytes of a text. -/
def utf8 (text : List Char) : List UInt8 := text.flatMap String.utf8EncodeChar

/-- The bytes that a sign stands for. -/
def Sign.bytes : Sign → List UInt8
  | plain c => String.utf8EncodeChar c
  | encoded byte => [byte]

/-- The bytes that the signs stand for. -/
def bytes (signs : List Sign) : List UInt8 := signs.flatMap Sign.bytes

/-! ## Reading -/

/-- The digits that bytes are written with. -/
def upperDigits : List Char := "0123456789ABCDEF".toList

/-- The hexadecimal digits with their values. -/
def hexDigits : List (Char × Nat) := upperDigits.zipIdx ++ "abcdef".toList.zipIdx 10

/-- The value of a hexadecimal digit. -/
def hexValue? (c : Char) : Option Nat := hexDigits.lookup c

/-- The byte that is encoded at the beginning of the text. -/
def triplet? : List Char → Option UInt8
  | c :: high :: low :: _ =>
    if c = '%' then
      (hexValue? high).bind fun m => (hexValue? low).map fun n => UInt8.ofNat (16 * m + n)
    else none
  | _ => none

/-- The signs of a text, after `skip` more characters of an encoded byte. -/
def signsFrom : Nat → List Char → List Sign
  | _, [] => []
  | skip + 1, _ :: rest => signsFrom skip rest
  | 0, c :: rest =>
    match triplet? (c :: rest) with
    | some byte => .encoded byte :: signsFrom 2 rest
    | none => .plain c :: signsFrom 0 rest

/-- The signs of a text. -/
def signs (text : List Char) : List Sign := signsFrom 0 text

/-! ## Writing -/

/-- The digit of a value. -/
def hexDigit (n : Nat) : Char := upperDigits.getD n '0'

/-- The three characters that stand for a byte. -/
def percentEncoded (byte : UInt8) : List Char :=
  ['%', hexDigit (byte.toNat / 16), hexDigit (byte.toNat % 16)]

/-- A character, encoded unless it is one to keep. -/
def encodeChar (keep : Char → Bool) (c : Char) : List Char :=
  if keep c then [c] else (String.utf8EncodeChar c).flatMap percentEncoded

/-- A text of which some characters are kept and the others encoded. -/
def encode (keep : Char → Bool) (text : List Char) : List Char := text.flatMap (encodeChar keep)

/-- The signs that a character is written with. -/
def charSigns (keep : Char → Bool) (c : Char) : List Sign :=
  if keep c then [.plain c] else (String.utf8EncodeChar c).map .encoded

/-! ## Bytes -/

@[simp] theorem utf8_nil : utf8 [] = [] := rfl

@[simp] theorem utf8_append (a b : List Char) : utf8 (a ++ b) = utf8 a ++ utf8 b :=
  List.flatMap_append

@[simp] theorem utf8_cons (c : Char) (rest : List Char) :
    utf8 (c :: rest) = String.utf8EncodeChar c ++ utf8 rest := rfl

@[simp] theorem bytes_nil : bytes [] = [] := rfl

@[simp] theorem bytes_append (a b : List Sign) : bytes (a ++ b) = bytes a ++ bytes b :=
  List.flatMap_append

@[simp] theorem bytes_cons (sign : Sign) (rest : List Sign) :
    bytes (sign :: rest) = sign.bytes ++ bytes rest := rfl

theorem Sign.bytes_length_pos (sign : Sign) : 0 < sign.bytes.length := by
  cases sign with
  | plain c => exact (String.length_utf8EncodeChar c) ▸ c.utf8Size_pos
  | encoded byte => exact Nat.one_pos

theorem bytes_charSigns (keep : Char → Bool) (c : Char) :
    bytes (charSigns keep c) = String.utf8EncodeChar c := by
  unfold charSigns
  cases keep c with
  | true => simp [Sign.bytes]
  | false =>
    rw [if_neg Bool.false_ne_true, bytes, List.flatMap_map]
    exact List.flatMap_singleton' _

theorem bytes_flatMap_charSigns (keep : Char → Bool) (text : List Char) :
    bytes (text.flatMap (charSigns keep)) = utf8 text := by
  induction text with
  | nil => rfl
  | cons c rest ih => rw [List.flatMap_cons, bytes_append, bytes_charSigns, ih, utf8_cons]

/-! ## Signs -/

@[simp] theorem signs_nil : signs [] = [] := rfl

variable {c : Char} {text rest b : List Char} {byte : UInt8}

theorem signs_of_triplet? (h : triplet? (c :: rest) = some byte) :
    signs (c :: rest) = .encoded byte :: signs (rest.drop 2) := by
  unfold signs
  rw [signsFrom, h]
  cases rest with
  | nil => rfl
  | cons high rest =>
    cases rest with
    | nil => rfl
    | cons low rest => rfl

theorem signs_of_triplet?_none (h : triplet? (c :: rest) = none) :
    signs (c :: rest) = .plain c :: signs rest := by
  unfold signs
  rw [signsFrom, h]

theorem triplet?_of_ne (h : c ≠ '%') (rest : List Char) : triplet? (c :: rest) = none := by
  unfold triplet?
  split
  case h_1 heq =>
    obtain ⟨rfl, -⟩ := List.cons.inj heq
    rw [if_neg h]
  case h_2 => rfl

theorem signs_cons_of_ne (h : c ≠ '%') (rest : List Char) :
    signs (c :: rest) = .plain c :: signs rest :=
  signs_of_triplet?_none (triplet?_of_ne h rest)

theorem triplet?_percent {high low : Char} {m n : Nat} (hhigh : hexValue? high = some m)
    (hlow : hexValue? low = some n) (rest : List Char) :
    triplet? ('%' :: high :: low :: rest) = some (UInt8.ofNat (16 * m + n)) := by
  change (if '%' = '%' then _ else none) = _
  rw [hhigh, hlow]
  rfl

/-- Both digits of an encoded byte are digits. -/
theorem exists_of_triplet? (h : triplet? (c :: rest) = some byte) :
    c = '%' ∧ ∃ high low after m n, rest = high :: low :: after ∧
      hexValue? high = some m ∧ hexValue? low = some n := by
  unfold triplet? at h
  split at h
  case h_1 first high low after heq =>
    obtain ⟨rfl, rfl⟩ := List.cons.inj heq
    split at h
    case isTrue hc =>
      obtain ⟨m, hm, hmap⟩ := Option.bind_eq_some_iff.mp h
      obtain ⟨n, hn, -⟩ := Option.map_eq_some_iff.mp hmap
      exact ⟨hc, high, low, after, m, n, rfl, hm, hn⟩
    case isFalse => exact nomatch h
  case h_2 => exact nomatch h

theorem triplet?_append (a : List Char) (hb : ∀ first ∈ b.head?, hexValue? first = none) :
    triplet? (c :: a ++ b) = triplet? (c :: a) := by
  cases b with
  | nil => rw [List.append_nil]
  | cons first b =>
    have hfirst := hb first rfl
    match a with
    | [] =>
      cases b with
      | nil => rfl
      | cons second b => simp [triplet?, hfirst]
    | [high] => simp [triplet?, hfirst]
    | high :: low :: a => rfl

theorem signsFrom_append {skip : Nat} (a : List Char) (hskip : skip ≤ a.length)
    (hb : ∀ first ∈ b.head?, hexValue? first = none) :
    signsFrom skip (a ++ b) = signsFrom skip a ++ signs b := by
  induction a generalizing skip with
  | nil =>
    obtain rfl := Nat.le_zero.mp hskip
    rfl
  | cons c rest ih =>
    cases skip with
    | succ skip => exact ih (Nat.le_of_succ_le_succ hskip)
    | zero =>
      rw [List.cons_append, signsFrom, ← List.cons_append, triplet?_append rest hb, signsFrom]
      cases htriplet : triplet? (c :: rest) with
      | none => exact congrArg (Sign.plain c :: ·) (ih (Nat.zero_le _))
      | some byte =>
        obtain ⟨-, high, low, after, m, n, rfl, -⟩ := exists_of_triplet? htriplet
        exact congrArg (Sign.encoded byte :: ·) (ih (Nat.le_add_left 2 _))

/-- A text is read in two parts unless the second begins with a digit. -/
theorem signs_append (a : List Char) (hb : ∀ first ∈ b.head?, hexValue? first = none) :
    signs (a ++ b) = signs a ++ signs b :=
  signsFrom_append a (Nat.zero_le _) hb

theorem signs_append_cons (a : List Char) (hc : c ≠ '%') (hhex : hexValue? c = none)
    (b : List Char) :
    signs (a ++ c :: b) = signs a ++ .plain c :: signs b := by
  have hb : ∀ first ∈ (c :: b).head?, hexValue? first = none := by
    intro first hfirst
    rw [← Option.some.inj hfirst]
    exact hhex
  rw [signs_append a hb, signs_cons_of_ne hc]

/-! ## What was encoded is read back -/

theorem hexValue?_hexDigit : ∀ n : Fin 16, hexValue? (hexDigit n) = some n.val := by decide

theorem signs_percentEncoded_append (byte : UInt8) (rest : List Char) :
    signs (percentEncoded byte ++ rest) = .encoded byte :: signs rest := by
  have hlt : byte.toNat < 256 := byte.toNat_lt
  have hhigh := hexValue?_hexDigit ⟨byte.toNat / 16, by omega⟩
  have hlow := hexValue?_hexDigit ⟨byte.toNat % 16, by omega⟩
  have htriplet := triplet?_percent hhigh hlow rest
  rw [Nat.div_add_mod, UInt8.ofNat_toNat] at htriplet
  exact signs_of_triplet? htriplet

theorem signs_flatMap_percentEncoded_append (list : List UInt8) (rest : List Char) :
    signs (list.flatMap percentEncoded ++ rest) = list.map .encoded ++ signs rest := by
  induction list with
  | nil => rfl
  | cons byte list ih =>
    rw [List.flatMap_cons, List.append_assoc, signs_percentEncoded_append, ih]
    rfl

variable {keep : Char → Bool}

@[simp] theorem encode_nil (keep : Char → Bool) : encode keep [] = [] := rfl

@[simp] theorem encode_append (keep : Char → Bool) (a b : List Char) :
    encode keep (a ++ b) = encode keep a ++ encode keep b :=
  List.flatMap_append

theorem encode_cons (keep : Char → Bool) (c : Char) (rest : List Char) :
    encode keep (c :: rest) = encodeChar keep c ++ encode keep rest := rfl

theorem encodeChar_of_keep (h : keep c) : encodeChar keep c = [c] := if_pos h

theorem signs_encodeChar_append (h : keep c → c ≠ '%') (rest : List Char) :
    signs (encodeChar keep c ++ rest) = charSigns keep c ++ signs rest := by
  unfold encodeChar charSigns
  split
  case isTrue hkeep => exact signs_cons_of_ne (h hkeep) rest
  case isFalse => exact signs_flatMap_percentEncoded_append _ rest

theorem signs_encode (h : ∀ c ∈ text, keep c → c ≠ '%') :
    signs (encode keep text) = text.flatMap (charSigns keep) := by
  induction text with
  | nil => rfl
  | cons c rest ih =>
    rw [List.forall_mem_cons] at h
    rw [encode_cons, signs_encodeChar_append h.1, ih h.2, List.flatMap_cons]

theorem hexDigit_mem (n : Nat) : hexDigit n ∈ upperDigits := by
  unfold hexDigit
  rw [List.getD_eq_getElem?_getD]
  cases hdigit : upperDigits[n]? with
  | none => decide
  | some digit => exact List.mem_of_getElem? hdigit

theorem mem_percentEncoded (h : c ∈ percentEncoded byte) : c ∈ '%' :: upperDigits := by
  simp only [percentEncoded, List.mem_cons, List.not_mem_nil, or_false] at h
  rcases h with rfl | rfl | rfl
  · exact List.mem_cons_self
  · exact List.mem_cons_of_mem _ (hexDigit_mem _)
  · exact List.mem_cons_of_mem _ (hexDigit_mem _)

theorem mem_encodeChar {d : Char} (hd : d ∉ '%' :: upperDigits) (h : d ∈ encodeChar keep c) :
    d = c ∧ keep c := by
  unfold encodeChar at h
  split at h
  case isTrue hkeep => exact ⟨List.mem_singleton.mp h, hkeep⟩
  case isFalse =>
    obtain ⟨byte, -, hbyte⟩ := List.mem_flatMap.mp h
    exact absurd (mem_percentEncoded hbyte) hd

/-- A character with no part in encoded bytes stands where it is kept, and nowhere else. -/
theorem mem_encode_iff {d : Char} (hd : d ∉ '%' :: upperDigits) :
    d ∈ encode keep text ↔ d ∈ text ∧ keep d := by
  unfold encode
  rw [List.mem_flatMap]
  constructor
  · intro ⟨c, hc, hmem⟩
    obtain ⟨rfl, hkeep⟩ := mem_encodeChar hd hmem
    exact ⟨hc, hkeep⟩
  · intro ⟨hmem, hkeep⟩
    exact ⟨d, hmem, encodeChar_of_keep hkeep ▸ List.mem_singleton_self d⟩

theorem plain_mem_flatMap_charSigns_iff :
    .plain c ∈ text.flatMap (charSigns keep) ↔ c ∈ text ∧ keep c := by
  rw [List.mem_flatMap]
  constructor
  · intro ⟨d, hd, hmem⟩
    unfold charSigns at hmem
    split at hmem
    case isTrue hkeep =>
      obtain rfl := Sign.plain.inj (List.mem_singleton.mp hmem)
      exact ⟨hd, hkeep⟩
    case isFalse =>
      obtain ⟨byte, -, heq⟩ := List.mem_map.mp hmem
      exact nomatch heq
  · intro ⟨hc, hkeep⟩
    refine ⟨c, hc, ?_⟩
    rw [charSigns, if_pos hkeep]
    exact List.mem_singleton_self _

theorem mem_of_plain_mem_signsFrom {skip : Nat} (h : .plain c ∈ signsFrom skip text) :
    c ∈ text := by
  induction text generalizing skip with
  | nil => exact nomatch h
  | cons first rest ih =>
    cases skip with
    | succ skip => exact List.mem_cons_of_mem _ (ih h)
    | zero =>
      unfold signsFrom at h
      split at h
      case h_1 =>
        rcases List.mem_cons.mp h with heq | hmem
        · exact nomatch heq
        · exact List.mem_cons_of_mem _ (ih hmem)
      case h_2 =>
        rcases List.mem_cons.mp h with heq | hmem
        · exact Sign.plain.inj heq ▸ List.mem_cons_self
        · exact List.mem_cons_of_mem _ (ih hmem)

theorem mem_of_plain_mem_signs (h : .plain c ∈ signs text) : c ∈ text :=
  mem_of_plain_mem_signsFrom h

/-! ## A percent sign makes a text shorter -/

theorem length_bytes_signs_cons_le (c : Char) (rest : List Char) :
    (bytes (signs (c :: rest))).length ≤
      (String.utf8EncodeChar c).length + (bytes (signs rest)).length := by
  cases htriplet : triplet? (c :: rest) with
  | none =>
    rw [signs_of_triplet?_none htriplet, bytes_cons, List.length_append]
    exact Nat.le_refl _
  | some byte =>
    obtain ⟨-, high, low, after, m, n, rfl, hhigh, hlow⟩ := exists_of_triplet? htriplet
    have hne : ∀ {digit : Char} {k : Nat}, hexValue? digit = some k → digit ≠ '%' := by
      intro digit k hdigit heq
      rw [heq] at hdigit
      exact nomatch hdigit
    rw [signs_of_triplet? htriplet, signs_cons_of_ne (hne hhigh), signs_cons_of_ne (hne hlow)]
    have hhighPos := (Sign.plain high).bytes_length_pos
    simp only [bytes_cons, List.length_append, List.drop_succ_cons, List.drop_zero]
    change 1 + _ ≤ _
    omega

theorem length_bytes_signs_encodeChar_append_le (c : Char) (rest : List Char) :
    (bytes (signs (encodeChar keep c ++ rest))).length ≤
      (String.utf8EncodeChar c).length + (bytes (signs rest)).length := by
  unfold encodeChar
  split
  case isTrue => exact length_bytes_signs_cons_le c rest
  case isFalse hkeep =>
    rw [signs_flatMap_percentEncoded_append, bytes_append, List.length_append]
    have hbytes := bytes_charSigns keep c
    unfold charSigns at hbytes
    rw [if_neg hkeep] at hbytes
    exact Nat.le_of_eq (congrArg (fun list => list.length + (bytes (signs rest)).length) hbytes)

theorem length_bytes_signs_encode_append_le (text rest : List Char) :
    (bytes (signs (encode keep text ++ rest))).length ≤
      (utf8 text).length + (bytes (signs rest)).length := by
  induction text with
  | nil => simp
  | cons c text ih =>
    have hc := @length_bytes_signs_encodeChar_append_le keep c (encode keep text ++ rest)
    rw [encode_cons, List.append_assoc, utf8_cons, List.length_append]
    omega

theorem length_bytes_signs_encode_le (text : List Char) :
    (bytes (signs (encode keep text))).length ≤ (utf8 text).length := by
  have h := @length_bytes_signs_encode_append_le keep text []
  rwa [List.append_nil, signs_nil, bytes_nil, List.length_nil, Nat.add_zero] at h

/-- A percent sign that is kept before two digits is not read as itself. -/
theorem length_bytes_signs_encode_lt {before after : List Char} {high low : Char} {m n : Nat}
    (hpercent : keep '%') (hhigh : hexValue? high = some m) (hlow : hexValue? low = some n)
    (hkeepHigh : keep high) (hkeepLow : keep low) :
    (bytes (signs (encode keep (before ++ '%' :: high :: low :: after)))).length <
      (utf8 (before ++ '%' :: high :: low :: after)).length := by
  have hbefore := @length_bytes_signs_encode_append_le keep before
    (encode keep ('%' :: high :: low :: after))
  have hafter := @length_bytes_signs_encode_le keep after
  have hencoded : encode keep ('%' :: high :: low :: after) =
      '%' :: high :: low :: encode keep after := by
    rw [encode_cons, encode_cons, encode_cons, encodeChar_of_keep hpercent,
      encodeChar_of_keep hkeepHigh, encodeChar_of_keep hkeepLow]
    rfl
  rw [encode_append, utf8_append, List.length_append]
  rw [hencoded, signs_of_triplet? (triplet?_percent hhigh hlow _), bytes_cons,
    List.length_append] at hbefore
  rw [hencoded]
  have hpos := (Sign.plain '%').bytes_length_pos
  have hposHigh := (Sign.plain high).bytes_length_pos
  simp only [utf8_cons, List.length_append, List.drop_succ_cons, List.drop_zero, Sign.bytes,
    List.length_singleton] at *
  omega

end OvirtArt.Foundation.Percent
