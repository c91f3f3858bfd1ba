import OvirtArt.Foundation.PercentEncoding

set_option autoImplicit false

/-!
# URI templates

Literal text is copied to the URI, with the characters that are not of ASCII encoded; a name in
braces stands for the value of that variable, of which only unreserved characters are kept.  These
are the templates of RFC 6570 without operators.

The grammar of templates leaves some characters out of literal text, such as spaces and quotation
marks.  A template with one of them is not well formed; its expansion copies them as they stand, so
that they show in the URI.
-/

namespace OvirtArt.Foundation.UriTemplate

open Percent

/-- The values of variables. -/
abbrev Values := List (List Char × List Char)

/-- The value of a variable; nothing for one that has none. -/
def valueOf (values : Values) (name : List Char) : List Char := (values.lookup name).getD []

/-- The characters that expansion of a variable leaves as they are. -/
def unreserved (c : Char) : Bool := c.isAlphanum || "-._~".toList.contains c

/-- The characters that may stand for themselves in a template. -/
def reserved (c : Char) : Bool := ":/?#[]@!$&'()*+,;=".toList.contains c

/-- What the grammar leaves out of literal text: controls, spaces and some signs. -/
def excluded (c : Char) : Bool :=
  c.toNat ≤ 32 || c.toNat == 127 || "\"'<>\\^`|".toList.contains c

/-- What is copied from the literal text; a percent sign is there before two digits only. -/
def literalChar (c : Char) : Bool := unreserved c || reserved c || c == '%' || excluded c

/-- What the name of a variable is made of. -/
def varchar (c : Char) : Bool := c.isAlphanum || c == '_' || c == '.'

/-- Expand a template, inside the name of a variable or outside of it; `none` if it is malformed or
has an operator. -/
def expandFrom (values : Values) : Option (List Char) → List Char → Option (List Char)
  | none, [] => some []
  | some _, [] => none
  | none, c :: rest =>
    if c = '\x7b' then expandFrom values (some []) rest
    else if c = '\x7d' ∨ c = '%' ∧ triplet? (c :: rest) = none then none
    else (expandFrom values none rest).map (encodeChar literalChar c ++ ·)
  | some name, c :: rest =>
    if c = '\x7d' then
      if name.isEmpty then none
      else (expandFrom values none rest).map (encode unreserved (valueOf values name) ++ ·)
    else if varchar c then expandFrom values (some (name ++ [c])) rest
    else none

/-- Expand a template. -/
def expand (values : Values) (template : List Char) : Option (List Char) :=
  expandFrom values none template

/-- The text is a literal: no braces, and each percent sign is before two digits. -/
def isLiteral : List Char → Bool
  | [] => true
  | c :: rest =>
    c ≠ '\x7b' && c ≠ '\x7d' && (c ≠ '%' || (triplet? (c :: rest)).isSome) && isLiteral rest

/-- The literal is one of the grammar. -/
def isWellFormed (text : List Char) : Bool := isLiteral text && text.all fun c => !excluded c

/-- The text is expanded to the other one, whatever follows in the template. -/
def Expands (values : Values) (text out : List Char) : Prop :=
  ∀ rest, expand values (text ++ rest) = (expand values rest).map (out ++ ·)

variable {values : Values} {text out text' out' name : List Char} {c : Char}

namespace Expands

theorem nil : Expands values [] [] := by
  intro rest
  rw [List.nil_append]
  exact Option.map_id'.symm

theorem append (h : Expands values text out) (h' : Expands values text' out') :
    Expands values (text ++ text') (out ++ out') := by
  intro rest
  rw [List.append_assoc, h, h', Option.map_map]
  congr 1
  funext expanded
  simp

theorem expand_eq (h : Expands values text out) : expand values text = some out := by
  have hnil := h []
  rw [List.append_nil] at hnil
  rw [hnil]
  exact congrArg some (List.append_nil out)

end Expands

theorem expands_literal (h : isLiteral text) : Expands values text (encode literalChar text) := by
  induction text with
  | nil => exact Expands.nil
  | cons c text ih =>
    simp only [isLiteral, Bool.and_eq_true, Bool.or_eq_true, decide_eq_true_eq] at h
    obtain ⟨⟨⟨hopen, hclose⟩, hpercent⟩, hrest⟩ := h
    intro rest
    have hvalid : ¬ (c = '\x7d' ∨ c = '%' ∧ triplet? (c :: (text ++ rest)) = none) := by
      rintro (heq | ⟨heq, hnone⟩)
      · exact hclose heq
      · rcases hpercent with hne | htriplet
        · exact hne heq
        · obtain ⟨byte, hbyte⟩ := Option.isSome_iff_exists.mp htriplet
          obtain ⟨-, high, low, after, m, n, rfl, -⟩ := exists_of_triplet? hbyte
          rw [show triplet? (c :: (high :: low :: after ++ rest)) = some byte from hbyte] at hnone
          exact nomatch hnone
    rw [List.cons_append, expand, expandFrom, if_neg hopen, if_neg hvalid, ← expand, ih hrest rest,
      Option.map_map, encode_cons]
    congr 1
    funext expanded
    simp

theorem expands_char (hopen : c ≠ '\x7b') (hclose : c ≠ '\x7d') (hpercent : c ≠ '%')
    (hkeep : literalChar c) : Expands values [c] [c] := by
  have hliteral : isLiteral [c] := by simp [isLiteral, hopen, hclose, hpercent]
  have h := @expands_literal values [c] hliteral
  rwa [encode_cons, encodeChar_of_keep hkeep] at h

theorem expandFrom_name (hname : ∀ c ∈ name, varchar c) (before rest : List Char)
    (hnonempty : before ++ name ≠ []) :
    expandFrom values (some before) (name ++ '\x7d' :: rest) =
      (expand values rest).map (encode unreserved (valueOf values (before ++ name)) ++ ·) := by
  induction name generalizing before with
  | nil =>
    rw [List.append_nil] at hnonempty ⊢
    rw [List.nil_append, expandFrom, if_pos rfl, if_neg (by simpa using hnonempty)]
    rfl
  | cons c name ih =>
    rw [List.forall_mem_cons] at hname
    have hc : c ≠ '\x7d' := by
      intro heq
      rw [heq] at hname
      exact absurd hname.1 (by decide)
    rw [List.cons_append, expandFrom, if_neg hc, if_pos hname.1,
      ih hname.2 (before ++ [c]) (by simp)]
    simp

/-- A variable is expanded to the encoded value. -/
theorem expands_variable (hname : ∀ c ∈ name, varchar c) (hnonempty : name ≠ []) :
    Expands values ('\x7b' :: name ++ ['\x7d']) (encode unreserved (valueOf values name)) := by
  intro rest
  have h := @expandFrom_name values name hname [] rest hnonempty
  rw [List.nil_append] at h
  rw [← h, expand, List.cons_append, List.cons_append, expandFrom, if_pos rfl, List.append_assoc]
  rfl

/-! ## Literals -/

theorem isLiteral_of_isWellFormed (h : isWellFormed text) : isLiteral text :=
  (Bool.and_eq_true_iff.mp h).1

theorem excluded_of_isWellFormed (h : isWellFormed text) (hc : c ∈ text) : excluded c = false := by
  have hall := List.all_eq_true.mp (Bool.and_eq_true_iff.mp h).2 c hc
  simpa using hall

theorem isLiteral_of_forall (h : ∀ c ∈ text, c ≠ '\x7b' ∧ c ≠ '\x7d' ∧ c ≠ '%') :
    isLiteral text := by
  induction text with
  | nil => rfl
  | cons c rest ih =>
    rw [List.forall_mem_cons] at h
    obtain ⟨⟨hopen, hclose, hpercent⟩, hrest⟩ := h
    simp [isLiteral, hopen, hclose, hpercent, ih hrest]

theorem brace_not_mem (h : isLiteral text) : '\x7b' ∉ text ∧ '\x7d' ∉ text := by
  induction text with
  | nil => exact ⟨List.not_mem_nil, List.not_mem_nil⟩
  | cons c rest ih =>
    simp only [isLiteral, Bool.and_eq_true, decide_eq_true_eq] at h
    obtain ⟨⟨⟨hopen, hclose⟩, -⟩, hrest⟩ := h
    rw [List.mem_cons, List.mem_cons, not_or, not_or]
    exact ⟨⟨hopen.symm, (ih hrest).1⟩, hclose.symm, (ih hrest).2⟩

variable {keep : Char → Bool}

theorem keep_of_hexValue? (hdigits : ∀ digit ∈ hexDigits, keep digit.1) {n : Nat}
    (h : hexValue? c = some n) : keep c := by
  obtain ⟨before, after, heq, -⟩ := List.lookup_eq_some_iff.mp h
  exact hdigits (c, n) (heq ▸ List.mem_append_right _ List.mem_cons_self)

/-- An encoded byte of a literal is read as one byte, where the literal has three characters. -/
theorem length_bytes_signs_lt (hsign : keep '%') (hdigits : ∀ digit ∈ hexDigits, keep digit.1)
    (h : isLiteral text) (hpercent : '%' ∈ text) :
    (bytes (signs (encode keep text))).length < (utf8 text).length := by
  have hsplit : ∃ before high low after m n, text = before ++ '%' :: high :: low :: after ∧
      hexValue? high = some m ∧ hexValue? low = some n := by
    induction text with
    | nil => exact nomatch hpercent
    | cons c rest ih =>
      simp only [isLiteral, Bool.and_eq_true, Bool.or_eq_true, decide_eq_true_eq] at h
      rcases List.mem_cons.mp hpercent with rfl | hmem
      · obtain ⟨byte, hbyte⟩ := Option.isSome_iff_exists.mp (h.1.2.resolve_left fun hne => hne rfl)
        obtain ⟨-, high, low, after, m, n, rfl, hhigh, hlow⟩ := exists_of_triplet? hbyte
        exact ⟨[], high, low, after, m, n, rfl, hhigh, hlow⟩
      · obtain ⟨before, high, low, after, m, n, rfl, hhigh, hlow⟩ := ih h.2 hmem
        exact ⟨c :: before, high, low, after, m, n, rfl, hhigh, hlow⟩
  obtain ⟨before, high, low, after, m, n, rfl, hhigh, hlow⟩ := hsplit
  exact length_bytes_signs_encode_lt hsign hhigh hlow (keep_of_hexValue? hdigits hhigh)
    (keep_of_hexValue? hdigits hlow)

end OvirtArt.Foundation.UriTemplate
