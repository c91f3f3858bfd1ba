import Mathlib.Data.List.Basic
import Mathlib.Data.Option.Basic

set_option autoImplicit false

/-!
# Splitting a text into the words of a shell

Blanks separate words.  Apostrophes quote all that is between them; between quotation marks, the
backslash escapes the quotation mark and itself, and stands for itself before anything else.

Comments, variables and substitutions are not part of this splitting.  A text with an open
quotation or escape has no words.
-/

namespace OvirtArt.Foundation.ShellWords

/-- Where the reader is: between two words, in a word, in a quotation, or behind a backslash that
stands in a word or in a quotation. -/
inductive Mode where
  | between
  | word
  | quoted (quote : Char)
  | escaped (within : Option Char)

/-- The characters between two words. -/
def isBlank (c : Char) : Bool := c ∈ [' ', '\t', '\r', '\n']

/-- The quotes of a word. -/
def isQuote (c : Char) : Bool := c ∈ ['\'', '"']

/-- The words of a text, with what has been read of the current one; `none` if a quotation or an
escape does not end.  A word that has been begun is there even if it is empty, since then it was
quoted. -/
def splitFrom : Mode → List Char → List Char → Option (List (List Char))
  | .between, _, [] => some []
  | .between, _, c :: rest =>
    if isBlank c then splitFrom .between [] rest
    else if c = '\\' then splitFrom (.escaped none) [] rest
    else if isQuote c then splitFrom (.quoted c) [] rest
    else splitFrom .word [c] rest
  | .word, token, [] => some [token]
  | .word, token, c :: rest =>
    if isBlank c then (splitFrom .between [] rest).map (token :: ·)
    else if isQuote c then splitFrom (.quoted c) token rest
    else if c = '\\' then splitFrom (.escaped none) token rest
    else splitFrom .word (token ++ [c]) rest
  | .quoted _, _, [] => none
  | .quoted quote, token, c :: rest =>
    if c = quote then splitFrom .word token rest
    else if c = '\\' ∧ quote = '"' then splitFrom (.escaped (some quote)) token rest
    else splitFrom (.quoted quote) (token ++ [c]) rest
  | .escaped _, _, [] => none
  | .escaped none, token, c :: rest => splitFrom .word (token ++ [c]) rest
  | .escaped (some quote), token, c :: rest =>
    if c ≠ '\\' ∧ c ≠ quote then splitFrom (.quoted quote) (token ++ ['\\', c]) rest
    else splitFrom (.quoted quote) (token ++ [c]) rest

/-- The words of a command line, unless a quote or an escape is left open. -/
def split (text : List Char) : Option (List (List Char)) := splitFrom .between [] text

/-! ## Between quotation marks -/

/-- What stands between two quotation marks, and what it is read as: a pair of backslashes is one,
and a backslash before anything else is kept. -/
inductive DoubleQuoted : List Char → List Char → Prop
  | nil : DoubleQuoted [] []
  | char {c : Char} {text out : List Char} (hquote : c ≠ '"') (hescape : c ≠ '\\')
      (h : DoubleQuoted text out) : DoubleQuoted (c :: text) (c :: out)
  | backslash {text out : List Char} (h : DoubleQuoted text out) :
      DoubleQuoted ('\\' :: '\\' :: text) ('\\' :: out)
  | kept {c : Char} {text out : List Char} (hquote : c ≠ '"') (hescape : c ≠ '\\')
      (h : DoubleQuoted text out) : DoubleQuoted ('\\' :: c :: text) ('\\' :: c :: out)

section

variable {text out more others rest token : List Char}

theorem DoubleQuoted.append (h : DoubleQuoted text out) (hmore : DoubleQuoted more others) :
    DoubleQuoted (text ++ more) (out ++ others) := by
  induction h with
  | nil => exact hmore
  | char hquote hescape h ih => exact .char hquote hescape ih
  | backslash h ih => exact .backslash ih
  | kept hquote hescape h ih => exact .kept hquote hescape ih

/-- A text without quotation marks and backslashes stands for itself. -/
theorem DoubleQuoted.of_plain (hquote : '"' ∉ text) (hescape : '\\' ∉ text) :
    DoubleQuoted text text := by
  induction text with
  | nil => exact .nil
  | cons c text ih =>
    rw [List.mem_cons, not_or] at hquote hescape
    exact .char (Ne.symm hquote.1) (Ne.symm hescape.1) (ih hquote.2 hescape.2)

/-- The reader goes through such a text and stays between the quotation marks. -/
theorem splitFrom_doubleQuoted (h : DoubleQuoted text out) :
    splitFrom (.quoted '"') token (text ++ rest) = splitFrom (.quoted '"') (token ++ out) rest := by
  induction h generalizing token with
  | nil => rw [List.nil_append, List.append_nil]
  | @char c text out hquote hescape h ih =>
    rw [List.cons_append, splitFrom, if_neg hquote, if_neg fun hand => hescape hand.1, ih,
      List.append_assoc, List.singleton_append]
  | @backslash text out h ih =>
    rw [List.cons_append, List.cons_append, splitFrom, if_neg (by decide),
      if_pos ⟨rfl, rfl⟩, splitFrom, if_neg fun hand => hand.1 rfl, ih, List.append_assoc,
      List.singleton_append]
  | @kept c text out hquote hescape h ih =>
    rw [List.cons_append, List.cons_append, splitFrom, if_neg (by decide),
      if_pos ⟨rfl, rfl⟩, splitFrom, if_pos ⟨hescape, hquote⟩, ih, List.append_assoc]
    rfl

/-! ## In every mode -/

/-- The character has a meaning of its own neither in a word nor in a quotation. -/
def isPlain (c : Char) : Bool := !isBlank c && !isQuote c && decide (c ≠ '\\')

theorem ne_of_isPlain {c : Char} (h : isPlain c = true) : c ≠ '\'' ∧ c ≠ '"' ∧ c ≠ '\\' := by
  refine ⟨?_, ?_, ?_⟩
  · rintro rfl
    exact absurd h (by decide)
  · rintro rfl
    exact absurd h (by decide)
  · rintro rfl
    exact absurd h (by decide)

/-- In a word, and in a quotation, such characters are read as they are. -/
theorem splitFrom_plain {plain : List Char} {mode : Mode}
    (hmode : mode = .word ∨ mode = .quoted '\'' ∨ mode = .quoted '"')
    (hplain : ∀ c ∈ plain, isPlain c = true) :
    splitFrom mode token (plain ++ rest) = splitFrom mode (token ++ plain) rest := by
  induction plain generalizing token with
  | nil => rw [List.nil_append, List.append_nil]
  | cons c plain ih =>
    obtain ⟨hc, hrest⟩ := List.forall_mem_cons.mp hplain
    have hone : splitFrom mode token (c :: (plain ++ rest)) =
        splitFrom mode (token ++ [c]) (plain ++ rest) := by
      obtain ⟨hapostrophe, hmark, hescape⟩ := ne_of_isPlain hc
      rcases hmode with rfl | rfl | rfl
      · obtain ⟨hblank, hquote⟩ := Bool.and_eq_true_iff.mp (Bool.and_eq_true_iff.mp hc).1
        have hnotBlank : ¬isBlank c = true := by
          rw [Bool.not_eq_true, ← Bool.not_eq_true', hblank]
        have hnotQuote : ¬isQuote c = true := by
          rw [Bool.not_eq_true, ← Bool.not_eq_true', hquote]
        rw [splitFrom, if_neg hnotBlank, if_neg hnotQuote, if_neg hescape]
      · rw [splitFrom, if_neg hapostrophe, if_neg fun hand => hescape hand.1]
      · rw [splitFrom, if_neg hmark, if_neg fun hand => hescape hand.1]
    rw [List.cons_append, hone, ih hrest, List.append_assoc, List.singleton_append]

/-- Where something has been read of a word, there is a word; and where a character is not blank. -/
theorem splitFrom_ne_nil {text : List Char} {mode : Mode}
    (h : mode ≠ .between ∨ ∃ c ∈ text, isBlank c = false) :
    splitFrom mode token text ≠ some [] := by
  induction text generalizing mode token with
  | nil =>
    cases mode with
    | between =>
      rcases h with hmode | ⟨c, hc, -⟩
      · exact absurd rfl hmode
      · exact nomatch hc
    | word => exact nofun
    | quoted quote => exact nofun
    | escaped within => exact nofun
  | cons c text ih =>
    cases mode with
    | between =>
      rw [splitFrom]
      split
      · next hblank =>
          rcases h with hmode | ⟨d, hd, hnot⟩
          · exact absurd rfl hmode
          · rcases List.mem_cons.mp hd with rfl | hd
            · exact absurd hblank (Bool.eq_false_iff.mp hnot)
            · exact ih (.inr ⟨d, hd, hnot⟩)
      · split_ifs <;> exact ih (.inl nofun)
    | word =>
      rw [splitFrom]
      split
      · intro hnone
        obtain ⟨others, -, hcons⟩ := Option.map_eq_some_iff.mp hnone
        exact nomatch hcons
      · split_ifs <;> exact ih (.inl nofun)
    | quoted quote =>
      rw [splitFrom]
      split_ifs <;> exact ih (.inl nofun)
    | escaped within =>
      cases within with
      | none =>
        rw [splitFrom]
        exact ih (.inl nofun)
      | some quote =>
        rw [splitFrom]
        split_ifs <;> exact ih (.inl nofun)

end

end OvirtArt.Foundation.ShellWords
