import Mathlib.Data.List.Basic

set_option autoImplicit false

/-!
# Base64

The encoding of bytes by characters, its inverse, and the form that breaks the
encoded text into lines.

Bytes are numbers below 256.  Nothing is said of a text that no encoding has written.
-/

namespace OvirtArt.Foundation.Base64

/-- The 64 characters, in order. -/
def alphabet : List Char :=
  "ABCDEFGHIJKLMNOPQRSTUVWXYZabcdefghijklmnopqrstuvwxyz0123456789+/".toList

/-- The character for six bits. -/
def sextet (bits : Nat) : Char := alphabet.getD bits '='

/-- The six bits of a character. -/
def bitsOf (c : Char) : Nat := alphabet.idxOf c

/-- Four characters for three bytes, and what is missing at the end filled up
with `=`. -/
def encode : List Nat → List Char
  | [] => []
  | [a] => [sextet (a / 4), sextet (a % 4 * 16), '=', '=']
  | [a, b] => [sextet (a / 4), sextet (a % 4 * 16 + b / 16), sextet (b % 16 * 4), '=']
  | a :: b :: c :: rest =>
    sextet (a / 4) :: sextet (a % 4 * 16 + b / 16) ::
      sextet (b % 16 * 4 + c / 64) :: sextet (c % 64) :: encode rest

/-- The bytes that a text encodes. -/
def decode : List Char → List Nat
  | w :: x :: y :: z :: rest =>
    let a := bitsOf w * 4 + bitsOf x / 16
    let b := bitsOf x % 16 * 16 + bitsOf y / 4
    let c := bitsOf y % 4 * 64 + bitsOf z
    if y = '=' then [a] else if z = '=' then [a, b] else a :: b :: c :: decode rest
  | _ => []

/-- A text with a newline after every `width` characters, `left` of which are
still to come in the first line, and one at the end. -/
def breakLines (width : Nat) : Nat → List Char → List Char
  | _, [] => []
  | _, [c] => [c, '\n']
  | left, c :: rest =>
    if left ≤ 1 then c :: '\n' :: breakLines width width rest
    else c :: breakLines width (left - 1) rest

/-! ## The inverse -/

variable {bits : Nat}

theorem bitsOf_sextet (h : bits < 64) : bitsOf (sextet bits) = bits := by
  have hall : ∀ n : Fin 64, bitsOf (sextet n.val) = n.val := by decide +kernel
  exact hall ⟨bits, h⟩

theorem sextet_mem (h : bits < 64) : sextet bits ∈ alphabet := by
  have hall : ∀ n : Fin 64, sextet n.val ∈ alphabet := by decide +kernel
  exact hall ⟨bits, h⟩

theorem sextet_ne_pad (h : bits < 64) : sextet bits ≠ '=' := by
  intro heq
  have hmem := sextet_mem h
  rw [heq] at hmem
  exact absurd hmem (by decide)

/-- Bytes are read back as they were. -/
theorem decode_encode (bytes : List Nat) (h : ∀ b ∈ bytes, b < 256) :
    decode (encode bytes) = bytes := by
  induction bytes using encode.induct with
  | case1 => rfl
  | case2 a =>
    have ha : a < 256 := h a (by simp)
    simp only [encode, decode, if_pos]
    rw [bitsOf_sextet (by omega), bitsOf_sextet (by omega)]
    congr 1
    omega
  | case3 a b =>
    have ha : a < 256 := h a (by simp)
    have hb : b < 256 := h b (by simp)
    simp only [encode, decode]
    rw [if_neg (sextet_ne_pad (by omega)), if_pos trivial, bitsOf_sextet (by omega),
      bitsOf_sextet (by omega), bitsOf_sextet (by omega)]
    congr 1
    · omega
    · congr 1
      omega
  | case4 a b c rest ih =>
    have ha : a < 256 := h a (by simp)
    have hb : b < 256 := h b (by simp)
    have hc : c < 256 := h c (by simp)
    have hrest := ih fun byte hbyte => h byte (by simp [hbyte])
    simp only [encode, decode]
    rw [if_neg (sextet_ne_pad (by omega)), if_neg (sextet_ne_pad (by omega)),
      bitsOf_sextet (by omega), bitsOf_sextet (by omega), bitsOf_sextet (by omega),
      bitsOf_sextet (by omega)]
    congr 1
    · omega
    · congr 1
      · omega
      · congr 1
        omega

/-! ## Lines -/

theorem newline_not_mem_encode (bytes : List Nat) (h : ∀ b ∈ bytes, b < 256) :
    '\n' ∉ encode bytes := by
  have hsextet : ∀ bits, bits < 64 → '\n' ≠ sextet bits := by
    intro bits hbits heq
    have hmem := sextet_mem hbits
    rw [← heq] at hmem
    exact absurd hmem (by decide)
  induction bytes using encode.induct with
  | case1 => simp [encode]
  | case2 a =>
    have ha : a < 256 := h a (by simp)
    simp [encode, hsextet (a / 4) (by omega), hsextet (a % 4 * 16) (by omega)]
  | case3 a b =>
    have ha : a < 256 := h a (by simp)
    have hb : b < 256 := h b (by simp)
    simp [encode, hsextet (a / 4) (by omega), hsextet (a % 4 * 16 + b / 16) (by omega),
      hsextet (b % 16 * 4) (by omega)]
  | case4 a b c rest ih =>
    have ha : a < 256 := h a (by simp)
    have hb : b < 256 := h b (by simp)
    have hc : c < 256 := h c (by simp)
    have hrest := ih fun byte hbyte => h byte (by simp [hbyte])
    simp [encode, hsextet (a / 4) (by omega), hsextet (a % 4 * 16 + b / 16) (by omega),
      hsextet (b % 16 * 4 + c / 64) (by omega), hsextet (c % 64) (by omega), hrest]

/-- Without its newlines, the text in lines is the text. -/
theorem filter_breakLines (width : Nat) :
    ∀ (left : Nat) (text : List Char), '\n' ∉ text →
      (breakLines width left text).filter (· != '\n') = text
  | _, [], _ => rfl
  | _, [c], h => by
      have hc : c ≠ '\n' := fun heq => h (by simp [heq])
      simp [breakLines, hc]
  | left, c :: next :: rest, h => by
      have hc : c ≠ '\n' := fun heq => h (by simp [heq])
      have hrest : '\n' ∉ next :: rest := fun hmem => h (List.mem_cons_of_mem c hmem)
      unfold breakLines
      by_cases hleft : left ≤ 1
      · have htail := filter_breakLines width width (next :: rest) hrest
        simpa [hleft, hc] using htail
      · have htail := filter_breakLines width (left - 1) (next :: rest) hrest
        simpa [hleft, hc] using htail

/-- A text in lines ends with a newline. -/
theorem breakLines_ends (width : Nat) :
    ∀ (left : Nat) (text : List Char), text ≠ [] →
      ∃ body, breakLines width left text = body ++ ['\n']
  | _, [], h => absurd rfl h
  | _, [c], _ => ⟨[c], rfl⟩
  | left, c :: next :: rest, _ => by
      unfold breakLines
      by_cases hleft : left ≤ 1
      · obtain ⟨body, hbody⟩ := breakLines_ends width width (next :: rest) (by simp)
        exact ⟨c :: '\n' :: body, by simp [hleft, hbody]⟩
      · obtain ⟨body, hbody⟩ := breakLines_ends width (left - 1) (next :: rest) (by simp)
        exact ⟨c :: body, by simp [hleft, hbody]⟩

/-- The last newline is one of those that are left out. -/
theorem filter_dropLast_breakLines (width left : Nat) (text : List Char)
    (h : '\n' ∉ text) :
    (breakLines width left text).dropLast.filter (· != '\n') = text := by
  by_cases hnil : text = []
  · subst hnil
    rfl
  · obtain ⟨body, hbody⟩ := breakLines_ends width left text hnil
    have hall := filter_breakLines width left text h
    rw [hbody] at hall ⊢
    simpa using hall

end OvirtArt.Foundation.Base64
