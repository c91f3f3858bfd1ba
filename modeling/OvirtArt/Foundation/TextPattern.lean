import Mathlib.Data.List.Basic
import Mathlib.Data.Option.Basic

set_option autoImplicit false

/-!
# Searching a line for a pattern

A pattern that never has to backtrack: texts in a row, and repetitions each of
which is followed by a character that it does not repeat.  On such a pattern the
greedy matcher below finds what a regular expression engine finds, and `search`
finds the leftmost match.

Alternatives, groups and options are left out.  That no backtracking is needed is part of what a
pattern is, so that the matcher is structural.
-/

namespace OvirtArt.Foundation

/-- A pattern: what it captures at the beginning of a text, and the rest. -/
abbrev Pattern (α : Type) := StateT (List Char) Option α

namespace Pattern

/-- A fixed text, its characters compared by `same`. -/
def literal (same : Char → Char → Bool) : List Char → Pattern Unit
  | [] => pure ()
  | expected :: rest => fun text =>
    match text with
    | [] => none
    | found :: text => if same expected found then literal same rest text else none

/-- One character of a class. -/
def one (among : Char → Bool) : Pattern Char := fun text =>
  match text with
  | [] => none
  | found :: text => if among found then some (found, text) else none

/-- At least one character of a class, as many as there are. -/
def plus (among : Char → Bool) : Pattern (List Char) := fun text =>
  match text.span among with
  | ([], _) => none
  | (found, rest) => some (found, rest)

/-- A pattern `n` times in a row. -/
def times (pattern : Pattern (List Char)) : Nat → Pattern (List Char)
  | 0 => pure []
  | n + 1 => do
      let first ← pattern
      let rest ← times pattern n
      pure (first ++ rest)

/-- The leftmost match in a text. -/
def search {α : Type} (pattern : Pattern α) : List Char → Option α
  | [] => (pattern.run []).map Prod.fst
  | found :: text =>
    match pattern.run (found :: text) with
    | some (captured, _) => some captured
    | none => search pattern text

end Pattern

end OvirtArt.Foundation
