import OvirtArt.CoreApi.SearchUrls

set_option autoImplicit false

/-!
# What is read of the URL of `query`

The URL has one part for each slot.  The parameters that are read from it weigh at most as much as
these parts, counted in bytes, and less as soon as a part is cut.

This is the counting half of the argument, and does not look at what the parameters mean.
-/

namespace OvirtArt.CoreApi

open OvirtArt.Foundation OvirtArt.Foundation.Percent OvirtArt.Foundation.UriTemplate

namespace SearchUrl

/-! ## Weights -/

/-- The number of bytes of a sign. -/
def signWeight (sign : Sign) : Nat := sign.bytes.length

/-- The number of bytes of a parameter, with its equals sign. -/
def pairWeight (pair : Pair) : Nat := pair.1.length + (pair.2.elim 0 fun value => value.length + 1)

/-- The number of bytes of a name. -/
def nameWeight (pair : Pair) : Nat := pair.1.length

theorem signWeight_pos (sign : Sign) : 0 < signWeight sign := sign.bytes_length_pos

theorem weight_signWeight (text : List Sign) : weight signWeight text = (bytes text).length := by
  induction text with
  | nil => rfl
  | cons sign rest ih => rw [weight_cons, ih, bytes_cons, List.length_append]; rfl

theorem pairWeight_readPair (text : List Sign) :
    pairWeight (readPair text) = weight signWeight text := by
  rw [weight_signWeight]
  by_cases heq : Sign.plain '=' ∈ text
  · obtain ⟨before, after, rfl, hbefore⟩ := List.eq_append_cons_of_mem heq
    unfold readPair pairWeight
    rw [upTo_append hbefore, afterFirst?_append hbefore, bytes_append, List.length_append,
      bytes_cons, List.length_append, Nat.add_comm (Sign.bytes _).length]
    rfl
  · unfold readPair pairWeight
    rw [upTo_of_not_mem heq, afterFirst?_of_not_mem heq]
    rfl

/-- Empty parameters weigh nothing. -/
theorem weight_readPairs (texts : List (List Sign)) :
    weight pairWeight (readPairs texts) = totalWeight signWeight texts := by
  unfold readPairs
  induction texts with
  | nil => rfl
  | cons text rest ih =>
    rw [totalWeight_cons]
    cases text with
    | nil => exact ih.trans (Nat.zero_add _).symm
    | cons sign text =>
      rw [List.filter_cons_of_pos (by simp), List.map_cons, weight_cons, pairWeight_readPair, ih]

theorem readPairs_map {ι : Type} (f : ι → List Sign) (items : List ι) :
    readPairs (items.map f) = items.flatMap fun item => readPairs [f item] := by
  induction items with
  | nil => rfl
  | cons item rest ih =>
    rw [List.flatMap_cons, ← ih]
    unfold readPairs
    rw [List.map_cons, List.filter_cons, List.filter_cons]
    split <;> rfl

/-! ## The parts of a URL -/

theorem signs_append_delimited {sep : Char} (hsep : sep ≠ '%') (hhex : hexValue? sep = none)
    (part : Text) (parts : List Text) :
    signs (part ++ delimited sep parts) =
      signs part ++ delimited (.plain sep) (parts.map signs) := by
  induction parts generalizing part with
  | nil => simp
  | cons next rest ih =>
    rw [delimited_cons, List.cons_append, signs_append_cons part hsep hhex, ih, List.map_cons,
      delimited_cons, List.cons_append]

theorem signs_assemble_cons (path : Text) (matrix : List Text) (first : Text) (rest : List Text) :
    signs (assemble path matrix (first :: rest)) =
      signs path ++ delimited (.plain ';') (matrix.map signs) ++
        .plain '?' :: (signs first ++ delimited (.plain '&') (rest.map signs)) := by
  rw [assemble_cons, signs_append_cons _ (by decide) (by decide),
    signs_append_delimited (by decide) (by decide),
    signs_append_delimited (by decide) (by decide)]

/-- A slash ends a parameter of the path. -/
def slashEnds (sign : Sign) : Bool := sign = .plain '/'

/-- The fragment ends the query. -/
def queryEnds (sign : Sign) : Bool := sign = .plain '#'

/-- A sign at which a parameter of the path is cut. -/
abbrev MatrixCuts : Sign → Prop := Cuts (.plain ';') pathEnds slashEnds

/-- A sign at which a parameter of the query is cut. -/
abbrev QueryCuts : Sign → Prop := Cuts (.plain '&') queryEnds fun _ => false

section

variable {path first query : List Sign} {rest : List (List Sign)}

theorem matrixTexts_cons (hpath : ∀ sign ∈ path, sign ≠ .plain ';' ∧ pathEnds sign = false) :
    matrixTexts (path ++ delimited (.plain ';') (first :: rest) ++ .plain '?' :: query) =
      pieces (.plain ';') pathEnds slashEnds (first ++ delimited (.plain ';') rest) := by
  have hcut : cutBefore pathEnds
      (path ++ delimited (.plain ';') (first :: rest) ++ .plain '?' :: query) =
      path ++ .plain ';' :: cutBefore pathEnds (first ++ delimited (.plain ';') rest) := by
    rw [cutBefore_append_cons rfl, cutBefore_append fun sign h => (hpath sign h).2, delimited_cons,
      List.cons_append, cutBefore_cons, if_neg (by decide)]
  have hsemi : Sign.plain ';' ∉ path := fun hmem => (hpath _ hmem).1 rfl
  unfold matrixTexts pieces
  rw [hcut, afterFirst?_append hsemi]
  exact List.map_congr_left fun text _ => upTo_eq_cutBefore _ text

theorem matrixTexts_nil (hpath : ∀ sign ∈ path, sign ≠ .plain ';' ∧ pathEnds sign = false) :
    matrixTexts (path ++ .plain '?' :: query) = [] := by
  have hsemi : Sign.plain ';' ∉ path := fun hmem => (hpath _ hmem).1 rfl
  unfold matrixTexts
  rw [cutBefore_append_cons rfl, cutBefore_of_forall fun sign h => (hpath sign h).2,
    afterFirst?_of_not_mem hsemi]

theorem queryTexts_append (hpath : ∀ sign ∈ path, pathEnds sign = false) :
    queryTexts (path ++ .plain '?' :: query) =
      pieces (.plain '&') queryEnds (fun _ => false) query := by
  have hquestion : Sign.plain '?' ∉ path := fun hmem => nomatch hpath _ hmem
  have hhash : ∀ sign ∈ path, queryEnds sign = false := by
    intro sign hsign
    have hends := hpath sign hsign
    exact (Bool.or_eq_false_iff.mp hends).2
  unfold queryTexts pieces
  rw [upTo_eq_cutBefore, show (fun c => decide (c = Sign.plain '#')) = queryEnds from rfl,
    cutBefore_append hhash, cutBefore_cons, if_neg (by decide), afterFirst?_append hquestion]
  exact (List.map_id'' (fun text => cutBefore_of_forall fun _ _ => rfl) _).symm

end

end SearchUrl

end OvirtArt.CoreApi
