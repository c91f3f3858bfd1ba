import OvirtArt.CoreApi.PyText
import OvirtArt.Foundation.Delimited
import OvirtArt.Foundation.PercentEncoding

set_option autoImplicit false

/-!
# What `replace` does

The occurrences are replaced from left to right.  Where a text is put together with separators that
are not in the part to replace, the parts are dealt with one by one.

The weight of a text bounds what is left after a replacement, which is how a result that is right
is told from one that has lost something.
-/

namespace OvirtArt.CoreApi

open OvirtArt.Foundation OvirtArt.Foundation.Percent

namespace Text

variable {old new text out before after : Text} {c sep : Char}

/-- The second text is the first with each occurrence of `old` replaced. -/
inductive Replaced (old new : Text) : Text → Text → Prop
  | nil : Replaced old new [] []
  | found {rest out : Text} (h : Replaced old new rest out) :
      Replaced old new (old ++ rest) (new ++ out)
  | kept {c : Char} {rest out : Text} (hnot : ¬ old <+: c :: rest)
      (h : Replaced old new rest out) : Replaced old new (c :: rest) (c :: out)

theorem replaceFrom_drop (skip : Nat) (text : Text) :
    replaceFrom old new skip text = replaceFrom old new 0 (text.drop skip) := by
  induction text generalizing skip with
  | nil =>
    cases skip <;> rfl
  | cons c rest ih =>
    cases skip with
    | zero => rfl
    | succ skip =>
      rw [List.drop_succ_cons, ← ih]
      rfl

theorem replace_append (hold : old ≠ []) (rest : Text) :
    (old ++ rest).replace old new = new ++ rest.replace old new := by
  obtain ⟨first, others, rfl⟩ := List.exists_cons_of_ne_nil hold
  have hbegins : (first :: others).isPrefixOf (first :: (others ++ rest)) :=
    List.isPrefixOf_iff_prefix.mpr (List.prefix_append (first :: others) rest)
  rw [List.cons_append, replace, replaceFrom, if_pos hbegins, replaceFrom_drop, List.length_cons,
    Nat.add_sub_cancel, List.drop_left]
  rfl

theorem replace_cons (h : ¬ old <+: c :: after) (new : Text) :
    replace (c :: after) old new = c :: after.replace old new := by
  have hbegins : ¬ old.isPrefixOf (c :: after) := fun hp => h (List.isPrefixOf_iff_prefix.mp hp)
  rw [replace, replaceFrom, if_neg hbegins]
  rfl

theorem Replaced.eq (hold : old ≠ []) (h : Replaced old new text out) :
    text.replace old new = out := by
  induction h with
  | nil => rfl
  | found h ih => rw [replace_append hold, ih]
  | kept hnot h ih => rw [replace_cons hnot, ih]

theorem replaced_replace (hold : old ≠ []) (new text : Text) :
    Replaced old new text (text.replace old new) := by
  -- the rest of the text is shorter, behind an occurrence as well as behind a character
  induction hlength : text.length using Nat.strong_induction_on generalizing text with
  | _ n ih =>
    match text with
    | [] => exact .nil
    | c :: rest =>
      by_cases hbegins : old <+: c :: rest
      · obtain ⟨after, heq⟩ := hbegins
        have hshorter : after.length < n := by
          rw [← hlength, ← heq, List.length_append]
          exact Nat.lt_add_of_pos_left (List.length_pos_of_ne_nil hold)
        rw [← heq, replace_append hold]
        exact .found (ih _ hshorter after rfl)
      · rw [replace_cons hbegins]
        exact .kept hbegins (ih _ (by rw [← hlength]; exact Nat.lt_succ_self _) rest rfl)

/-! ## Separators -/

theorem prefix_of_prefix_append_cons (hsep : sep ∉ old) (h : old <+: before ++ sep :: after) :
    old <+: before := by
  rcases Nat.lt_or_ge before.length old.length with hlt | hle
  · have hwhole : before ++ [sep] <+: before ++ sep :: after := ⟨after, by simp⟩
    have hlonger : before ++ [sep] <+: old := by
      refine List.prefix_of_prefix_length_le hwhole h ?_
      rw [List.length_append]
      exact hlt
    exact absurd (hlonger.subset (by simp)) hsep
  · exact List.prefix_of_prefix_length_le h (List.prefix_append before _) hle

theorem Replaced.append_cons {out' : Text} (hsep : sep ∉ old) (hold : old ≠ [])
    (h : Replaced old new before out) (h' : Replaced old new after out') :
    Replaced old new (before ++ sep :: after) (out ++ sep :: out') := by
  induction h with
  | nil =>
    refine .kept (fun hbegins => ?_) h'
    have hnil : old <+: [] := prefix_of_prefix_append_cons hsep hbegins
    exact hold (List.prefix_nil.mp hnil)
  | found h ih =>
    rw [List.append_assoc, List.append_assoc]
    exact .found ih
  | kept hnot h ih =>
    exact .kept (fun hbegins => hnot (prefix_of_prefix_append_cons hsep hbegins)) ih

/-- The parts before and after a separator are dealt with one by one. -/
theorem replace_append_cons (hsep : sep ∉ old) (hold : old ≠ []) (before after : Text) :
    (before ++ sep :: after).replace old new =
      before.replace old new ++ sep :: after.replace old new :=
  ((replaced_replace hold new before).append_cons hsep hold (replaced_replace hold new after)).eq
    hold

theorem replace_append_delimited (hsep : sep ∉ old) (hold : old ≠ []) (part : Text)
    (parts : List Text) :
    (part ++ delimited sep parts).replace old new =
      part.replace old new ++ delimited sep (parts.map fun part => part.replace old new) := by
  induction parts generalizing part with
  | nil => simp
  | cons next rest ih =>
    rw [delimited_cons, List.cons_append, replace_append_cons hsep hold, ih, List.map_cons,
      delimited_cons, List.cons_append]

/-! ## Texts without an occurrence -/

theorem replace_eq_self (h : ¬ old <:+: text) (new : Text) : text.replace old new = text := by
  induction text with
  | nil => rfl
  | cons c rest ih =>
    rw [replace_cons fun hbegins => h hbegins.isInfix,
      ih fun hoccurs => h (hoccurs.trans (List.suffix_cons c rest).isInfix)]

theorem replace_eq_self_of_not_mem (hc : c ∈ old) (h : c ∉ text) (new : Text) :
    text.replace old new = text :=
  replace_eq_self (fun hoccurs => h (hoccurs.subset hc)) new

/-- There is no occurrence that begins among these characters. -/
theorem Replaced.append_of_forall (hold : old ≠ []) {group : Text}
    (hgroup : ∀ c ∈ group, c ∉ old.head?) (h : Replaced old new text out) :
    Replaced old new (group ++ text) (group ++ out) := by
  induction group with
  | nil => exact h
  | cons c group ih =>
    rw [List.forall_mem_cons] at hgroup
    refine .kept (fun hbegins => hgroup.1 ?_) (ih hgroup.2)
    obtain ⟨first, others, rfl⟩ := List.exists_cons_of_ne_nil hold
    rw [(List.cons_prefix_cons.mp hbegins).1]
    rfl

theorem replace_append_of_forall (hold : old ≠ []) {group : Text}
    (hgroup : ∀ c ∈ group, c ∉ old.head?) (text : Text) :
    replace (group ++ text) old new = group ++ text.replace old new :=
  ((replaced_replace hold new text).append_of_forall hold hgroup).eq hold

/-! ## A single character -/

theorem replace_char (old : Char) (new text : Text) :
    text.replace [old] new = text.flatMap fun c => if c = old then new else [c] := by
  induction text with
  | nil => rfl
  | cons c rest ih =>
    rw [List.flatMap_cons, ← ih]
    by_cases hc : c = old
    · rw [hc, if_pos rfl]
      exact replace_append (List.cons_ne_nil old []) rest
    · rw [if_neg hc]
      exact replace_cons (fun hbegins => hc (List.cons_prefix_cons.mp hbegins).1.symm) new

theorem replace_singleton (old new : Char) (text : Text) :
    text.replace [old] [new] = text.map fun c => if c = old then new else c := by
  rw [replace_char, List.map_eq_flatMap]
  congr 1
  funext c
  split <;> rfl

/-! ## What is removed -/

theorem mem_of_mem_replace (hold : old ≠ []) (h : c ∈ text.replace old []) : c ∈ text := by
  have hreplaced := replaced_replace hold [] text
  generalize text.replace old [] = out at h hreplaced
  induction hreplaced with
  | nil => exact h
  | found _ ih => exact List.mem_append_right _ (ih h)
  | kept _ _ ih =>
    rcases List.mem_cons.mp h with rfl | hmem
    · exact List.mem_cons_self
    · exact List.mem_cons_of_mem _ (ih hmem)

theorem length_utf8_replace_le (hold : old ≠ []) (text : Text) :
    (utf8 (text.replace old [])).length ≤ (utf8 text).length := by
  have hreplaced := replaced_replace hold [] text
  generalize text.replace old [] = out at hreplaced
  induction hreplaced with
  | nil => exact Nat.le_refl _
  | found _ ih =>
    rw [List.nil_append, utf8_append, List.length_append]
    exact Nat.le_add_left_of_le ih
  | kept _ _ ih =>
    rw [utf8_cons, utf8_cons, List.length_append, List.length_append]
    exact Nat.add_le_add_left ih _

/-- Something is lost wherever there is an occurrence. -/
theorem length_utf8_replace_lt (hold : old ≠ []) (h : old <:+: text) :
    (utf8 (text.replace old [])).length < (utf8 text).length := by
  have hreplaced := replaced_replace hold [] text
  generalize text.replace old [] = out at hreplaced
  induction hreplaced with
  | nil => exact absurd (List.infix_nil.mp h) hold
  | @found rest out hrest ih =>
    have hle := length_utf8_replace_le hold rest
    rw [hrest.eq hold] at hle
    have hpos : 0 < (utf8 old).length := by
      obtain ⟨first, others, rfl⟩ := List.exists_cons_of_ne_nil hold
      rw [utf8_cons, List.length_append, String.length_utf8EncodeChar]
      exact Nat.add_pos_left first.utf8Size_pos _
    rw [List.nil_append, utf8_append, List.length_append]
    omega
  | kept hnot _ ih =>
    rw [utf8_cons, utf8_cons, List.length_append, List.length_append]
    exact Nat.add_lt_add_left (ih ((List.infix_cons_iff.mp h).resolve_left hnot)) _

/-! ## Percent-encoding -/

variable {keep : Char → Bool}

theorem prefix_encode_iff (hkeep : ∀ c ∈ old, keep c)
    (hplain : ∀ c ∈ old, c ∉ '%' :: upperDigits) :
    old <+: encode keep text ↔ old <+: text := by
  induction old generalizing text with
  | nil => simp
  | cons first others ih =>
    rw [List.forall_mem_cons] at hkeep hplain
    cases text with
    | nil => simp
    | cons c rest =>
      rw [encode_cons, List.cons_prefix_cons]
      by_cases hc : keep c
      · rw [encodeChar_of_keep hc, List.singleton_append, List.cons_prefix_cons,
          ih hkeep.2 hplain.2]
      · constructor
        · intro hbegins
          have hmem : first ∈ encodeChar keep c := by
            unfold encodeChar at hbegins ⊢
            rw [if_neg hc] at hbegins ⊢
            obtain ⟨byte, bytes, hbytes⟩ := List.exists_cons_of_ne_nil
              (List.ne_nil_of_length_pos (String.length_utf8EncodeChar c ▸ c.utf8Size_pos))
            rw [hbytes, List.flatMap_cons, percentEncoded] at hbegins ⊢
            rw [(List.cons_prefix_cons.mp hbegins).1]
            exact List.mem_cons_self
          exact absurd (mem_encodeChar hplain.1 hmem).2 hc
        · rintro ⟨heq, -⟩
          exact absurd (heq ▸ hkeep.1) hc

/-- A part of characters that are kept is replaced before or after the encoding. -/
theorem replace_encode (hold : old ≠ []) (hkeep : ∀ c ∈ old, keep c)
    (hplain : ∀ c ∈ old, c ∉ '%' :: upperDigits) (text : Text) :
    replace (encode keep text) old [] = encode keep (text.replace old []) := by
  have hreplaced := replaced_replace hold [] text
  generalize text.replace old [] = out at hreplaced
  refine Replaced.eq hold ?_
  induction hreplaced with
  | nil => exact .nil
  | found _ ih =>
    have hself : encode keep old = old := by
      unfold encode
      rw [List.flatMap_congr fun c hc => encodeChar_of_keep (hkeep c hc)]
      exact List.flatMap_singleton' old
    rw [encode_append, hself]
    exact .found ih
  | @kept c rest out hnot _ ih =>
    by_cases hc : keep c
    · rw [encode_cons, encode_cons, encodeChar_of_keep hc]
      refine .kept (fun hbegins => hnot ?_) ih
      rw [← prefix_encode_iff hkeep hplain, encode_cons, encodeChar_of_keep hc]
      exact hbegins
    · refine ih.append_of_forall hold fun d hd hhead => ?_
      exact hc (mem_encodeChar (hplain d (List.mem_of_mem_head? hhead)) hd).2

end Text

end OvirtArt.CoreApi
