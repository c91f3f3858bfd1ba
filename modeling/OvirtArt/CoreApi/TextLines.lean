import Mathlib.Data.List.DropRight
import OvirtArt.CoreApi.PyText

set_option autoImplicit false

/-!
# Lines, blanks and parts of a text

What `strip`, `splitlines` and `split` give on a text whose pieces are known.

These are laws of the operations on texts in general; nothing here knows who calls them.
-/

namespace OvirtArt.CoreApi

namespace Text

variable {text before after part : Text} {c : Char}

/-! ## Characters -/

/-- What holds of the characters of a text that is given. -/
theorem forall_of_all {P : Char → Prop} [DecidablePred P]
    (h : (text.all fun c => decide (P c)) = true) : ∀ c ∈ text, P c :=
  fun c hc => of_decide_eq_true (List.all_eq_true.mp h c hc)

theorem isSpace_of_isDigit (h : c.isDigit) : isSpace c = false := by
  cases hspace : isSpace c with
  | false => rfl
  | true =>
    simp only [isSpace, decide_eq_true_eq, List.mem_cons, List.not_mem_nil, or_false] at hspace
    rcases hspace with rfl | rfl | rfl | rfl | rfl | rfl
    all_goals exact absurd h (by decide)

/-! ## `strip` -/

/-- `text.lstrip()`. -/
def lstrip (text : Text) : Text := text.dropWhile isSpace

/-- `text.rstrip()`. -/
def rstrip (text : Text) : Text := text.rdropWhile isSpace

theorem strip_eq (text : Text) : strip text = rstrip (lstrip text) := rfl

theorem lstrip_cons_of_space (h : isSpace c = true) : lstrip (c :: text) = lstrip text :=
  List.dropWhile_cons_of_pos h

theorem lstrip_cons_of_not (h : isSpace c = false) : lstrip (c :: text) = c :: text :=
  List.dropWhile_cons_of_neg (Bool.eq_false_iff.mp h)

theorem rstrip_concat_of_space (h : isSpace c = true) : rstrip (text ++ [c]) = rstrip text :=
  List.rdropWhile_concat_pos isSpace text c h

theorem rstrip_cons (c : Char) (text : Text) :
    rstrip (c :: text) =
      if rstrip text = [] then (if isSpace c then [] else [c]) else c :: rstrip text := by
  unfold rstrip List.rdropWhile
  rw [List.reverse_cons, List.dropWhile_append]
  cases hrest : text.reverse.dropWhile isSpace with
  | nil =>
    simp only [List.isEmpty_nil, if_true, List.reverse_nil, List.dropWhile_cons,
      List.dropWhile_nil]
    cases isSpace c with
    | true => rfl
    | false => rfl
  | cons d rest =>
    simp

/-- The blanks in front and those behind are taken away independently. -/
theorem lstrip_rstrip (text : Text) : lstrip (rstrip text) = rstrip (lstrip text) := by
  induction text with
  | nil => rfl
  | cons c text ih =>
    cases hc : isSpace c with
    | true =>
      rw [rstrip_cons, lstrip_cons_of_space hc, ← ih]
      by_cases hrest : rstrip text = []
      · rw [if_pos hrest, if_pos hc, hrest]
      · rw [if_neg hrest, lstrip_cons_of_space hc]
    | false =>
      rw [lstrip_cons_of_not hc, rstrip_cons]
      by_cases hrest : rstrip text = []
      · rw [if_pos hrest, if_neg (Bool.eq_false_iff.mp hc), lstrip_cons_of_not hc]
      · rw [if_neg hrest, lstrip_cons_of_not hc]

theorem strip_lstrip (text : Text) : strip (lstrip text) = strip text := by
  exact congrArg rstrip (List.dropWhile_idempotent isSpace text)

theorem strip_rstrip (text : Text) : strip (rstrip text) = strip text := by
  rw [strip_eq, lstrip_rstrip]
  exact List.rdropWhile_idempotent isSpace (lstrip text)

theorem strip_cons_of_space (h : isSpace c = true) : strip (c :: text) = strip text := by
  rw [strip_eq, lstrip_cons_of_space h, strip_eq]

theorem strip_concat_of_space (h : isSpace c = true) : strip (text ++ [c]) = strip text := by
  rw [strip_eq, ← lstrip_rstrip, rstrip_concat_of_space h, lstrip_rstrip, strip_eq]

/-- What is left is a part of the text. -/
theorem strip_infix (text : Text) : strip text <:+: text :=
  (List.rdropWhile_prefix isSpace _).isInfix.trans (List.dropWhile_suffix isSpace).isInfix

/-- A part without blanks at its ends keeps what is between it and the other pieces. -/
theorem strip_append {d : Char} (hc : isSpace c = false) (hd : isSpace d = false)
    (hfirst : part.head? = some c) (hlast : part.getLast? = some d) :
    strip (before ++ part ++ after) = lstrip before ++ part ++ rstrip after := by
  obtain ⟨rest, rfl⟩ : ∃ rest, part = c :: rest := by
    cases part with
    | nil => exact nomatch hfirst
    | cons e rest => exact ⟨rest, by rw [Option.some.inj hfirst]⟩
  have hleft : lstrip (before ++ (c :: rest ++ after)) =
      lstrip before ++ (c :: rest ++ after) := by
    unfold lstrip
    rw [List.dropWhile_append]
    split
    · rename_i hempty
      rw [List.isEmpty_iff.mp hempty]
      exact lstrip_cons_of_not hc
    · rfl
  obtain ⟨init, hinit⟩ : ∃ init, c :: rest = init ++ [d] :=
    ⟨_, (List.dropLast_append_getLast? d hlast).symm⟩
  have hright : ∀ front : Text, rstrip (front ++ [d] ++ after) = front ++ [d] ++ rstrip after := by
    intro front
    unfold rstrip List.rdropWhile
    rw [List.reverse_append, List.dropWhile_append]
    split
    · rename_i hempty
      rw [List.isEmpty_iff.mp hempty, List.reverse_append]
      change (List.dropWhile isSpace (d :: front.reverse)).reverse = _
      rw [List.dropWhile_cons_of_neg (Bool.eq_false_iff.mp hd)]
      simp
    · simp
  rw [strip_eq, List.append_assoc, hleft, hinit]
  have h := hright (lstrip before ++ init)
  simpa only [List.append_assoc] using h

/-! ## Slices -/

/-- `text[1:-1]` is what stands between the first and the last character. -/
theorem slice_inner (first last : Char) (inner : Text) :
    slice (first :: (inner ++ [last])) 1 (-1) = inner := by
  have hstop : place (first :: (inner ++ [last])) (-1) = inner.length + 1 := by
    unfold place
    rw [if_pos (by decide), List.length_cons, List.length_append, List.length_singleton]
    omega
  have hstart : place (first :: (inner ++ [last])) 1 = 1 := by
    unfold place
    exact min_eq_left (Nat.le_add_left 1 _)
  unfold slice
  rw [hstop, List.take_succ_cons, List.take_left]
  rfl

/-! ## `splitlines` -/

theorem splitlinesFrom_cons {line : Text} (hn : c ≠ '\n') (hr : c ≠ '\r') (rest : Text) :
    splitlinesFrom line (c :: rest) = splitlinesFrom (line ++ [c]) rest := by
  rw [splitlinesFrom, if_neg fun h => h.elim hn hr]
  intro _ h
  exact absurd h hr

theorem splitlinesFrom_append {line read : Text} (hn : '\n' ∉ line) (hr : '\r' ∉ line)
    (rest : Text) : splitlinesFrom read (line ++ rest) = splitlinesFrom (read ++ line) rest := by
  induction line generalizing read with
  | nil => rw [List.nil_append, List.append_nil]
  | cons c line ih =>
    rw [List.mem_cons, not_or] at hn hr
    rw [List.cons_append, splitlinesFrom_cons (Ne.symm hn.1) (Ne.symm hr.1), ih hn.2 hr.2,
      List.append_assoc, List.singleton_append]

/-- A text that has no end of a line in it, and something else. -/
structure IsLine (line : Text) : Prop where
  ne_nil : line ≠ []
  no_newline : '\n' ∉ line
  no_return : '\r' ∉ line

/-- Lines that are joined are split again. -/
theorem splitlines_join {lines : List Text} (h : ∀ line ∈ lines, IsLine line) :
    splitlines (join ['\n'] lines) = lines := by
  induction lines with
  | nil => rfl
  | cons line lines ih =>
    obtain ⟨hline, hrest⟩ := List.forall_mem_cons.mp h
    cases lines with
    | nil =>
      rw [join, splitlines, ← List.append_nil line,
        splitlinesFrom_append hline.no_newline hline.no_return, List.nil_append,
        splitlinesFrom, List.append_nil, if_neg]
      simpa using hline.ne_nil
    | cons next lines =>
      rw [join, splitlines, List.append_assoc,
        splitlinesFrom_append hline.no_newline hline.no_return, List.nil_append,
        List.singleton_append, splitlinesFrom, if_pos (.inl rfl)]
      · exact congrArg (line :: ·) (ih hrest)
      · intro _ h
        exact absurd h (by decide)
      · exact nofun

/-- Lines that each have an end are split again. -/
theorem splitlines_ended {lines : List Text}
    (h : ∀ line ∈ lines, '\n' ∉ line ∧ '\r' ∉ line) :
    splitlines (lines.flatMap (· ++ ['\n'])) = lines := by
  induction lines with
  | nil => rfl
  | cons line lines ih =>
    obtain ⟨hline, hrest⟩ := List.forall_mem_cons.mp h
    rw [List.flatMap_cons, splitlines, List.append_assoc,
      splitlinesFrom_append hline.1 hline.2, List.nil_append, List.singleton_append,
      splitlinesFrom, if_pos (.inl rfl)]
    · exact congrArg (line :: ·) (ih hrest)
    · intro _ hreturn
      exact absurd hreturn (by decide)

/-! ## `split` at a part -/

/-- The pieces between the occurrences of `part`, with what was read of the first one, after `skip`
more characters of an occurrence. -/
def splitByFrom (part : Text) : Nat → Text → Text → List Text
  | _, read, [] => [read]
  | skip + 1, read, _ :: rest => splitByFrom part skip read rest
  | 0, read, c :: rest =>
    if part.isPrefixOf (c :: rest) then
      read :: splitByFrom part (part.length - 1) [] rest
    else splitByFrom part 0 (read ++ [c]) rest

/-- `text.split(part)`. -/
def splitBy (text part : Text) : List Text := splitByFrom part 0 [] text

theorem splitByFrom_drop (skip : Nat) (read text : Text) :
    splitByFrom part skip read text = splitByFrom part 0 read (text.drop skip) := by
  induction text generalizing skip with
  | nil =>
    rw [List.drop_nil]
    cases skip <;> rfl
  | cons c rest ih =>
    cases skip with
    | zero => rfl
    | succ skip =>
      rw [List.drop_succ_cons, ← ih]
      rfl

theorem splitByFrom_of_not_infix {read : Text} (h : ¬ part <:+: text) :
    splitByFrom part 0 read text = [read ++ text] := by
  induction text generalizing read with
  | nil => rw [splitByFrom, List.append_nil]
  | cons c rest ih =>
    have hprefix : ¬ part.isPrefixOf (c :: rest) = true := fun hp =>
      h (List.isPrefixOf_iff_prefix.mp hp).isInfix
    rw [splitByFrom, if_neg hprefix, ih fun hi => h (hi.trans (List.suffix_cons c rest).isInfix),
      List.append_assoc, List.singleton_append]

/-- An occurrence does not begin before the part, if its first character is not in the rest of
it. -/
theorem not_prefix_append {rest : Text} (hrest : c ∉ rest) (hbefore : ¬ (c :: rest) <:+: before)
    (hne : before ≠ []) : ¬ (c :: rest) <+: before ++ ((c :: rest) ++ after) := by
  intro h
  rcases Nat.lt_or_ge before.length (c :: rest).length with hlong | hshort
  · have hinside : before <+: c :: rest :=
      List.prefix_of_prefix_length_le (List.prefix_append _ _) h hlong.le
    obtain ⟨others, hothers⟩ := hinside
    have hsame : before ++ others <+: before ++ ((c :: rest) ++ after) := hothers ▸ h
    rw [List.prefix_append_right_inj] at hsame
    cases others with
    | nil =>
      rw [List.append_nil] at hothers
      rw [hothers] at hlong
      exact absurd hlong (Nat.lt_irrefl _)
    | cons d others =>
      have hd : d = c := (List.cons_prefix_cons.mp hsame).1
      obtain ⟨b, front, rfl⟩ := List.exists_cons_of_ne_nil hne
      refine hrest ?_
      rw [← (List.cons.inj hothers).2, hd]
      exact List.mem_append_right _ List.mem_cons_self
  · exact hbefore
      (List.prefix_of_prefix_length_le h (List.prefix_append _ _) hshort).isInfix

/-- A text with one occurrence. -/
theorem splitBy_append {rest : Text} (hrest : c ∉ rest) (hbefore : ¬ (c :: rest) <:+: before)
    (hafter : ¬ (c :: rest) <:+: after) :
    splitBy (before ++ ((c :: rest) ++ after)) (c :: rest) = [before, after] := by
  have hread : ∀ read : Text, splitByFrom (c :: rest) 0 read (before ++ ((c :: rest) ++ after)) =
      [read ++ before, after] := by
    induction before with
    | nil =>
      intro read
      have hprefix : (c :: rest).isPrefixOf (c :: (rest ++ after)) = true :=
        List.isPrefixOf_iff_prefix.mpr (List.prefix_append (c :: rest) after)
      rw [List.nil_append, List.cons_append, splitByFrom, if_pos hprefix, splitByFrom_drop,
        List.length_cons, Nat.add_sub_cancel, List.drop_left, splitByFrom_of_not_infix hafter,
        List.append_nil, List.nil_append]
    | cons d before ih =>
      intro read
      have hprefix := @not_prefix_append (d :: before) after c rest hrest hbefore nofun
      rw [List.cons_append] at hprefix ⊢
      rw [splitByFrom, if_neg fun hp => hprefix (List.isPrefixOf_iff_prefix.mp hp),
        ih fun hi => hbefore (hi.trans (List.suffix_cons d before).isInfix),
        List.append_assoc, List.singleton_append]
  exact hread []

/-! ## `split` at blanks -/

/-- A text that has no blank in it, and something else. -/
structure IsWord (word : Text) : Prop where
  ne_nil : word ≠ []
  no_space : ∀ c ∈ word, isSpace c = false

theorem words_append_space {space : Char} (hspace : isSpace space = true) (before after : Text) :
    words (before ++ space :: after) = words before ++ words after := by
  unfold words
  rw [List.splitOnP_append_cons _ _ hspace, List.filter_append]

theorem words_of_isWord {word : Text} (h : IsWord word) : words word = [word] := by
  have hnonempty : (!word.isEmpty) = true := by
    simpa using h.ne_nil
  unfold words
  rw [List.splitOnP_eq_singleton h.no_space, List.filter_cons, if_pos hnonempty, List.filter_nil]

/-- Blanks have no words. -/
theorem words_of_spaces (h : ∀ c ∈ text, isSpace c = true) : words text = [] := by
  induction text with
  | nil => rfl
  | cons c text ih =>
    obtain ⟨hc, hrest⟩ := List.forall_mem_cons.mp h
    have hwords := words_append_space hc [] text
    rw [ih hrest] at hwords
    exact hwords

/-- A word and what follows after a blank. -/
theorem words_word_append {word : Text} {space : Char} (hword : IsWord word)
    (hspace : isSpace space = true) (rest : Text) :
    words (word ++ space :: rest) = word :: words rest := by
  rw [words_append_space hspace, words_of_isWord hword, List.singleton_append]

end Text

end OvirtArt.CoreApi
