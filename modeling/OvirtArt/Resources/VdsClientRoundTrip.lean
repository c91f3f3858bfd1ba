import OvirtArt.Resources.VdsClient
import Mathlib.Data.List.Nodup

set_option autoImplicit false

/-!
# The arguments that `vds_client` passes on unchanged

The dictionary is written by `repr`, read by `shlex` in whichever mode the strings put it, and then
read as a literal.  None of this makes it heavier, and quotes and backslashes make it lighter unless
the strings come through unchanged.

The converse needs no analysis of how an argument is spoiled: it is enough that it weighs less.
The safe arguments are those whose strings keep the quotes closed and have no backslash that would
be taken for an escape.
-/

namespace OvirtArt.Resources.VdsClient

open OvirtArt.CoreApi OvirtArt.Foundation
open OvirtArt.CoreApi.PyLiteral
open OvirtArt.Foundation.ShellWords (Mode splitFrom splitFrom_plain splitFrom_ne_nil isBlank isQuote
  isPlain ne_of_isPlain)

/-- A text that `repr` writes for a raw one.  Quotes around a string are raw characters. -/
inductive Written : Text → Text → Prop
  | nil : Written [] []
  | char {c : Char} {text raw : Text} (hc : printable c = true) (hescape : c ≠ '\\')
      (h : Written text raw) : Written (c :: text) (c :: raw)
  | backslash {text raw : Text} (h : Written text raw) :
      Written ('\\' :: '\\' :: text) ('\\' :: raw)
  | apostrophe {text raw : Text} (h : Written text raw) :
      Written ('\\' :: '\'' :: text) ('\'' :: raw)
  | escaped {c : Char} {text raw : Text} (hbyte : c.toNat < 256) (hc : printable c = false)
      (h : Written text raw) : Written ('\\' :: (escapedChar c ++ text)) (c :: raw)

section

variable {text raw more others token word piece : Text} {c : Char} {phase : Phase}
variable {items : List (Text × Literal)} {value : Literal}

theorem Written.append (h : Written text raw) (hmore : Written more others) :
    Written (text ++ more) (raw ++ others) := by
  induction h with
  | nil => exact hmore
  | char hc hescape h ih => exact .char hc hescape ih
  | backslash h ih => exact .backslash ih
  | apostrophe h ih => exact .apostrophe ih
  | @escaped c text raw hbyte hc h ih =>
    rw [List.cons_append, List.append_assoc]
    exact .escaped hbyte hc ih

/-- Printable characters without a backslash are written as they are. -/
theorem Written.of_printable (hprintable : text.all printable = true) (hescape : '\\' ∉ text) :
    Written text text := by
  induction text with
  | nil => exact .nil
  | cons c text ih =>
    obtain ⟨hc, hrest⟩ := Bool.and_eq_true_iff.mp hprintable
    rw [List.mem_cons, not_or] at hescape
    exact .char hc (Ne.symm hescape.1) (ih hrest hescape.2)

theorem Written.bytes (h : Written text raw) : ∀ c ∈ raw, c.toNat < 256 := by
  induction h with
  | nil => exact nofun
  | @char c text raw hc hescape h ih =>
    have hlow := of_decide_eq_true (Bool.and_eq_true_iff.mp hc).2
    exact List.forall_mem_cons.mpr ⟨hlow.trans (by decide), ih⟩
  | backslash h ih => exact List.forall_mem_cons.mpr ⟨by decide, ih⟩
  | apostrophe h ih => exact List.forall_mem_cons.mpr ⟨by decide, ih⟩
  | escaped hbyte hc h ih => exact List.forall_mem_cons.mpr ⟨hbyte, ih⟩

theorem quoteFor_eq (text : Text) :
    quoteFor text = '\'' ∨ quoteFor text = '"' ∧ '"' ∉ text := by
  unfold quoteFor
  split
  · next h => exact .inr ⟨rfl, h.2⟩
  · exact .inl rfl

theorem written_reprChar {quote : Char} (hbyte : c.toNat < 256)
    (hquote : quote = '\'' ∨ c ≠ quote) : Written (reprChar quote c) [c] := by
  by_cases hescape : c = '\\'
  · rw [reprChar, if_pos (.inr hescape), hescape]
    exact .backslash .nil
  · by_cases hsame : c = quote
    · obtain rfl := hquote.resolve_right fun hne => hne hsame
      rw [reprChar, if_pos (.inl hsame), hsame]
      exact .apostrophe .nil
    · rw [reprChar_of_ne hsame hescape]
      cases hc : printable c with
      | true =>
        rw [shellChar_of_printable hc]
        exact .char hc hescape .nil
      | false =>
        rw [shellChar_of_not_printable hc, ← List.append_nil (escapedChar c)]
        exact .escaped hbyte hc .nil

theorem written_reprString (hbytes : ∀ c ∈ text, c.toNat < 256) :
    Written (reprString text) (rawStr text) := by
  have hdelimiter : Written [quoteFor text] [quoteFor text] := by
    rcases quoteFor_eq text with hquote | ⟨hquote, -⟩
    · rw [hquote]
      exact .char (by decide) (by decide) .nil
    · rw [hquote]
      exact .char (by decide) (by decide) .nil
  have hbody : ∀ quote, (quote = '\'' ∨ quote ∉ text) →
      Written (text.flatMap (reprChar quote)) text := by
    intro quote hquote
    clear hdelimiter
    induction text with
    | nil => exact .nil
    | cons c rest ih =>
      obtain ⟨hc, hrest⟩ := List.forall_mem_cons.mp hbytes
      rw [List.mem_cons, not_or] at hquote
      exact (written_reprChar hc (hquote.imp_right fun h => Ne.symm h.1)).append
        (ih hrest (hquote.imp_right And.right))
  have hquote : quoteFor text = '\'' ∨ quoteFor text ∉ text :=
    (quoteFor_eq text).imp_right fun h => by
      rw [h.1]
      exact h.2
  exact hdelimiter.append ((hbody _ hquote).append hdelimiter)

theorem printable_of_numberChar (h : numberChar c = true) : printable c = true ∧ c ≠ '\\' := by
  refine ⟨?_, ?_⟩
  · rcases Bool.or_eq_true_iff.mp h with hdigit | hmark
    · obtain ⟨hlow, hhigh⟩ := Char.isDigit_iff_toNat.mp hdigit
      have hzero : '0'.toNat = 48 := rfl
      have hnine : '9'.toNat = 57 := rfl
      have hc : 32 ≤ c.toNat ∧ c.toNat < 127 := by omega
      rw [printable, decide_eq_true hc.1, decide_eq_true hc.2]
      rfl
    · have hmarks : ".e+-L".toList.all printable = true := by decide
      exact List.all_eq_true.mp hmarks c (of_decide_eq_true hmark)
  · rintro rfl
    exact absurd h (by decide)

theorem written_writeLiteral (hvalue : value.finite = true)
    (hstring : ∀ string, value = .str string → Written (reprString string) (rawStr string)) :
    Written (writeLiteral reprString value) (writeLiteral rawStr value) := by
  rcases str_or_number value with ⟨string, rfl⟩ | hnumber
  · exact hstring string rfl
  · have hchars : ∀ c ∈ writeLiteral reprString value, printable c = true ∧ c ≠ '\\' :=
      fun c hc => printable_of_numberChar (all_numberChar hnumber hvalue c hc)
    rw [@writeLiteral_number rawStr value hnumber reprString]
    exact Written.of_printable (List.all_eq_true.mpr fun c hc => (hchars c hc).1)
      fun hmem => (hchars _ hmem).2 rfl

theorem written_writeItems (hvalues : ∀ item ∈ items, item.2.finite = true)
    (hbytes : ∀ text ∈ stringsOf items, ∀ c ∈ text, c.toNat < 256) :
    Written (writeItems reprString items) (writeItems rawStr items) := by
  have hcomma : Written [',', ' '] [',', ' '] := .of_printable (by decide) (by decide)
  have hcolon : Written [':', ' '] [':', ' '] := .of_printable (by decide) (by decide)
  have hend : Written ['}'] ['}'] := .of_printable (by decide) (by decide)
  induction items with
  | nil => exact hend
  | cons item rest ih =>
    obtain ⟨hvalue, hrest⟩ := List.forall_mem_cons.mp hvalues
    have hkey := written_reprString (hbytes item.1 (mem_stringsOf_cons.mpr (.inl (.inl rfl))))
    have hwritten := written_writeLiteral hvalue fun string hstring =>
      written_reprString (hbytes string (mem_stringsOf_cons.mpr (.inl (.inr hstring))))
    have hothers := ih hrest fun text htext => hbytes text (mem_stringsOf_cons.mpr (.inr htext))
    cases rest with
    | nil => exact hkey.append (hcolon.append (hwritten.append hend))
    | cons next rest =>
      exact hkey.append (hcolon.append (hwritten.append (hcomma.append hothers)))

variable {args : Args} {read : List (Text × Literal)} {action : Action} {rest : Text} {mode : Mode}

theorem written_reprDict (hfinite : ∀ item ∈ args.items, item.2.finite = true) :
    Written (reprDict args.items) (writeDict rawStr args.items) :=
  .char (by decide) (by decide) (written_writeItems hfinite args.bytes)

/-! ## What the characters cost -/

theorem cost_le_weight (phase : Phase) (text : Text) : cost phase text ≤ textWeight text := by
  induction text generalizing phase with
  | nil => exact Nat.zero_le _
  | cons c text ih =>
    rw [cost_cons, textWeight_cons]
    exact Nat.add_le_add (price_le phase c) (ih _)

theorem cost_append (phase : Phase) (piece more : Text) :
    cost phase (piece ++ more) = cost phase piece + cost (piece.foldl Phase.next phase) more := by
  induction piece generalizing phase with
  | nil => exact (Nat.zero_add _).symm
  | cons c piece ih =>
    rw [List.cons_append, cost_cons, ih, cost_cons, List.foldl_cons, Nat.add_assoc]

/-- A backslash pays for the escape behind it. -/
theorem cost_behind_backslash (hweight : textWeight piece ≤ 4) (hescape : cost .escape piece = 0)
    (phase : Phase) : cost phase ('\\' :: piece) ≤ 4 := by
  cases phase with
  | text =>
    rw [cost_text_escape, hescape]
  | escape =>
    rw [cost_cons]
    exact (Nat.zero_add _).le.trans ((cost_le_weight _ _).trans hweight)
  | high =>
    rw [cost_cons]
    exact (Nat.zero_add _).le.trans ((cost_le_weight _ _).trans hweight)
  | low =>
    rw [cost_cons]
    exact (Nat.zero_add _).le.trans ((cost_le_weight _ _).trans hweight)

theorem escapedChar_weight (hbyte : c.toNat < 256) : textWeight (escapedChar c) ≤ 3 := by
  have hdigit : ∀ n < 16, charWeight (Nat.digitChar n) ≤ 1 := fun n hn =>
    have hne := ne_of_isPlain (digitChar_plain n hn).2
    charWeight_printable (digitChar_plain n hn).1 hne.2.2 hne.1 hne.2.1
  obtain ⟨hhigh, hlow⟩ := toNat_lt_of_byte hbyte
  have hhighWeight := hdigit _ hhigh
  have hlowWeight := hdigit _ hlow
  have hx : charWeight 'x' = 1 := rfl
  have hnil : textWeight [] = 0 := rfl
  unfold escapedChar
  split_ifs
  · decide
  · decide
  · decide
  · simp only [hexByte, textWeight_cons, hnil, hx]
    omega

/-- An escape that `repr` writes costs nothing behind its backslash. -/
theorem cost_escapedChar (c : Char) (more : Text) :
    cost .escape (escapedChar c ++ more) = cost .text more := by
  unfold escapedChar
  split_ifs
  · exact Nat.zero_add _
  · exact Nat.zero_add _
  · exact Nat.zero_add _
  · exact (Nat.zero_add _).trans ((Nat.zero_add _).trans (Nat.zero_add _))

/-- A character costs at most its weight however it is written. -/
theorem cost_singleton_le (phase : Phase) (c : Char) : cost phase [c] ≤ charWeight c :=
  price_le phase c

theorem cost_written_escape (hbyte : c.toNat < 256) (hc : printable c = false) (phase : Phase) :
    cost phase ('\\' :: escapedChar c) ≤ charWeight c := by
  have hweight : textWeight (escapedChar c) ≤ 4 := (escapedChar_weight hbyte).trans (by decide)
  have hescape : cost .escape (escapedChar c) = 0 := by
    rw [← List.append_nil (escapedChar c), cost_escapedChar]
    rfl
  rw [charWeight_not_printable hc]
  exact cost_behind_backslash hweight hescape phase

/-! ## What `shlex` makes of the dictionary -/

/-- From `mode`, with `token` read already, the word is read to the end of the command.  What is
added to it costs at most the weight of the raw text, and less where a quotation mark ends the
quotation. -/
def Leaves (mode : Mode) (token word raw : Text) : Prop :=
  ∃ out, word = token ++ (out ++ [')']) ∧
    (∀ phase, cost phase out ≤ textWeight raw) ∧
    (mode = .quoted '"' → '"' ∈ raw → ∀ phase, cost phase out < textWeight raw)

/-- A character adds something that costs no more. -/
theorem Leaves.step {next : Mode} (h : Leaves next (token ++ piece) word raw)
    (hpiece : ∀ phase, cost phase piece ≤ charWeight c)
    (hmode : mode = .quoted '"' → next = .quoted '"' ∧ c ≠ '"') :
    Leaves mode token word (c :: raw) := by
  obtain ⟨out, hword, hcost, hless⟩ := h
  refine ⟨piece ++ out, ?_, fun phase => ?_, fun hquoted hmem phase => ?_⟩
  · rw [hword, List.append_assoc, List.append_assoc]
  · rw [cost_append, textWeight_cons]
    exact Nat.add_le_add (hpiece phase) (hcost _)
  · obtain ⟨hnext, hc⟩ := hmode hquoted
    have hraw : '"' ∈ raw := (List.mem_cons.mp hmem).resolve_left (Ne.symm hc)
    rw [cost_append, textWeight_cons]
    exact Nat.add_lt_add_of_le_of_lt (hpiece phase) (hless hnext hraw _)

/-- A quote that changes the mode adds nothing. -/
theorem Leaves.drop {next : Mode} (h : Leaves next token word raw) (hc : charWeight c = 4) :
    Leaves mode token word (c :: raw) := by
  obtain ⟨out, hword, hcost, -⟩ := h
  have hless : ∀ phase, cost phase out < textWeight (c :: raw) := by
    intro phase
    rw [textWeight_cons, hc]
    exact (hcost phase).trans_lt (Nat.lt_add_of_pos_left (by decide))
  exact ⟨out, hword, fun phase => (hless phase).le, fun _ _ => hless⟩

/-- The rest of the command, behind the dictionary. -/
def ending : Text := [')', '"']

/-- What is behind a blank is more than no word. -/
theorem splitFrom_ending_ne_nil (text : Text) : splitFrom .between [] (text ++ ending) ≠ some [] :=
  splitFrom_ne_nil (.inr ⟨')', List.mem_append_right _ List.mem_cons_self, rfl⟩)

/-- A printable character other than the backslash. -/
theorem leaves_char (hescape : c ≠ '\\')
    (ih : ∀ {mode : Mode} {token : Text}, mode = .word ∨ mode = .quoted '\'' ∨ mode = .quoted '"' →
      splitFrom mode token (text ++ ending) = some [word] → Leaves mode token word raw)
    (hmode : mode = .word ∨ mode = .quoted '\'' ∨ mode = .quoted '"')
    (hsplit : splitFrom mode token (c :: (text ++ ending)) = some [word]) :
    Leaves mode token word (c :: raw) := by
  have hone := fun phase => cost_singleton_le phase c
  rcases hmode with rfl | rfl | rfl
  · by_cases hblank : isBlank c = true
    · rw [splitFrom, if_pos hblank] at hsplit
      obtain ⟨others, hothers, hcons⟩ := Option.map_eq_some_iff.mp hsplit
      rw [List.tail_eq_of_cons_eq hcons] at hothers
      exact absurd hothers (splitFrom_ending_ne_nil text)
    · rw [splitFrom, if_neg hblank] at hsplit
      split at hsplit
      · next hquote =>
          rcases List.mem_pair.mp (of_decide_eq_true hquote) with rfl | rfl
          · exact (ih (.inr (.inl rfl)) hsplit).drop rfl
          · exact (ih (.inr (.inr rfl)) hsplit).drop rfl
      · exact (ih (.inl rfl) hsplit).step hone fun hmode => by cases hmode
  · rw [splitFrom] at hsplit
    split at hsplit
    · next hquote =>
        subst hquote
        exact (ih (.inl rfl) hsplit).drop rfl
    · rw [if_neg fun h => hescape h.1] at hsplit
      exact (ih (.inr (.inl rfl)) hsplit).step hone fun hmode => by cases hmode
  · rw [splitFrom] at hsplit
    split at hsplit
    · next hquote =>
        subst hquote
        exact (ih (.inl rfl) hsplit).drop rfl
    · next hmark =>
        rw [if_neg fun h => hescape h.1] at hsplit
        exact (ih (.inr (.inr rfl)) hsplit).step hone fun _ => ⟨rfl, hmark⟩

/-- An escape for a character that is not printable. -/
theorem leaves_escaped (hbyte : c.toNat < 256) (hc : printable c = false)
    (ih : ∀ {mode : Mode} {token : Text}, mode = .word ∨ mode = .quoted '\'' ∨ mode = .quoted '"' →
      splitFrom mode token (text ++ ending) = some [word] → Leaves mode token word raw)
    (hmode : mode = .word ∨ mode = .quoted '\'' ∨ mode = .quoted '"')
    (hsplit : splitFrom mode token ('\\' :: (escapedChar c ++ text) ++ ending) = some [word]) :
    Leaves mode token word (c :: raw) := by
  have hplain := escapedChar_plain hbyte
  have hkept := cost_written_escape hbyte hc
  have hbare : ∀ phase, cost phase (escapedChar c) ≤ charWeight c := by
    intro phase
    rw [charWeight_not_printable hc]
    exact (cost_le_weight _ _).trans ((escapedChar_weight hbyte).trans (by decide))
  obtain ⟨d, more, hchars⟩ := List.exists_cons_of_ne_nil (escapedChar_ne_nil c)
  rw [hchars] at hplain hkept hbare hsplit
  obtain ⟨hd, hmore⟩ := List.forall_mem_cons.mp hplain
  obtain ⟨-, hmark, hescape⟩ := ne_of_isPlain hd
  have hmark' : c ≠ '"' := by
    rintro rfl
    exact absurd hc (by decide)
  simp only [List.cons_append, List.append_assoc] at hsplit
  rcases hmode with rfl | rfl | rfl
  · have hread : splitFrom .word (token ++ [d]) (more ++ (text ++ ending)) = some [word] :=
      hsplit
    rw [splitFrom_plain (.inl rfl) hmore, List.append_assoc] at hread
    exact (ih (.inl rfl) hread).step hbare nofun
  · have hread : splitFrom (.quoted '\'') (token ++ ['\\']) (d :: more ++ (text ++ ending)) =
        some [word] := hsplit
    rw [splitFrom_plain (.inr (.inl rfl)) hplain, List.append_assoc] at hread
    exact (ih (.inr (.inl rfl)) hread).step hkept nofun
  · have hread : splitFrom (.quoted '"') (token ++ ['\\', d]) (more ++ (text ++ ending)) =
        some [word] := by
      rw [← hsplit, splitFrom, if_neg (by decide), if_pos ⟨rfl, rfl⟩, splitFrom,
        if_pos ⟨hescape, hmark⟩]
    rw [splitFrom_plain (.inr (.inr rfl)) hmore, List.append_assoc] at hread
    exact (ih (.inr (.inr rfl)) hread).step hkept fun _ => ⟨rfl, hmark'⟩

theorem leaves_of_split (h : Written text raw)
    (hmode : mode = .word ∨ mode = .quoted '\'' ∨ mode = .quoted '"')
    (hsplit : splitFrom mode token (text ++ ending) = some [word]) :
    Leaves mode token word raw := by
  induction h generalizing mode token with
  | nil =>
    rcases hmode with rfl | rfl | rfl
    · exact nomatch hsplit
    · exact nomatch hsplit
    · refine ⟨[], ?_, fun _ => le_rfl, fun _ hmem => nomatch hmem⟩
      exact (List.head_eq_of_cons_eq (Option.some.inj hsplit)).symm
  | @char c text raw hc hescape h ih => exact leaves_char hescape ih hmode hsplit
  | @backslash text raw h ih =>
    have hone : ∀ phase, cost phase ['\\'] ≤ charWeight '\\' :=
      fun phase => cost_singleton_le phase _
    have htwo : ∀ phase, cost phase ['\\', '\\'] ≤ charWeight '\\' :=
      cost_behind_backslash (by decide) rfl
    rcases hmode with rfl | rfl | rfl
    · exact (ih (.inl rfl) hsplit).step hone nofun
    · have hread : splitFrom (.quoted '\'') (token ++ ['\\'] ++ ['\\']) (text ++ ending) =
          some [word] := hsplit
      rw [List.append_assoc] at hread
      exact (ih (.inr (.inl rfl)) hread).step htwo nofun
    · exact (ih (.inr (.inr rfl)) hsplit).step hone fun _ => ⟨rfl, by decide⟩
  | @apostrophe text raw h ih =>
    have hone : ∀ phase, cost phase ['\''] ≤ charWeight '\'' :=
      fun phase => cost_singleton_le phase _
    have hescape : ∀ phase, cost phase ['\\'] ≤ charWeight '\'' :=
      fun phase => cost_singleton_le phase _
    have htwo : ∀ phase, cost phase ['\\', '\''] ≤ charWeight '\'' :=
      cost_behind_backslash (by decide) rfl
    rcases hmode with rfl | rfl | rfl
    · exact (ih (.inl rfl) hsplit).step hone nofun
    · exact (ih (.inl rfl) hsplit).step hescape nofun
    · exact (ih (.inr (.inr rfl)) hsplit).step htwo fun _ => ⟨rfl, by decide⟩
  | @escaped c text raw hbyte hc h ih => exact leaves_escaped hbyte hc ih hmode hsplit

/-! ## Strings with quotes do not come back -/

theorem mem_rawStr (h : ¬Unquoted text) : '"' ∈ rawStr text := by
  by_cases hmark : '"' ∈ text
  · exact List.mem_cons_of_mem _ (List.mem_append_left _ hmark)
  · have hquote : '\'' ∈ text := by
      by_contra hno
      exact h ⟨hno, hmark⟩
    rw [rawStr, quoteFor, if_pos ⟨hquote, hmark⟩]
    exact List.mem_cons_self

theorem rawStr_subset (h : text ∈ stringsOf items) : rawStr text ⊆ writeItems rawStr items := by
  induction items with
  | nil => exact nomatch h
  | cons item rest ih =>
    have hkey : rawStr item.1 ⊆ writeItems rawStr (item :: rest) := by
      cases rest with
      | nil => exact List.subset_append_left _ _
      | cons next rest => exact List.subset_append_left _ _
    have hvalue : writeLiteral rawStr item.2 ⊆ writeItems rawStr (item :: rest) := by
      intro c hc
      cases rest with
      | nil =>
        exact List.mem_append_right _ (List.mem_cons_of_mem _ (List.mem_cons_of_mem _
          (List.mem_append_left _ hc)))
      | cons next rest =>
        exact List.mem_append_right _ (List.mem_cons_of_mem _ (List.mem_cons_of_mem _
          (List.mem_append_left _ hc)))
    rcases mem_stringsOf_cons.mp h with (rfl | hliteral) | hrest
    · exact hkey
    · rw [hliteral] at hvalue
      exact hvalue
    · cases rest with
      | nil => exact nomatch hrest
      | cons next rest =>
        intro c hc
        exact List.mem_append_right _ (List.mem_cons_of_mem _ (List.mem_cons_of_mem _
          (List.mem_append_right _ (List.mem_cons_of_mem _ (List.mem_cons_of_mem _
            (ih hrest hc))))))

theorem subset_of_sameDict (hsame : tableOf read = tableOf args.items) : args.items ⊆ read := by
  intro item hitem
  have hfound := tableOf_of_mem args.keys hitem
  rw [← hsame] at hfound
  exact mem_of_tableOf hfound

/-- What comes back is finite. -/
theorem finite_of_roundTrips (h : RoundTrips action args) :
    ∀ item ∈ args.items, item.2.finite = true := by
  obtain ⟨literal, read, -, hread, hsame⟩ := h
  exact fun item hitem => readDict_finite hread item (subset_of_sameDict hsame hitem)

/-- Where a dictionary comes back, the command leaves as much as was written. -/
theorem weight_le_cost {literal : Text} (hread : readDict literal = some read)
    (hsame : tableOf read = tableOf args.items) (hne : args.items ≠ []) :
    textWeight (writeDict rawStr args.items) ≤ cost .text literal := by
  have hnodup : args.items.Nodup := List.Nodup.of_map Prod.fst args.keys
  have hsub : args.items.Subperm read := hnodup.subperm (subset_of_sameDict hsame)
  rw [textWeight_writeDict hne]
  exact (Nat.add_le_add_left (itemsWeight_le_of_subperm hsub) 1).trans (readDict_weight hread)

theorem items_ne_nil (h : text ∈ stringsOf args.items) : args.items ≠ [] := by
  intro hempty
  rw [hempty] at h
  exact nomatch h

/-- The program is read from the dictionary as it is written. -/
theorem leaves_of_roundTrips {literal : Text} (hfinite : ∀ item ∈ args.items, item.2.finite = true)
    (h : ShellWords.split (command action.text (reprDict args.items)) =
      some ["python".toList, "-c".toList, programText action.text literal]) :
    Leaves (.quoted '"') (beginning action.text) (programText action.text literal)
      (writeDict rawStr args.items) := by
  rw [split_command] at h
  obtain ⟨words, hwords, hpython⟩ := Option.map_eq_some_iff.mp h
  obtain ⟨program, hprogram, hc⟩ := Option.map_eq_some_iff.mp hwords
  have hsingle : program = [programText action.text literal] := by
    rw [← hc] at hpython
    exact List.tail_eq_of_cons_eq (List.tail_eq_of_cons_eq hpython)
  rw [hsingle] at hprogram
  exact leaves_of_split (written_reprDict hfinite) (.inr (.inr rfl)) hprogram

theorem unquoted_of_roundTrips (h : RoundTrips action args) :
    ∀ text ∈ stringsOf args.items, Unquoted text := by
  intro text htext
  by_contra hquoted
  have hfinite := finite_of_roundTrips h
  obtain ⟨literal, read, hsplit, hread, hsame⟩ := h
  obtain ⟨out, hword, -, hless⟩ := leaves_of_roundTrips hfinite hsplit
  have hout : out = literal := by
    rw [programText_eq, List.append_assoc] at hword
    exact (List.append_cancel_right (List.append_cancel_left hword)).symm
  have hmark : '"' ∈ writeDict rawStr args.items :=
    List.mem_cons_of_mem _ (rawStr_subset htext (mem_rawStr hquoted))
  have hlight := hless rfl hmark .text
  rw [hout] at hlight
  exact absurd (weight_le_cost hread hsame (items_ne_nil htext)) (Nat.not_le_of_lt hlight)

/-! ## Backslashes that do not stay -/

theorem shellText_append (text more : Text) :
    shellText (text ++ more) = shellText text ++ shellText more := List.flatMap_append

theorem shellText_cons_of_printable (hc : printable c = true) (text : Text) :
    shellText (c :: text) = c :: shellText text := by
  rw [shellText_cons, shellChar_of_printable hc]
  rfl

theorem shellText_of_printable (h : ∀ c ∈ text, printable c = true) : shellText text = text := by
  induction text with
  | nil => rfl
  | cons c text ih =>
    obtain ⟨hc, hrest⟩ := List.forall_mem_cons.mp h
    rw [shellText_cons_of_printable hc, ih hrest]

theorem shellText_rawStr (h : Unquoted text) : shellText (rawStr text) = shellStr text := by
  have hquote : quoteFor text = '\'' := if_neg fun hand => h.1 hand.1
  rw [rawStr, hquote]
  exact congrArg ('\'' :: ·) (shellText_append text ['\''])

theorem shellText_writeLiteral (hvalue : value.finite = true)
    (hunquoted : ∀ string, value = .str string → Unquoted string) :
    shellText (writeLiteral rawStr value) = writeLiteral shellStr value := by
  rcases str_or_number value with ⟨string, rfl⟩ | hnumber
  · exact shellText_rawStr (hunquoted string rfl)
  · rw [@writeLiteral_number shellStr value hnumber rawStr]
    exact shellText_of_printable fun c hc =>
      (printable_of_numberChar (all_numberChar hnumber hvalue c hc)).1

theorem shellText_writeItems (hvalues : ∀ item ∈ items, item.2.finite = true)
    (hunquoted : ∀ text ∈ stringsOf items, Unquoted text) :
    shellText (writeItems rawStr items) = writeItems shellStr items := by
  have hcolon := @shellText_cons_of_printable ':' (by decide)
  have hblank := @shellText_cons_of_printable ' ' (by decide)
  have hcomma := @shellText_cons_of_printable ',' (by decide)
  induction items with
  | nil => rfl
  | cons item rest ih =>
    obtain ⟨hvalue, hrest⟩ := List.forall_mem_cons.mp hvalues
    have hkey := shellText_rawStr (hunquoted item.1 (mem_stringsOf_cons.mpr (.inl (.inl rfl))))
    have hwritten := shellText_writeLiteral hvalue fun string hstring =>
      hunquoted string (mem_stringsOf_cons.mpr (.inl (.inr hstring)))
    have hothers := ih hrest fun text htext =>
      hunquoted text (mem_stringsOf_cons.mpr (.inr htext))
    cases rest with
    | nil =>
      rw [writeItems, writeItems, shellText_append, hkey, hcolon, hblank, shellText_append,
        hwritten]
      rfl
    | cons next rest =>
      have hne := List.cons_ne_nil next rest
      rw [writeItems_cons _ item hne, writeItems_cons _ item hne, shellText_append, hkey,
        hcolon, hblank, shellText_append, hwritten, hcomma, hblank, hothers]

theorem cost_shellChar_le (hbyte : c.toNat < 256) (phase : Phase) :
    cost phase (shellChar c) ≤ charWeight c := by
  cases hc : printable c with
  | true =>
    rw [shellChar_of_printable hc]
    exact cost_singleton_le phase c
  | false =>
    rw [shellChar_of_not_printable hc]
    exact cost_written_escape hbyte hc phase

theorem cost_shellText_le (hbytes : ∀ c ∈ text, c.toNat < 256) (phase : Phase) :
    cost phase (shellText text) ≤ textWeight text := by
  induction text generalizing phase with
  | nil => exact le_rfl
  | cons c text ih =>
    obtain ⟨hc, hrest⟩ := List.forall_mem_cons.mp hbytes
    rw [shellText_cons, cost_append, textWeight_cons]
    exact Nat.add_le_add (cost_shellChar_le hc phase) (ih hrest _)

theorem charWeight_pos (h : beginsEscape c = true) : 0 < charWeight c := by
  have hblank : c ≠ ' ' := by
    rintro rfl
    exact absurd h (by decide)
  rw [charWeight, if_neg hblank]
  split <;> decide

/-- The phase behind a backslash, and elsewhere in a text. -/
def phaseOf (behind : Bool) : Phase := if behind then .escape else .text

/-- Behind a backslash, that of an escape is free. -/
theorem cost_escape_escaped_lt {weight : Nat} (hbyte : c.toNat < 256) (hc : printable c = false)
    (hrest : cost .text text ≤ weight) :
    cost .escape ('\\' :: escapedChar c ++ text) < charWeight c + weight := by
  have hplain : '\\' ∉ escapedChar c := fun hmem =>
    (ne_of_isPlain (escapedChar_plain hbyte _ hmem)).2.2 rfl
  rw [charWeight_not_printable hc]
  refine (cost_cons .escape '\\' _).trans_lt ?_
  have hpaired : cost .text (escapedChar c ++ text) ≤ 3 + weight := by
    rw [cost_text_append hplain]
    exact Nat.add_le_add (escapedChar_weight hbyte) hrest
  exact (Nat.zero_add _).trans_lt (hpaired.trans_lt (Nat.add_lt_add_right (by decide) _))

/-- A backslash before a character that is not ordinary makes the text lighter. -/
theorem cost_shellText_lt {behind : Bool} (hbytes : ∀ c ∈ text, c.toNat < 256)
    (hstays : stays behind (text ++ ['}']) = false) :
    cost (phaseOf behind) (shellText text) < textWeight text := by
  induction text generalizing behind with
  | nil =>
    cases behind with
    | false => exact nomatch hstays
    | true => exact nomatch hstays
  | cons c text ih =>
    obtain ⟨hc, hrest⟩ := List.forall_mem_cons.mp hbytes
    rw [shellText_cons, textWeight_cons]
    cases behind with
    | false =>
      by_cases hescape : c = '\\'
      · subst hescape
        exact Nat.add_lt_add_left (ih hrest hstays) 4
      · have hlater : stays false (text ++ ['}']) = false := by
          rw [List.cons_append, stays_text, beq_eq_false_iff_ne.mpr hescape] at hstays
          exact hstays
        have hless : cost .text (shellText text) < textWeight text := ih hrest hlater
        cases hprintable : printable c with
        | true =>
          rw [shellChar_of_printable hprintable]
          refine (cost_text_cons hescape).trans_lt ?_
          exact Nat.add_lt_add_left hless _
        | false =>
          rw [shellChar_of_not_printable hprintable, charWeight_not_printable hprintable]
          refine cost_text_escape.trans_lt (Nat.add_lt_add_left ?_ 4)
          exact (cost_escapedChar c _).trans_lt hless
    | true =>
      have hlow := fun phase => cost_shellText_le hrest phase
      cases hprintable : printable c with
      | true =>
        rw [shellChar_of_printable hprintable]
        refine (cost_cons .escape c _).trans_lt ?_
        cases hbegins : beginsEscape c with
        | true =>
          have hfree : Phase.escape.price c = 0 := if_pos hbegins
          rw [hfree]
          exact Nat.add_lt_add_of_lt_of_le (charWeight_pos hbegins) (hlow _)
        | false =>
          have hlater : stays false (text ++ ['}']) = false := by
            rw [List.cons_append, stays_behind, ordinary, hprintable, hbegins] at hstays
            exact hstays
          have hx : c ≠ 'x' := by
            rintro rfl
            exact absurd hbegins (by decide)
          have hnext : Phase.escape.next c = .text := if_neg hx
          rw [hnext]
          exact Nat.add_lt_add_of_le_of_lt (price_le _ c) (ih hrest hlater)
      | false =>
        rw [shellChar_of_not_printable hprintable]
        exact cost_escape_escaped_lt hc hprintable (hlow _)

theorem stays_append_quote {behind : Bool} (h : stays behind (text ++ '\'' :: rest) = true) :
    stays behind text = true ∧ stays false rest = true := by
  induction text generalizing behind with
  | nil =>
    cases behind with
    | false => exact ⟨rfl, h⟩
    | true => exact nomatch h
  | cons c text ih =>
    cases behind with
    | false => exact ih h
    | true =>
      obtain ⟨hordinary, hlater⟩ := Bool.and_eq_true_iff.mp h
      obtain ⟨htext, hrest⟩ := ih hlater
      exact ⟨Bool.and_eq_true_iff.mpr ⟨hordinary, htext⟩, hrest⟩

theorem stays_append_plain (hplain : '\\' ∉ text) :
    stays false (text ++ rest) = stays false rest := by
  induction text with
  | nil => rfl
  | cons c text ih =>
    rw [List.mem_cons, not_or] at hplain
    rw [List.cons_append, stays_text, beq_eq_false_iff_ne.mpr (Ne.symm hplain.1), ih hplain.2]

/-- A string between quotes stays if what it is in does. -/
theorem stays_rawStr (hquote : quoteFor text = '\'') (h : stays false (rawStr text ++ rest) = true)
    :
    stays false text = true ∧ stays false rest = true := by
  rw [rawStr, hquote, List.cons_append, List.append_assoc] at h
  exact stays_append_quote h

theorem stays_writeLiteral (hvalue : value.finite = true)
    (hquote : ∀ string, value = .str string → quoteFor string = '\'')
    (h : stays false (writeLiteral rawStr value ++ rest) = true) :
    (∀ string, value = .str string → stays false string = true) ∧ stays false rest = true := by
  rcases str_or_number value with ⟨string, rfl⟩ | hnumber
  · obtain ⟨hstring, hrest⟩ := stays_rawStr (hquote string rfl) h
    refine ⟨fun other hother => ?_, hrest⟩
    rw [← Literal.str.inj hother]
    exact hstring
  · have hplain : '\\' ∉ writeLiteral rawStr value := fun hmem =>
      (printable_of_numberChar (all_numberChar hnumber hvalue _ hmem)).2 rfl
    refine ⟨?_, ?_⟩
    · rintro string rfl
      exact nomatch hnumber
    · rw [stays_append_plain hplain] at h
      exact h

theorem stays_of_writeItems (hvalues : ∀ item ∈ items, item.2.finite = true)
    (hunquoted : ∀ text ∈ stringsOf items, Unquoted text)
    (h : stays false (writeItems rawStr items ++ rest) = true) :
    ∀ text ∈ stringsOf items, stays false text = true := by
  have hquote : ∀ text ∈ stringsOf items, quoteFor text = '\'' := fun text htext =>
    if_neg fun hand => (hunquoted text htext).1 hand.1
  clear hunquoted
  induction items with
  | nil => exact nofun
  | cons item others ih =>
    obtain ⟨hvalue, hothers⟩ := List.forall_mem_cons.mp hvalues
    have hkeyQuote := hquote item.1 (mem_stringsOf_cons.mpr (.inl (.inl rfl)))
    have hvalueQuote : ∀ string, item.2 = .str string → quoteFor string = '\'' :=
      fun string hstring => hquote string (mem_stringsOf_cons.mpr (.inl (.inr hstring)))
    -- The item comes first, and what follows its value stays too.
    have hitem : ∀ behind : Text, stays false (rawStr item.1 ++ ':' :: ' ' ::
        (writeLiteral rawStr item.2 ++ behind)) = true →
          (stays false item.1 = true ∧
            ∀ string, item.2 = .str string → stays false string = true) ∧
            stays false behind = true := by
      intro behind hstays
      obtain ⟨hkey, hcolon⟩ := stays_rawStr hkeyQuote hstays
      obtain ⟨hliteral, hbehind⟩ := stays_writeLiteral hvalue hvalueQuote hcolon
      exact ⟨⟨hkey, hliteral⟩, hbehind⟩
    intro text htext
    by_cases hne : others = []
    · subst hne
      rw [writeItems, List.append_assoc, List.cons_append, List.cons_append,
        List.append_assoc] at h
      obtain ⟨⟨hkey, hliteral⟩, -⟩ := hitem _ h
      rcases mem_stringsOf_cons.mp htext with (rfl | hstring) | hnone
      · exact hkey
      · exact hliteral text hstring
      · cases hnone
    · rw [writeItems_cons _ item hne, List.append_assoc, List.cons_append, List.cons_append,
        List.append_assoc] at h
      obtain ⟨⟨hkey, hliteral⟩, hbehind⟩ := hitem _ h
      rcases mem_stringsOf_cons.mp htext with (rfl | hstring) | hmore
      · exact hkey
      · exact hliteral text hstring
      · exact ih hothers hbehind (fun other hother =>
          hquote other (mem_stringsOf_cons.mpr (.inr hother))) text hmore

/-- With safe arguments, the program that is run has their dictionary in it. -/
theorem vdsClient_safe {Reply : Type} {supportedActions : List Action}
    {runCommand : List Text → Int × Text} {literalEval : Text → Reply}
    (haction : supportedActions.find? (fun other => action.text == other.text) = some action)
    (hsafe : args.Safe) :
    ∃ literal, readDict literal = some args.items ∧
      vdsClient supportedActions action.text (some args) runCommand literalEval =
        .ok (if (runCommand ["python".toList, "-c".toList, programText action.text literal]).1 ≠ 0
          then none
          else some (literalEval (runCommand ["python".toList, "-c".toList,
            programText action.text literal]).2)) := by
  have hsplit := @split_unquoted action args hsafe.finite hsafe.unquoted
  refine ⟨_, readDict_writeDict hsafe, ?_⟩
  unfold vdsClient
  simp only [haction, Option.map_some, Option.getD_some, hsplit]
  split <;> rfl

/-- The arguments come back exactly if there are no quotes in their strings, every backslash stands
before a printable character with which it makes no escape, and the floats are finite. -/
theorem roundTrips_iff_safe (action : Action) (args : Args) :
    RoundTrips action args ↔ args.Safe := by
  constructor
  · intro h
    have hunquoted := unquoted_of_roundTrips h
    have hfinite := finite_of_roundTrips h
    obtain ⟨literal, read, hsplit, hread, hsame⟩ := h
    have hliteral : writeDict shellStr args.items = literal := by
      rw [split_unquoted hfinite hunquoted] at hsplit
      have hprogram := List.head_eq_of_cons_eq (List.tail_eq_of_cons_eq (List.tail_eq_of_cons_eq
        (Option.some.inj hsplit)))
      rw [programText_eq, programText_eq, List.append_assoc, List.append_assoc] at hprogram
      exact List.append_cancel_right (List.append_cancel_left hprogram)
    have hshell : shellText (writeDict rawStr args.items) = writeDict shellStr args.items :=
      congrArg ('{' :: ·) (shellText_writeItems hfinite hunquoted)
    have hstays : stays false (writeDict rawStr args.items ++ ['}']) = true := by
      by_cases hempty : args.items = []
      · rw [hempty]
        rfl
      · by_contra hno
        have hlight : cost .text (shellText (writeDict rawStr args.items)) <
            textWeight (writeDict rawStr args.items) :=
          cost_shellText_lt (written_reprDict hfinite).bytes (Bool.eq_false_iff.mpr hno)
        rw [hshell, hliteral] at hlight
        exact absurd (weight_le_cost hread hsame hempty) (Nat.not_le_of_lt hlight)
    exact ⟨hunquoted, stays_of_writeItems hfinite hunquoted hstays, hfinite⟩
  · intro hsafe
    exact ⟨_, _, split_unquoted hsafe.finite hsafe.unquoted, readDict_writeDict hsafe, rfl⟩

/-! ## A backslash that stays, and a password with an apostrophe -/

theorem fenceNode_plain :
    '"' ∉ "Host.fenceNode".toList ∧ '\\' ∉ "Host.fenceNode".toList := by decide

/-- The action that fences a node. -/
def fenceNode : Action := ⟨"Host.fenceNode".toList, fenceNode_plain.1, fenceNode_plain.2⟩

/-- Arguments whose strings are of one byte a character and whose floats are finite, as a check
finds. -/
def Args.checked (items : List (Text × Literal)) (hkeys : (items.map Prod.fst).Nodup)
    (hbytes : ((stringsOf items).all fun text => text.all fun c => decide (c.toNat < 256)) = true)
    (hfloats : (items.all fun item => item.2.finite) = true) : Args where
  items := items
  keys := hkeys
  bytes text htext c hc :=
    of_decide_eq_true (List.all_eq_true.mp (List.all_eq_true.mp hbytes text htext) c hc)
  floats item hitem := .inl (List.all_eq_true.mp hfloats item hitem)

/-- The arguments that fence a node; `\q` is no escape of a string. -/
def fenceArgs : Args :=
  .checked [("agent".toList, .str "rack\\qemu".toList), ("port".toList, .int 54321)]
    (by decide) (by decide) (by decide)

theorem fenceArgs_safe : fenceArgs.Safe where
  unquoted := List.forall_mem_cons.mpr ⟨by unfold Unquoted; decide, List.forall_mem_cons.mpr
    ⟨by unfold Unquoted; decide, List.forall_mem_singleton.mpr (by unfold Unquoted; decide)⟩⟩
  stays := List.forall_mem_cons.mpr ⟨by decide, List.forall_mem_cons.mpr
    ⟨by decide, List.forall_mem_singleton.mpr (by decide)⟩⟩
  finite := List.forall_mem_cons.mpr ⟨rfl, List.forall_mem_singleton.mpr rfl⟩

theorem vdsClient_safe_fenceNode : ∃ literal, readDict literal = some fenceArgs.items ∧
    vdsClient [fenceNode] fenceNode.text (some fenceArgs) (fun _ => (0, "done".toList)) id =
      .ok (some "done".toList) := by
  obtain ⟨literal, hread, hrun⟩ := @vdsClient_safe fenceArgs fenceNode _
    [fenceNode] (fun _ => (0, "done".toList)) id rfl fenceArgs_safe
  exact ⟨literal, hread, hrun⟩

/-- A password with a quote in it. -/
def passwordArgs : Args :=
  .checked [("password".toList, .str "it's".toList)] (by decide) (by decide) (by decide)

/-- `shlex` finds no end of the quotation that the apostrophe begins. -/
theorem not_roundTrips_password : ¬RoundTrips fenceNode passwordArgs := by
  rintro ⟨literal, read, hsplit, -, -⟩
  have hnone : ∀ token : Text, splitFrom (.quoted '"') token
      (reprDict passwordArgs.items ++ [')', '"']) = none := fun _ => rfl
  rw [split_command, hnone] at hsplit
  exact nomatch hsplit

end

end OvirtArt.Resources.VdsClient
