import OvirtArt.CoreApi.LiteralWeight
import OvirtArt.Foundation.Overwrites
import OvirtArt.Foundation.ShellWords

set_option autoImplicit false

/-!
# `vds_client` of `rhevm_api/resources/vds.py`

A call of a method is written as a Python program between quotation marks, and the command is split
by `shlex`.  The program has the arguments in it as `repr` writes them.

The supported actions are given, and what is made of the output is a parameter.  Unicode strings
are left out: a string is one of bytes.
-/

namespace OvirtArt.Resources.VdsClient

open OvirtArt.CoreApi OvirtArt.Foundation
open OvirtArt.CoreApi.PyLiteral
open OvirtArt.Foundation.ShellWords (DoubleQuoted isPlain ne_of_isPlain)

/-- The name of a method, which is a key of the file of supported actions. -/
structure Action where
  text : Text
  no_quote : '"' ∉ text
  no_escape : '\\' ∉ text

/-- The strings of a dictionary: its keys, and the values that are strings. -/
def stringsOf (items : List (Text × Literal)) : List Text :=
  items.flatMap fun item =>
    match item.2 with
    | .str text => [item.1, text]
    | _ => [item.1]

/-- The text of a float that is infinite or not a number. -/
def NotFinite (text : Text) : Prop :=
  text = "inf".toList ∨ text = "-inf".toList ∨ text = "nan".toList

/-- The arguments, in the order in which the dictionary is gone through. -/
structure Args where
  items : List (Text × Literal)
  keys : (items.map Prod.fst).Nodup
  bytes : ∀ text ∈ stringsOf items, ∀ c ∈ text, c.toNat < 256
  floats : ∀ item ∈ items, item.2.finite = true ∨ ∃ text, item.2 = .float text ∧ NotFinite text

/-- `shlex.split` cannot split the command. -/
inductive VdsException where
  | valueError
  deriving DecidableEq, Repr

/-! ## The source -/

/-- The program up to the name of the method. -/
def programStart : Text :=
  "from vdsm import client;cli = client.connect('localhost', 54321, use_tls=True);".toList ++
    "print cli.".toList

/-- The program, with the text of its dictionary. -/
def programText (action literal : Text) : Text :=
  programStart ++ action ++ "(**".toList ++ literal ++ [')']

/-- The command. -/
def command (action literal : Text) : Text :=
  "python -c \"".toList ++ programText action literal ++ ['"']

/-- `vds_client`, where `runCommand` gives the exit status and the output of a command, and
`literalEval` is `ast.literal_eval`. -/
def vdsClient {Reply : Type} (supportedActions : List Action) (cmd : Text) (args : Option Args)
    (runCommand : List Text → Int × Text) (literalEval : Text → Reply) :
    Except VdsException (Option Reply) :=
  match supportedActions.find? fun action => cmd == action.text with
  | none => .ok none
  | some action =>
    match ShellWords.split (command action.text (reprDict ((args.map Args.items).getD []))) with
    | none => .error .valueError
    | some words =>
      if (runCommand words).1 ≠ 0 then .ok none
      else .ok (some (literalEval (runCommand words).2))

/-! ## What is asked of it -/

/-- The command is split into three words, and the literal in the program is evaluated to the
dictionary of the arguments. -/
def RoundTrips (action : Action) (args : Args) : Prop :=
  ∃ literal read, ShellWords.split (command action.text (reprDict args.items)) =
      some ["python".toList, "-c".toList, programText action.text literal] ∧
    readDict literal = some read ∧ tableOf read = tableOf args.items

/-- The character is printable, and begins no escape behind a backslash. -/
def ordinary (c : Char) : Bool := printable c && !beginsEscape c

/-- Each backslash stands before an ordinary character; `behind` one is where the text begins. -/
def stays : (behind : Bool) → Text → Bool
  | behind, [] => !behind
  | true, c :: rest => ordinary c && stays false rest
  | false, c :: rest => stays (c == '\\') rest

@[simp] theorem stays_text (c : Char) (rest : Text) :
    stays false (c :: rest) = stays (c == '\\') rest := rfl

@[simp] theorem stays_behind (c : Char) (rest : Text) :
    stays true (c :: rest) = (ordinary c && stays false rest) := rfl

/-- There is no apostrophe and no quotation mark in the text. -/
def Unquoted (text : Text) : Prop := '\'' ∉ text ∧ '"' ∉ text

/-- The strings come through unchanged, and the floats are finite. -/
structure Args.Safe (args : Args) : Prop where
  unquoted : ∀ text ∈ stringsOf args.items, Unquoted text
  stays : ∀ text ∈ stringsOf args.items, stays false text = true
  finite : ∀ item ∈ args.items, item.2.finite = true

/-! ## What `shlex` makes of the command -/

/-- What is left of a character of a string. -/
def shellChar (c : Char) : Text := if printable c then [c] else '\\' :: escapedChar c

/-- The text as the command line quotes it. -/
def shellText (text : Text) : Text := text.flatMap shellChar

/-- What is left of a string. -/
def shellStr (text : Text) : Text := '\'' :: (shellText text ++ ['\''])

section

variable {text out rest : Text} {c quote : Char} {value : Literal} {items : List (Text × Literal)}

/-- The digits and letters of an escape. -/
theorem digitChar_plain : ∀ n < 16,
    printable (Nat.digitChar n) = true ∧ isPlain (Nat.digitChar n) = true := by
  decide

theorem escapedChar_plain (hbyte : c.toNat < 256) : ∀ d ∈ escapedChar c, isPlain d = true := by
  intro d hd
  unfold escapedChar at hd
  split at hd
  · rw [List.mem_singleton.mp hd]
    decide
  · split at hd
    · rw [List.mem_singleton.mp hd]
      decide
    · split at hd
      · rw [List.mem_singleton.mp hd]
        decide
      · obtain ⟨hhigh, hlow⟩ := toNat_lt_of_byte hbyte
        rcases List.mem_cons.mp hd with rfl | hd
        · decide
        · rcases List.mem_cons.mp hd with rfl | hd
          · exact (digitChar_plain _ hhigh).2
          · rw [List.mem_singleton.mp hd]
            exact (digitChar_plain _ hlow).2

theorem escapedChar_ne_nil (c : Char) : escapedChar c ≠ [] := by
  unfold escapedChar
  split_ifs <;> exact List.cons_ne_nil _ _

theorem shellText_cons (c : Char) (text : Text) :
    shellText (c :: text) = shellChar c ++ shellText text := List.flatMap_cons

theorem shellChar_of_printable (hc : printable c = true) : shellChar c = [c] := if_pos hc

theorem shellChar_of_not_printable (hc : printable c = false) :
    shellChar c = '\\' :: escapedChar c := if_neg (Bool.eq_false_iff.mp hc)

theorem reprChar_of_ne (hquote : c ≠ quote) (hescape : c ≠ '\\') :
    reprChar quote c = shellChar c := by
  rw [reprChar, if_neg fun h => h.elim hquote hescape, shellChar]

theorem doubleQuoted_reprChar (hbyte : c.toNat < 256) (hquote : c ≠ '\'') (hmark : c ≠ '"') :
    DoubleQuoted (reprChar '\'' c) (shellChar c) := by
  by_cases hescape : c = '\\'
  · rw [hescape]
    exact .backslash .nil
  · rw [reprChar_of_ne hquote hescape]
    cases hc : printable c with
    | true =>
      rw [shellChar_of_printable hc]
      exact .char hmark hescape .nil
    | false =>
      have hplain := escapedChar_plain hbyte
      rw [shellChar_of_not_printable hc]
      obtain ⟨d, more, hchars⟩ := List.exists_cons_of_ne_nil (escapedChar_ne_nil c)
      rw [hchars] at hplain ⊢
      obtain ⟨hd, hmore⟩ := List.forall_mem_cons.mp hplain
      obtain ⟨-, hmarkD, hescapeD⟩ := ne_of_isPlain hd
      refine .kept hmarkD hescapeD (DoubleQuoted.of_plain ?_ ?_)
      · exact fun hmem => (ne_of_isPlain (hmore _ hmem)).2.1 rfl
      · exact fun hmem => (ne_of_isPlain (hmore _ hmem)).2.2 rfl

theorem doubleQuoted_reprString (hbytes : ∀ c ∈ text, c.toNat < 256) (hunquoted : Unquoted text) :
    DoubleQuoted (reprString text) (shellStr text) := by
  have hquote : quoteFor text = '\'' := if_neg fun h => hunquoted.1 h.1
  have hbody : DoubleQuoted (text.flatMap (reprChar '\'')) (shellText text) := by
    obtain ⟨hquotes, hmarks⟩ := hunquoted
    induction text with
    | nil => exact .nil
    | cons c rest ih =>
      rw [List.mem_cons, not_or] at hquotes hmarks
      obtain ⟨hc, hrest⟩ := List.forall_mem_cons.mp hbytes
      have hquoteRest : quoteFor rest = '\'' := if_neg fun h => hquotes.2 h.1
      exact (doubleQuoted_reprChar hc (Ne.symm hquotes.1) (Ne.symm hmarks.1)).append
        (ih hrest hquoteRest hquotes.2 hmarks.2)
  unfold reprString
  rw [hquote]
  exact .char (by decide) (by decide)
    (hbody.append (.char (by decide) (by decide) .nil))

theorem doubleQuoted_writeLiteral (hvalue : value.finite = true)
    (hstring : ∀ string, value = .str string → DoubleQuoted (reprString string) (shellStr string)) :
    DoubleQuoted (writeLiteral reprString value) (writeLiteral shellStr value) := by
  rcases str_or_number value with ⟨string, rfl⟩ | hnumber
  · exact hstring string rfl
  · rw [@writeLiteral_number shellStr value hnumber reprString]
    have hall := @all_numberChar reprString value hnumber hvalue
    refine DoubleQuoted.of_plain (fun hmem => ?_) fun hmem => ?_
    · exact absurd (hall _ hmem) (by decide)
    · exact absurd (hall _ hmem) (by decide)

theorem mem_stringsOf_cons {string : Text} {item : Text × Literal} :
    string ∈ stringsOf (item :: items) ↔
      (string = item.1 ∨ item.2 = .str string) ∨ string ∈ stringsOf items := by
  unfold stringsOf
  rw [List.flatMap_cons, List.mem_append]
  refine or_congr_left ?_
  cases item.2 with
  | str text =>
    rw [List.mem_cons, List.mem_singleton, Literal.str.injEq, eq_comm (a := text)]
  | int n => exact List.mem_singleton.trans (or_iff_left nofun).symm
  | long n => exact List.mem_singleton.trans (or_iff_left nofun).symm
  | float text => exact List.mem_singleton.trans (or_iff_left nofun).symm

theorem doubleQuoted_writeItems
    (hbytes : ∀ text ∈ stringsOf items, ∀ c ∈ text, c.toNat < 256)
    (hvalues : ∀ item ∈ items, item.2.finite = true)
    (hunquoted : ∀ text ∈ stringsOf items, Unquoted text) :
    DoubleQuoted (writeItems reprString items) (writeItems shellStr items) := by
  have hstring : ∀ text ∈ stringsOf items, DoubleQuoted (reprString text) (shellStr text) :=
    fun text htext => doubleQuoted_reprString (hbytes text htext) (hunquoted text htext)
  clear hbytes hunquoted
  induction items with
  | nil => exact .char (by decide) (by decide) .nil
  | cons item rest ih =>
    obtain ⟨hvalue, hrest⟩ := List.forall_mem_cons.mp hvalues
    have hkey := hstring item.1 (mem_stringsOf_cons.mpr (.inl (.inl rfl)))
    have hwritten := doubleQuoted_writeLiteral hvalue fun string hvalueString =>
      hstring string (mem_stringsOf_cons.mpr (.inl (.inr hvalueString)))
    have hothers := ih hrest fun text htext =>
      hstring text (mem_stringsOf_cons.mpr (.inr htext))
    cases rest with
    | nil =>
      exact hkey.append (.char (by decide) (by decide) (.char (by decide) (by decide)
        (hwritten.append (.char (by decide) (by decide) .nil))))
    | cons next rest =>
      exact hkey.append (.char (by decide) (by decide) (.char (by decide) (by decide)
        (hwritten.append (.char (by decide) (by decide) (.char (by decide) (by decide)
          hothers)))))

theorem quote_notMem_programStart : '"' ∉ programStart := by decide +kernel

theorem escape_notMem_programStart : '\\' ∉ programStart := by decide +kernel

/-- The program up to the dictionary. -/
def beginning (action : Text) : Text := programStart ++ action ++ "(**".toList

theorem programText_eq (action literal : Text) :
    programText action literal = beginning action ++ literal ++ [')'] := rfl

theorem doubleQuoted_beginning (action : Action) :
    DoubleQuoted (beginning action.text) (beginning action.text) := by
  have hstart : DoubleQuoted programStart programStart :=
    .of_plain quote_notMem_programStart escape_notMem_programStart
  have haction : DoubleQuoted action.text action.text :=
    .of_plain action.no_quote action.no_escape
  have hopen : DoubleQuoted "(**".toList "(**".toList := .of_plain (by decide) (by decide)
  unfold beginning
  exact (hstart.append haction).append hopen

theorem split_python (text : Text) :
    ShellWords.split ("python -c \"".toList ++ text) =
      ((ShellWords.splitFrom (.quoted '"') [] text).map ("-c".toList :: ·)).map
        ("python".toList :: ·) := by
  unfold ShellWords.split
  rfl

/-- The first two words are those of the interpreter, and the third is read from within its
quotation marks. -/
theorem split_command (action : Action) (literal : Text) :
    ShellWords.split (command action.text literal) =
      ((ShellWords.splitFrom (.quoted '"') (beginning action.text) (literal ++ [')', '"'])).map
        ("-c".toList :: ·)).map ("python".toList :: ·) := by
  have hprogram : ∀ start : Text, start ++ literal ++ [')'] ++ ['"'] =
      start ++ (literal ++ [')', '"']) := by
    intro start
    rw [List.append_assoc, List.append_assoc]
    rfl
  have hcommand : command action.text literal =
      "python -c \"".toList ++ (beginning action.text ++ (literal ++ [')', '"'])) :=
    (List.append_assoc _ _ _).trans (congrArg ("python -c \"".toList ++ ·) (hprogram _))
  have hread : ShellWords.splitFrom (.quoted '"') [] (beginning action.text ++
      (literal ++ [')', '"'])) =
        ShellWords.splitFrom (.quoted '"') (beginning action.text) (literal ++ [')', '"']) :=
    ShellWords.splitFrom_doubleQuoted (doubleQuoted_beginning action)
  exact (congrArg ShellWords.split hcommand).trans ((split_python _).trans
    (congrArg (fun words => (words.map ("-c".toList :: ·)).map ("python".toList :: ·)) hread))

/-- For unquoted strings the command is split into three words, and the program has the dictionary
that is left of that of the arguments. -/
theorem split_unquoted {action : Action} {args : Args}
    (hfinite : ∀ item ∈ args.items, item.2.finite = true)
    (hunquoted : ∀ text ∈ stringsOf args.items, Unquoted text) :
    ShellWords.split (command action.text (reprDict args.items)) =
      some ["python".toList, "-c".toList,
        programText action.text (writeDict shellStr args.items)] := by
  have hdict : DoubleQuoted (reprDict args.items) (writeDict shellStr args.items) :=
    .char (by decide) (by decide) (doubleQuoted_writeItems args.bytes hfinite hunquoted)
  have hread : ShellWords.splitFrom (.quoted '"') (beginning action.text)
      (reprDict args.items ++ [')', '"']) =
        some [programText action.text (writeDict shellStr args.items)] := by
    rw [ShellWords.splitFrom_doubleQuoted hdict]
    rfl
  exact (split_command action _).trans
    (congrArg (fun words => (words.map ("-c".toList :: ·)).map ("python".toList :: ·)) hread)

/-! ## Reading what is left -/

/-- What has been read of a backslash. -/
def pending (behind : Bool) : Text := if behind then ['\\'] else []

theorem ordinary_escape (hc : ordinary c = true) :
    readEscape (c :: rest) = some (['\\', c], 1) := by
  obtain ⟨hprintable, hbegins⟩ := Bool.and_eq_true_iff.mp hc
  have hline : c ≠ '\n' := by
    rintro rfl
    exact absurd hprintable (by decide)
  rw [Bool.not_eq_true', beginsEscape, Bool.or_eq_false_iff, Bool.or_eq_false_iff,
    decide_eq_false_iff_not] at hbegins
  obtain ⟨⟨hx, hoctal⟩, hsimple⟩ := hbegins
  rw [readEscape_other hx, if_neg hline, if_neg (Bool.eq_false_iff.mp hoctal),
    Option.isNone_iff_eq_none.mp (Option.isSome_eq_false_iff.mp hsimple)]
  rfl

/-- A string with ordinary characters behind its backslashes is read as it is. -/
theorem readBody_shellText {behind : Bool} (hbytes : ∀ c ∈ text, c.toNat < 256)
    (hquote : '\'' ∉ text) (hstays : stays behind text = true) :
    readBody '\'' 0 (pending behind ++ (shellText text ++ '\'' :: rest)) =
      some (pending behind ++ text, rest) := by
  induction text generalizing behind with
  | nil =>
    cases behind with
    | false => exact readBody_quote
    | true => exact nomatch hstays
  | cons c text ih =>
    obtain ⟨hc, hrest⟩ := List.forall_mem_cons.mp hbytes
    rw [List.mem_cons, not_or] at hquote
    rw [shellText_cons, List.append_assoc]
    cases behind with
    | true =>
      obtain ⟨hordinary, hlater⟩ := Bool.and_eq_true_iff.mp hstays
      have hread := ih hrest hquote.2 hlater
      rw [shellChar_of_printable (Bool.and_eq_true_iff.mp hordinary).1]
      exact (readBody_escape (by decide) (ordinary_escape hordinary)).trans
        (congrArg (Option.map _) hread)
    | false =>
      by_cases hescape : c = '\\'
      · subst hescape
        exact ih hrest hquote.2 hstays
      · have hlater : stays false text = true := by
          rw [← hstays, stays_text, beq_eq_false_iff_ne.mpr hescape]
        have hread := ih hrest hquote.2 hlater
        cases hprintable : printable c with
        | true =>
          have hline : c ≠ '\n' := by
            rintro rfl
            exact absurd hprintable (by decide)
          rw [shellChar_of_printable hprintable]
          exact (readBody_plain (Ne.symm hquote.1) hescape hline).trans
            (congrArg (Option.map _) hread)
        | false =>
          rw [shellChar_of_not_printable hprintable]
          refine (readBody_escape (by decide) (readEscape_escapedChar hc _)).trans ?_
          rw [List.drop_left]
          exact congrArg (Option.map _) hread

theorem readStr_shellStr (hbytes : ∀ c ∈ text, c.toNat < 256) (hquote : '\'' ∉ text)
    (hstays : stays false text = true) : readStr (shellStr text ++ rest) = some (text, rest) := by
  have hread := @readBody_shellText text rest false hbytes hquote hstays
  unfold shellStr
  rw [List.cons_append, readStr, if_pos (.inl rfl), List.append_assoc]
  exact hread

theorem readLiteral_shellStr (hvalue : value.finite = true) (hc : numberChar c = false)
    (hstring : ∀ string, value = .str string → ∀ rest,
      readStr (shellStr string ++ rest) = some (string, rest)) :
    readLiteral (writeLiteral shellStr value ++ c :: rest) = some (value, c :: rest) := by
  rcases str_or_number value with ⟨string, rfl⟩ | hnumber
  · rw [readLiteral, writeLiteral, hstring string rfl]
  · exact readLiteral_number hnumber hvalue hc

/-- No blank comes before a value, and none before a key. -/
theorem dropWhile_writeLiteral (hvalue : value.finite = true) :
    (writeLiteral shellStr value ++ rest).dropWhile (· == ' ') =
      writeLiteral shellStr value ++ rest := by
  have hhead : ∃ d more, writeLiteral shellStr value = d :: more ∧ (d == ' ') = false := by
    rcases str_or_number value with ⟨string, rfl⟩ | hnumber
    · exact ⟨_, _, rfl, rfl⟩
    · obtain ⟨d, more, hd⟩ := List.exists_cons_of_ne_nil
        (@writeLiteral_ne_nil shellStr value hnumber hvalue)
      have hchar := @all_numberChar shellStr value hnumber hvalue d
        (by rw [hd]; exact List.mem_cons_self)
      refine ⟨d, more, hd, beq_eq_false_iff_ne.mpr ?_⟩
      rintro rfl
      exact absurd hchar (by decide)
  obtain ⟨d, more, hd, hblank⟩ := hhead
  rw [hd, List.cons_append, List.dropWhile_cons, hblank]
  rfl

/-- The items begin with the first key. -/
theorem exists_writeItems (hne : items ≠ []) :
    ∃ more, writeItems shellStr items = '\'' :: more := by
  obtain ⟨item, others, rfl⟩ := List.exists_cons_of_ne_nil hne
  cases others with
  | nil => exact ⟨_, rfl⟩
  | cons next others => exact ⟨_, rfl⟩

theorem readItems_writeItems {fuel : Nat} (hne : items ≠ []) (hfuel : items.length ≤ fuel)
    (hvalues : ∀ item ∈ items, item.2.finite = true)
    (hstring : ∀ string ∈ stringsOf items, ∀ rest,
      readStr (shellStr string ++ rest) = some (string, rest)) :
    readItems fuel (writeItems shellStr items) = some items := by
  induction items generalizing fuel with
  | nil => exact absurd rfl hne
  | cons item others ih =>
    cases fuel with
    | zero => exact absurd hfuel (Nat.not_succ_le_zero _)
    | succ fuel =>
      obtain ⟨hvalue, hothers⟩ := List.forall_mem_cons.mp hvalues
      have hkey := hstring item.1 (mem_stringsOf_cons.mpr (.inl (.inl rfl)))
      have hliteral : ∀ string, item.2 = .str string → ∀ rest,
          readStr (shellStr string ++ rest) = some (string, rest) :=
        fun string h => hstring string (mem_stringsOf_cons.mpr (.inl (.inr h)))
      have hbehind : ∀ rest : Text,
          ((':' :: ' ' :: (writeLiteral shellStr item.2 ++ rest)).drop 1).dropWhile
            (· == ' ') = writeLiteral shellStr item.2 ++ rest :=
        fun _ => dropWhile_writeLiteral hvalue
      cases others with
      | nil =>
        rw [writeItems, readItems, hkey]
        have hread : readLiteral (writeLiteral shellStr item.2 ++ ['}']) =
            some (item.2, ['}']) := readLiteral_shellStr hvalue (by decide) hliteral
        simp only [List.head?_cons, if_true, hbehind, hread]
      | cons next others =>
        have hothersRead := ih (List.cons_ne_nil _ _) (Nat.le_of_succ_le_succ hfuel) hothers
          fun string h => hstring string (mem_stringsOf_cons.mpr (.inr h))
        rw [writeItems, readItems, hkey]
        · have hread : ∀ rest : Text, readLiteral (writeLiteral shellStr item.2 ++
              ',' :: rest) = some (item.2, ',' :: rest) :=
            fun _ => readLiteral_shellStr hvalue (by decide) hliteral
          have hskip : ((',' :: ' ' :: writeItems shellStr (next :: others)).drop
              1).dropWhile (· == ' ') = writeItems shellStr (next :: others) := by
            obtain ⟨more, hmore⟩ := exists_writeItems (List.cons_ne_nil next others)
            rw [hmore]
            rfl
          have hmore : ∀ rest : Text, ',' :: rest ≠ ['}'] := fun _ heq => by cases heq
          simp only [List.head?_cons, if_true, hbehind, hread, if_neg (hmore _), hskip,
            hothersRead, Option.map_some]
        · exact List.cons_ne_nil _ _

/-- What is left of the dictionary is read back, if its strings come through. -/
theorem readDict_writeDict {args : Args} (hsafe : args.Safe) :
    readDict (writeDict shellStr args.items) = some args.items := by
  by_cases hempty : args.items = []
  · rw [hempty]
    rfl
  · have hstring : ∀ string ∈ stringsOf args.items, ∀ rest,
        readStr (shellStr string ++ rest) = some (string, rest) := fun string hmem _ =>
      readStr_shellStr (args.bytes string hmem) (hsafe.unquoted string hmem).1
        (hsafe.stays string hmem)
    have hlong : ∀ items : List (Text × Literal),
        items.length ≤ (writeItems shellStr items).length := by
      intro items
      induction items with
      | nil => exact Nat.zero_le _
      | cons item others ih =>
        cases others with
        | nil => exact Nat.succ_le_succ (Nat.zero_le _)
        | cons next others =>
          rw [writeItems]
          · simp only [List.length_append, List.length_cons] at ih ⊢
            omega
          · exact List.cons_ne_nil _ _
    have hitems := readItems_writeItems hempty ((hlong args.items).trans (Nat.le_succ _))
      hsafe.finite hstring
    have hnot : writeDict shellStr args.items ≠ "{}".toList := by
      intro heq
      obtain ⟨more, hmore⟩ := exists_writeItems hempty
      have hbrace : writeItems shellStr args.items = ['}'] := List.tail_eq_of_cons_eq heq
      rw [hmore] at hbrace
      exact absurd (List.head_eq_of_cons_eq hbrace) (by decide)
    have hbrace : (writeDict shellStr args.items).head? = some '{' := rfl
    rw [readDict, if_neg hnot, if_pos hbrace]
    exact hitems

end

end OvirtArt.Resources.VdsClient
