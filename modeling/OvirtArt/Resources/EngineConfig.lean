import OvirtArt.CoreApi.TextLines
import OvirtArt.Foundation.Overwrites
import OvirtArt.Foundation.Splitting

set_option autoImplicit false

/-!
# `engine_config` of `rhevm_api/resources/engine.py`

The output of `engine-config` has a line for each version of each key.  The loop over it keeps the
version in the variable that held the one asked for.

The output is a list of lines, each with its key, its value and its version; a value has no line
end.  The restart of the engine, and what is logged, are left out.
-/

namespace OvirtArt.Resources.EngineConfig

open OvirtArt.CoreApi OvirtArt.Foundation

/-- `TypeError("Action %s is not supported", action)`. -/
structure UnsupportedAction where
  action : Text
  deriving DecidableEq, Repr

/-- `{'value': value, 'version': version}`. -/
structure Entry where
  value : Text
  version : Option Text
  deriving DecidableEq, Repr

/-- `res["results"]`. -/
inductive Results where
  | bool (value : Bool)
  | dict (entries : Text → Option Entry)

/-- `res`, and whether the engine is restarted. -/
structure Outcome where
  results : Results
  restarted : Bool

/-! ## The source -/

/-- `'version:'`. -/
def versionMark : Text := "version:".toList

/-- What the loop has read: the variable `version`, and `res["results"]`. -/
structure Reading where
  version : Option Text
  results : Text → Option Entry

/-- What is read off the part of a line behind its first `:`. -/
def readEntry (version : Option Text) (outSplit : Text) : Entry :=
  if versionMark <:+: outSplit then
    { value := Text.strip ((Text.splitBy outSplit versionMark).head?.getD [])
      version := some (Text.strip ((Text.splitBy outSplit versionMark).getLast?.getD [])) }
  else { value := outSplit, version := version }

/-- The body of the loop.  A line without `:` is only logged. -/
def Reading.line (reading : Reading) (outLine : Text) : Reading :=
  match splitOnce ':' outLine with
  | none => reading
  | some (key, rest) =>
    let entry := readEntry reading.version (Text.strip rest)
    { version := entry.version
      results :=
        if (Text.strip key).isEmpty then reading.results
        else Function.update reading.results (Text.strip key) (some entry) }

/-- The loop. -/
def readLines (version : Option Text) (outList : List Text) : Reading :=
  outList.foldl Reading.line { version := version, results := fun _ => none }

/-- `actions`. -/
def actions : List Text := ["list".toList, "get".toList, "set".toList, "all".toList]

/-- The tool has this action. -/
def isSupported (action : Text) : Bool := actions.any (· == action)

/-- The command. -/
def command (action : Text) (param version : Option Text) : List Text :=
  ["engine-config".toList, "--".toList ++ action] ++
    (if Text.truthy param then [param.getD []] else []) ++
    if Text.truthy version then ["--cver=".toList ++ version.getD []] else []

/-- `engine_config`, where `runCmd` gives the exit status and the output of a command. -/
def engineConfig (runCmd : List Text → Int × Text) (action : Text) (param : Option Text)
    (restart : Bool) (version : Option Text) : Except UnsupportedAction Outcome :=
  if isSupported action then
    let (rc, out) := runCmd (command action param version)
    if rc ≠ 0 then .ok { results := .bool false, restarted := false }
    else
      .ok
        { results :=
            if out.isEmpty then .bool true
            else .dict (readLines version (Text.splitlines out)).results
          restarted := restart && action == "set".toList }
  else .error ⟨action⟩

/-! ## The lines of the output -/

/-- The parts of one line: there is a key, which has no `:` in it, the value and the version have
no `version:` in them, and none has the end of a line. -/
structure WellFormed (key value : Text) (version : Option Text) : Prop where
  key_colon : ':' ∉ key
  key_strip : Text.strip key ≠ []
  value_mark : ¬ versionMark <:+: value
  version_mark : ∀ v ∈ version, ¬ versionMark <:+: v
  no_newline : '\n' ∉ key ++ value ++ version.getD []
  no_return : '\r' ∉ key ++ value ++ version.getD []

/-- A line `key: value` or `key: value version: v`. -/
structure OutputLine where
  key : Text
  value : Text
  version : Option Text
  wellFormed : WellFormed key value version

namespace OutputLine

/-- The part behind the key. -/
def field (line : OutputLine) : Text :=
  match line.version with
  | none => ' ' :: line.value
  | some v => (' ' :: line.value ++ [' ']) ++ (versionMark ++ ' ' :: v)

/-- The line as the tool writes it. -/
def text (line : OutputLine) : Text := line.key ++ ':' :: line.field

/-- The key, as it is read. -/
def name (line : OutputLine) : Text := Text.strip line.key

/-- The version of the line itself, as it is read. -/
def ownVersion (line : OutputLine) : Option Text := line.version.map Text.strip

/-- What the line says, if a version is asked for. -/
def entry (requested : Option Text) (line : OutputLine) : Entry where
  value := Text.strip line.value
  version := line.ownVersion.or requested

end OutputLine

/-- The output of these lines. -/
def outputOf (lines : List OutputLine) : Text := Text.join ['\n'] (lines.map OutputLine.text)

/-! ## What is asked of it -/

/-- What is found under a key. -/
def Results.lookup : Results → Text → Option Entry
  | .bool _, _ => none
  | .dict entries, key => entries key

section

variable (requested : Option Text) (lines : List OutputLine)

/-- Each key has what one of its lines says, and no other key has anything; and where a version was
asked for, a key that has a line of that version has what such a line says. -/
structure Parsed (entries : Text → Option Entry) : Prop where
  own : ∀ line ∈ lines, ∃ other ∈ lines, other.name = line.name ∧
    entries line.name = some (other.entry requested)
  others : ∀ key, (∀ line ∈ lines, line.name ≠ key) → entries key = none
  asked : ∀ v, requested = some v → v ≠ [] → ∀ line ∈ lines, line.ownVersion = some v →
    ∃ other ∈ lines, other.name = line.name ∧ other.ownVersion = some v ∧
      entries line.name = some (other.entry requested)

/-- The version of the last of these lines that has one, or the one asked for. -/
def lastVersion : Option Text :=
  lines.foldl (fun version line => line.ownVersion.or version) requested

/-- The last line of each key has a version of its own, or the last version before it is the one
asked for, or is that of another line of the key with its value; and if a version was asked for and
a line of the key has it, the last line of the key has it too, or has none, the last version before
it is the one asked for, and a line of the key with that version has the same value. -/
structure KeptApart : Prop where
  own : ∀ before line after, lines = before ++ line :: after →
    (∀ other ∈ after, other.name ≠ line.name) → line.ownVersion = none →
      lastVersion requested before = requested ∨
        ∃ other ∈ lines, other.name = line.name ∧
          Text.strip other.value = Text.strip line.value ∧
          other.ownVersion = lastVersion requested before
  asked : ∀ v, requested = some v → v ≠ [] → ∀ before line after,
    lines = before ++ line :: after → (∀ other ∈ after, other.name ≠ line.name) →
      (∃ other ∈ lines, other.name = line.name ∧ other.ownVersion = some v) →
        line.ownVersion = some v ∨
          line.ownVersion = none ∧ lastVersion requested before = some v ∧
            ∃ other ∈ lines, other.name = line.name ∧ other.ownVersion = some v ∧
              Text.strip other.value = Text.strip line.value

end

/-! ## One line -/

section

variable {requested version : Option Text} {lines : List OutputLine} {line : OutputLine}

theorem versionMark_eq : versionMark = 'v' :: "ersion:".toList := rfl

theorem not_infix_cons_space {text : Text} (h : ¬ versionMark <:+: text) :
    ¬ versionMark <:+: ' ' :: text := by
  rw [versionMark_eq] at h ⊢
  intro hpart
  rcases List.infix_cons_iff.mp hpart with hprefix | hpart
  · exact absurd (List.cons_prefix_cons.mp hprefix).1 (by decide)
  · exact h hpart

theorem not_infix_concat_space {text : Text} (h : ¬ versionMark <:+: text) :
    ¬ versionMark <:+: text ++ [' '] := by
  intro hpart
  rcases List.infix_concat_iff.mp hpart with hsuffix | hpart
  · rcases List.suffix_concat_iff.mp hsuffix with hnil | ⟨init, hinit, -⟩
    · exact nomatch hnil
    · have hlast := congrArg List.getLast? hinit
      rw [List.getLast?_concat] at hlast
      exact absurd hlast (by decide)
  · exact h hpart

/-- The field behind the key is read as what the line says. -/
theorem readEntry_field (version : Option Text) (line : OutputLine) :
    readEntry version (Text.strip line.field) = line.entry version := by
  unfold OutputLine.field OutputLine.entry OutputLine.ownVersion
  cases hversion : line.version with
  | none =>
    have hnot : ¬ versionMark <:+: Text.strip line.value := fun hpart =>
      line.wellFormed.value_mark (hpart.trans (Text.strip_infix _))
    simp only [Text.strip_cons_of_space (show Text.isSpace ' ' = true from rfl), readEntry,
      if_neg hnot, Option.map_none, Option.none_or]
  | some v =>
    have hleft : ¬ versionMark <:+: Text.lstrip (' ' :: line.value ++ [' ']) := fun hpart =>
      not_infix_concat_space (not_infix_cons_space line.wellFormed.value_mark)
        (hpart.trans (List.dropWhile_suffix _).isInfix)
    have hright : ¬ versionMark <:+: Text.rstrip (' ' :: v) := fun hpart =>
      not_infix_cons_space (line.wellFormed.version_mark v hversion)
        (hpart.trans (List.rdropWhile_prefix _ _).isInfix)
    have hstrip : Text.strip ((' ' :: line.value ++ [' ']) ++ (versionMark ++ ' ' :: v)) =
        Text.lstrip (' ' :: line.value ++ [' ']) ++ (versionMark ++ Text.rstrip (' ' :: v)) := by
      rw [← List.append_assoc, @Text.strip_append _ _ _ 'v' ':' rfl rfl rfl rfl,
        List.append_assoc]
    have hfound : versionMark <:+: Text.lstrip (' ' :: line.value ++ [' ']) ++
        (versionMark ++ Text.rstrip (' ' :: v)) := ⟨_, _, List.append_assoc _ _ _⟩
    have hsplit : Text.splitBy (Text.lstrip (' ' :: line.value ++ [' ']) ++
        (versionMark ++ Text.rstrip (' ' :: v))) versionMark =
          [Text.lstrip (' ' :: line.value ++ [' ']), Text.rstrip (' ' :: v)] :=
      Text.splitBy_append (by decide) hleft hright
    simp only [hstrip, readEntry, if_pos hfound, hsplit, List.head?_cons, Option.getD_some,
      List.getLast?_cons_cons, List.getLast?_singleton, Text.strip_lstrip, Text.strip_rstrip,
      Text.strip_concat_of_space (show Text.isSpace ' ' = true from rfl),
      Text.strip_cons_of_space (show Text.isSpace ' ' = true from rfl), Option.map_some,
      Option.some_or]

/-- A line is read as what it says, and its version is kept for the next ones. -/
theorem line_text (reading : Reading) (line : OutputLine) :
    reading.line line.text =
      { version := line.ownVersion.or reading.version
        results := Function.update reading.results line.name
          (some (line.entry reading.version)) } := by
  have hkey : (Text.strip line.key).isEmpty = false := by
    simpa using line.wellFormed.key_strip
  simp only [Reading.line, OutputLine.text, splitOnce_append line.wellFormed.key_colon,
    readEntry_field, hkey, Bool.false_eq_true, if_false]
  rfl

theorem isLine_text (line : OutputLine) : Text.IsLine line.text := by
  have hno : ∀ c, c ∉ ':' :: ' ' :: versionMark →
      c ∉ line.key ++ line.value ++ line.version.getD [] → c ∉ line.text := by
    intro c hmarks hparts
    simp only [List.mem_cons, List.mem_append, not_or] at hmarks hparts
    unfold OutputLine.text OutputLine.field
    cases hv : line.version with
    | none => simp [hparts, hmarks]
    | some v =>
      rw [hv, Option.getD_some] at hparts
      simp [hparts, hmarks]
  refine ⟨?_, hno '\n' (by decide) line.wellFormed.no_newline,
    hno '\r' (by decide) line.wellFormed.no_return⟩
  unfold OutputLine.text
  exact List.append_ne_nil_of_right_ne_nil _ nofun

/-! ## All lines -/

/-- The writes into the results, from the version on that the loop has at the beginning. -/
def writes (version : Option Text) : List OutputLine → List (Text × Entry)
  | [] => []
  | line :: rest => (line.name, line.entry version) :: writes (line.ownVersion.or version) rest

theorem foldl_line (reading : Reading) :
    (lines.map OutputLine.text).foldl Reading.line reading =
      { version := lastVersion reading.version lines
        results := overwrite reading.results (writes reading.version lines) } := by
  induction lines generalizing reading with
  | nil => rfl
  | cons line rest ih =>
    rw [List.map_cons, List.foldl_cons, line_text, ih]
    rfl

/-- The loop over the output of the lines. -/
theorem results_readLines (requested : Option Text) (lines : List OutputLine) :
    (readLines requested (Text.splitlines (outputOf lines))).results =
      tableOf (writes requested lines) := by
  have hlines : ∀ line ∈ lines.map OutputLine.text, Text.IsLine line := by
    intro text htext
    obtain ⟨line, -, rfl⟩ := List.mem_map.mp htext
    exact isLine_text line
  unfold readLines outputOf
  rw [Text.splitlines_join hlines, foldl_line]
  rfl

theorem writes_append (first second : List OutputLine) :
    writes version (first ++ second) =
      writes version first ++ writes (lastVersion version first) second := by
  induction first generalizing version with
  | nil => rfl
  | cons line rest ih => exact congrArg ((line.name, line.entry version) :: ·) ih

theorem exists_of_mem_writes {write : Text × Entry} (h : write ∈ writes version lines) :
    ∃ line ∈ lines, line.name = write.1 := by
  induction lines generalizing version with
  | nil => exact nomatch h
  | cons line rest ih =>
    rcases List.mem_cons.mp h with rfl | h
    · exact ⟨line, List.mem_cons_self, rfl⟩
    · obtain ⟨other, hother, hname⟩ := ih h
      exact ⟨other, List.mem_cons_of_mem _ hother, hname⟩

theorem tableOf_writes_eq_none {key : Text} (h : ∀ line ∈ lines, line.name ≠ key) :
    tableOf (writes version lines) key = none := by
  refine tableOf_eq_none fun write hwrite hkey => ?_
  obtain ⟨line, hline, hname⟩ := exists_of_mem_writes hwrite
  exact h line hline (hname.trans hkey)

/-- Under a key is what its last line says, with the version that the loop has there. -/
theorem tableOf_writes_last {before after : List OutputLine}
    (h : ∀ other ∈ after, other.name ≠ line.name) :
    tableOf (writes version (before ++ line :: after)) line.name =
      some (line.entry (lastVersion version before)) := by
  rw [writes_append]
  refine tableOf_last fun write hwrite hkey => ?_
  obtain ⟨other, hother, hname⟩ := exists_of_mem_writes hwrite
  exact h other hother (hname.trans hkey)

/-- The last line of a key, and what is under the key. -/
theorem exists_last_line (h : line ∈ lines) : ∃ before last after,
    lines = before ++ last :: after ∧ last.name = line.name ∧
      (∀ other ∈ after, other.name ≠ last.name) ∧
      tableOf (writes requested lines) line.name =
        some (last.entry (lastVersion requested before)) := by
  obtain ⟨before, last, after, rfl, hlast, hafter⟩ :=
    @exists_last_of_mem _ (fun other => other.name = line.name) lines ⟨line, h, rfl⟩
  have hothers : ∀ other ∈ after, other.name ≠ last.name := fun other hother hname =>
    hafter other hother (hname.trans hlast)
  exact ⟨before, last, after, rfl, hlast, hothers, by rw [← hlast, tableOf_writes_last hothers]⟩

theorem lastVersion_eq_none (h : lastVersion version lines = none) : version = none := by
  induction lines generalizing version with
  | nil => exact h
  | cons line rest ih => exact (Option.or_eq_none_iff.mp (ih h)).2

theorem keptApart_of_parsed (h : Parsed requested lines (tableOf (writes requested lines))) :
    KeptApart requested lines := by
  constructor
  · rintro before line after rfl hafter hown
    obtain ⟨other, hother, hname, hentry⟩ := h.own line (by simp)
    rw [tableOf_writes_last hafter] at hentry
    have hsame := Option.some.inj hentry
    have hvalue : Text.strip line.value = Text.strip other.value := congrArg Entry.value hsame
    have hversion : line.ownVersion.or (lastVersion requested before) =
        other.ownVersion.or requested := congrArg Entry.version hsame
    rw [hown, Option.none_or] at hversion
    cases hotherVersion : other.ownVersion with
    | none =>
      rw [hotherVersion, Option.none_or] at hversion
      exact .inl hversion
    | some v =>
      rw [hotherVersion, Option.some_or] at hversion
      exact .inr ⟨other, hother, hname, hvalue.symm, hotherVersion.trans hversion.symm⟩
  · rintro v hv hne before line after rfl hafter ⟨other, hother, hname, hotherVersion⟩
    obtain ⟨found, hfound, hfoundName, hfoundVersion, hentry⟩ :=
      h.asked v hv hne other hother hotherVersion
    rw [hname, tableOf_writes_last hafter] at hentry
    have hsame := Option.some.inj hentry
    have hversion : line.ownVersion.or (lastVersion requested before) = some v := by
      have hversion := congrArg Entry.version hsame
      simp only [OutputLine.entry, hfoundVersion, Option.some_or] at hversion
      exact hversion
    cases hown : line.ownVersion with
    | some own => exact .inl (by rwa [hown, Option.some_or] at hversion)
    | none =>
      rw [hown, Option.none_or] at hversion
      exact .inr ⟨rfl, hversion, found, hfound, hfoundName.trans hname, hfoundVersion,
        (congrArg Entry.value hsame).symm⟩

theorem parsed_of_keptApart (h : KeptApart requested lines) :
    Parsed requested lines (tableOf (writes requested lines)) := by
  refine ⟨fun line hline => ?_, fun key => tableOf_writes_eq_none,
    fun v hv hne line hline hversion => ?_⟩
  · obtain ⟨before, last, after, hlines, hlast, hafter, hfound⟩ :=
      @exists_last_line requested _ _ hline
    have hmem : last ∈ lines := by rw [hlines]; simp
    rw [hfound]
    cases hown : last.ownVersion with
    | some v =>
      refine ⟨last, hmem, hlast, congrArg some ?_⟩
      simp only [OutputLine.entry, hown, Option.some_or]
    | none =>
      rcases h.own before last after hlines hafter hown with hsame | hother
      · exact ⟨last, hmem, hlast, by rw [hsame]⟩
      · obtain ⟨other, hother, hname, hvalue, hversion⟩ := hother
        refine ⟨other, hother, hname.trans hlast, congrArg some ?_⟩
        simp only [OutputLine.entry, hown, hvalue, hversion, Option.none_or]
        cases hcarried : lastVersion requested before with
        | some v => rw [Option.some_or]
        | none => rw [Option.none_or, lastVersion_eq_none hcarried]
  · obtain ⟨before, last, after, hlines, hlast, hafter, hfound⟩ :=
      @exists_last_line requested _ _ hline
    rw [hfound]
    rcases h.asked v hv hne before last after hlines hafter ⟨line, hline, hlast.symm, hversion⟩
      with hown | ⟨hown, hcarried, other, hother, hname, hotherVersion, hvalue⟩
    · refine ⟨last, by rw [hlines]; simp, hlast, hown, congrArg some ?_⟩
      simp only [OutputLine.entry, hown, Option.some_or]
    · refine ⟨other, hother, hname.trans hlast, hotherVersion, congrArg some ?_⟩
      simp only [OutputLine.entry, hown, hcarried, hotherVersion, hvalue, Option.none_or,
        Option.some_or]

theorem parsed_iff : Parsed requested lines (tableOf (writes requested lines)) ↔
    KeptApart requested lines :=
  ⟨keptApart_of_parsed, parsed_of_keptApart⟩

/-- The outcome for an output of such lines. -/
theorem engineConfig_outputOf {action : Text} {param : Option Text} {restart : Bool}
    (haction : isSupported action = true) :
    engineConfig (fun _ => (0, outputOf lines)) action param restart requested =
      .ok
        { results :=
            if (outputOf lines).isEmpty then .bool true
            else .dict (readLines requested (Text.splitlines (outputOf lines))).results
          restarted := restart && action == "set".toList } := by
  simp only [engineConfig, haction, if_true, ne_eq, not_true_eq_false, if_false]

/-- Without lines there is nothing to be found, as in an empty dictionary. -/
theorem lookup_outputOf (requested : Option Text) (lines : List OutputLine) :
    Results.lookup
      (if (outputOf lines).isEmpty then .bool true
        else .dict (readLines requested (Text.splitlines (outputOf lines))).results) =
      tableOf (writes requested lines) := by
  split
  · rename_i hempty
    have htexts := (results_readLines requested lines).symm
    rw [List.isEmpty_iff.mp hempty] at htexts
    exact htexts.symm
  · exact results_readLines requested lines

/-- What is found in the outcome is what the lines write. -/
theorem parsed_of_outputOf {action : Text} {param : Option Text} {restart : Bool}
    {outcome : Outcome} (haction : isSupported action = true)
    (hrun : engineConfig (fun _ => (0, outputOf lines)) action param restart requested =
      .ok outcome) :
    Parsed requested lines outcome.results.lookup ↔ KeptApart requested lines := by
  rw [engineConfig_outputOf haction] at hrun
  rw [← Except.ok.inj hrun, lookup_outputOf, parsed_iff]

end

/-- The output is parsed rightly exactly if what each key ends with is kept apart. -/
theorem engineConfig_parses_iff (action : Text) (param : Option Text) (restart : Bool)
    (requested : Option Text) (lines : List OutputLine) (haction : isSupported action = true) :
    (∃ outcome, engineConfig (fun _ => (0, outputOf lines)) action param restart requested =
        .ok outcome ∧ Parsed requested lines outcome.results.lookup) ↔
      KeptApart requested lines := by
  constructor
  · rintro ⟨outcome, hrun, hparsed⟩
    exact (parsed_of_outputOf haction hrun).mp hparsed
  · intro hkept
    have hrun := @engineConfig_outputOf requested lines action param restart haction
    exact ⟨_, hrun, (parsed_of_outputOf haction hrun).mpr hkept⟩

theorem wellFormed_first : WellFormed "LogSize".toList "10".toList (some "4.1".toList) := by
  constructor <;> decide

theorem wellFormed_second : WellFormed "LogSize".toList "20".toList (some "4.2".toList) := by
  constructor <;> decide

theorem wellFormed_general : WellFormed "Timeout".toList "60".toList none := by
  constructor <;> decide

/-- `LogSize: 10 version: 4.1`. -/
def firstLine : OutputLine where
  key := "LogSize".toList
  value := "10".toList
  version := some "4.1".toList
  wellFormed := wellFormed_first

/-- `LogSize: 20 version: 4.2`. -/
def secondLine : OutputLine where
  key := "LogSize".toList
  value := "20".toList
  version := some "4.2".toList
  wellFormed := wellFormed_second

/-- `Timeout: 60`. -/
def generalLine : OutputLine where
  key := "Timeout".toList
  value := "60".toList
  version := none
  wellFormed := wellFormed_general

/-- Two versions of a key, of which the second was asked for, and a line without a version. -/
theorem parses_of_three_lines :
    (∃ outcome, engineConfig (fun _ => (0, outputOf [firstLine, secondLine, generalLine]))
        "all".toList none false (some "4.2".toList) = .ok outcome ∧
      Parsed (some "4.2".toList) [firstLine, secondLine, generalLine] outcome.results.lookup) ∧
    KeptApart (some "4.2".toList) [firstLine, secondLine, generalLine] := by
  have hkept : KeptApart (some "4.2".toList) [firstLine, secondLine, generalLine] := by
    constructor
    · intro before line after hlines hlast hown
      rcases before with _ | ⟨_, _ | ⟨_, _ | ⟨_, _⟩⟩⟩ <;> simp at hlines
      · obtain ⟨rfl, -⟩ := hlines
        exact nomatch hown
      · obtain ⟨-, rfl, -⟩ := hlines
        exact nomatch hown
      · obtain ⟨rfl, rfl, -, -⟩ := hlines
        exact .inl rfl
    · intro v hv hne before line after hlines hlast hother
      obtain rfl := Option.some.inj hv
      rcases before with _ | ⟨_, _ | ⟨_, _ | ⟨_, _⟩⟩⟩ <;> simp at hlines
      · obtain ⟨rfl, rfl⟩ := hlines
        exact absurd rfl (hlast secondLine List.mem_cons_self)
      · obtain ⟨-, rfl, -⟩ := hlines
        exact .inl rfl
      · obtain ⟨-, -, rfl, -⟩ := hlines
        obtain ⟨other, hmem, hname, hversion⟩ := hother
        simp only [List.mem_cons, List.not_mem_nil, or_false] at hmem
        rcases hmem with rfl | rfl | rfl
        · exact absurd hname (by decide)
        · exact absurd hname (by decide)
        · exact nomatch hversion
  exact ⟨(engineConfig_parses_iff "all".toList none false (some "4.2".toList)
    [firstLine, secondLine, generalLine] rfl).mpr hkept, hkept⟩

/-- A line without a version gets that of the line before it, also where this is the one that was
asked for; and the entry of the version that was asked for is written over. -/
theorem versions_leak :
    (¬ ∃ outcome, engineConfig (fun _ => (0, outputOf [firstLine, generalLine])) "all".toList none
        false none = .ok outcome ∧
          Parsed none [firstLine, generalLine] outcome.results.lookup) ∧
      ¬ ∃ outcome, engineConfig (fun _ => (0, outputOf [firstLine, secondLine])) "get".toList
        (some "LogSize".toList) false (some "4.1".toList) = .ok outcome ∧
          Parsed (some "4.1".toList) [firstLine, secondLine] outcome.results.lookup := by
  refine ⟨?_, ?_⟩
  · rintro ⟨outcome, hrun, hparsed⟩
    have hkept := (parsed_of_outputOf rfl hrun).mp hparsed
    rcases hkept.own [firstLine] generalLine [] rfl nofun rfl with hsame | hother
    · exact nomatch hsame
    · obtain ⟨other, hother, hname, -, hv⟩ := hother
      rcases List.mem_cons.mp hother with rfl | hother
      · exact absurd hname (by decide)
      · obtain rfl := List.mem_singleton.mp hother
        exact nomatch hv
  · rintro ⟨outcome, hrun, hparsed⟩
    have hkept := (parsed_of_outputOf rfl hrun).mp hparsed
    have hlast := hkept.asked "4.1".toList rfl nofun [firstLine] secondLine [] rfl nofun
      ⟨firstLine, List.mem_cons_self, rfl, rfl⟩
    exact absurd hlast (by decide)

end OvirtArt.Resources.EngineConfig
