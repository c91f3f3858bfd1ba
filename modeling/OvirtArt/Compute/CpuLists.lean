import OvirtArt.CoreApi.TextLines
import OvirtArt.Foundation.Collecting
import OvirtArt.Foundation.Delimited
import OvirtArt.Foundation.NumberRuns

set_option autoImplicit false

/-!
# Lists of CPUs

The kernel writes a set of CPUs as the runs of its numbers, with commas between them.  The
tests read such a list in two places: `parse_pinning_values` of
`rhevmtests/compute/sla/helpers.py` for the CPUs that a process is pinned to, and
`get_list_of_online_cpus_on_resource` of `low_level/sla.py` for the CPUs of a host.

The output of a command is a parameter, and so is whether the process is known.  The connection to
the host and the log are left out.
-/

namespace OvirtArt.Compute

open OvirtArt.CoreApi OvirtArt.Foundation

/-- What the functions can raise. -/
inductive BuiltinError where
  | valueError
  | indexError
  | keyError
  | attributeError
  | zeroDivisionError
  deriving DecidableEq, Repr

/-! ## The numbers of a text -/

/-- A number without the plus sign that may stand before it. -/
def unsigned : Text → Text
  | '+' :: digits => digits
  | digits => digits

/-- The number that decimal digits stand for. -/
def natural (digits : Text) : Except BuiltinError Nat :=
  if digits.isEmpty || !digits.all Char.isDigit then .error .valueError
  else .ok (Nat.ofDigitChars 10 digits 0)

/-- `int(text)` of a text without a minus sign. -/
def int (text : Text) : Except BuiltinError Nat := natural (unsigned text.strip)

/-- `range(start, stop)`. -/
def range (start stop : Nat) : List Nat := List.range' start (stop - start)

/-- `a / b` of integers. -/
def floorDiv (a b : Nat) : Except BuiltinError Nat :=
  if b = 0 then .error .zeroDivisionError else .ok (a / b)

theorem floorDiv_of_pos {a b : Nat} (h : 0 < b) : floorDiv a b = .ok (a / b) := by
  rw [floorDiv, if_neg (by omega)]

/-! ## The two decoders -/

theorem count_lt_of_mem_splitOn {sep : Char} {values value : Text} (h : values.contains sep)
    (hvalue : value ∈ values.splitOn sep) : value.count sep < values.count sep := by
  rw [List.count_eq_zero.mpr (not_mem_of_mem_splitOn hvalue)]
  exact List.count_pos_iff.mpr (List.contains_iff_mem.mp h)

/-- `start, end = values.split("-")`, and the numbers from `start` to `end`. -/
def parsePinningRange (values : Text) : Except BuiltinError (List Nat) :=
  match values.splitOn '-' with
  | [start, stop] => do return range (← int start) ((← int stop) + 1)
  | _ => .error .valueError

/-- `parse_pinning_values`. -/
def parsePinningValues (values : Text) : Except BuiltinError (List Nat) :=
  if values.contains ',' then
    extendAll (fun value => parsePinningValues value.1) [] (values.splitOn ',').attach
  else if values.contains '-' then parsePinningRange values
  else do return [← int values]
termination_by values.count ','
decreasing_by
  exact count_lt_of_mem_splitOn ‹_› value.2

/-- What `get_list_of_online_cpus_on_resource` reads of one part of the list. -/
def parseOnlineCpus (cpus : Text) : Except BuiltinError (List Nat) :=
  if cpus.contains '-' then
    match cpus.splitOn '-' with
    | first :: last :: _ => do return range (← int first) ((← int last) + 1)
    | _ => .error .indexError
  else do return [← int cpus]

/-- The list that `get_list_of_online_cpus_on_resource` makes of the text that it has found. -/
def parseOnlineCpusList (onlineCpus : Text) : Except BuiltinError (List Nat) :=
  extendAll parseOnlineCpus [] (onlineCpus.splitOn ',')

/-- `On-line CPU(s) list:`. -/
def onlineCpusLabel : Text := "On-line CPU(s) list:".toList

/-- The group of `On-line CPU\(s\) list:\s+(\S+)` where it matches at the start of the text. -/
def onlineCpusAt (text : Text) : Option Text :=
  let rest := text.drop onlineCpusLabel.length
  let word := (rest.dropWhile Text.isSpace).takeWhile fun c => !Text.isSpace c
  if onlineCpusLabel.isPrefixOf text && !(rest.takeWhile Text.isSpace).isEmpty && !word.isEmpty
  then some word
  else none

/-- The group of the first match of `On-line CPU\(s\) list:\s+(\S+)`. -/
def searchOnlineCpus : Text → Option Text
  | [] => none
  | c :: rest => (onlineCpusAt (c :: rest)).or (searchOnlineCpus rest)

/-- `get_list_of_online_cpus_on_resource`, with what `lscpu` answers. -/
def getListOfOnlineCpusOnResource (rc : Int) (out : Text) : Except BuiltinError (List Nat) :=
  if rc ≠ 0 then .ok []
  else
    match searchOnlineCpus out with
    | none => .error .attributeError
    | some onlineCpus => parseOnlineCpusList onlineCpus

/-- `CPU_PINNING_TYPE` and `MEMORY_PINNING_TYPE`. -/
inductive PinningType where
  | cpu
  | memory
  deriving DecidableEq

/-- The name of the line in a status. -/
def PinningType.text : PinningType → Text
  | .cpu => "Cpus_allowed_list".toList
  | .memory => "Mems_allowed_list".toList

/-- The characters of `[\d\-,]`. -/
def isListChar (c : Char) : Bool := c.isDigit || c = '-' || c = ','

/-- `([\d\-,]*)$` after so many blanks, and after fewer where that does not match: the group, and
what is left behind it. -/
def pinningGroup : Nat → Text → Option (Text × Text)
  | 0, _ => none
  | blanks + 1, text =>
    let tail := (text.drop (blanks + 1)).dropWhile isListChar
    if tail.head? = none ∨ tail.head? = some '\n' then
      some ((text.drop (blanks + 1)).takeWhile isListChar, tail)
    else pinningGroup blanks text

/-- `{pinning_type}:\s+([\d\-,]*)$` with `re.M`, where it matches at the start of the text. -/
def pinningAt (pinningType : PinningType) (text : Text) : Option (Text × Text) :=
  let label := pinningType.text ++ [':']
  if label.isPrefixOf text then
    pinningGroup ((text.drop label.length).takeWhile Text.isSpace).length
      (text.drop label.length)
  else none

/-- The groups that `re.findall` finds; the first argument counts the characters that belong to
the last match. -/
def findPinnings (pinningType : PinningType) : Nat → Text → List Text
  | _, [] => []
  | taken + 1, _ :: rest => findPinnings pinningType taken rest
  | 0, c :: rest =>
    match pinningAt pinningType (c :: rest) with
    | none => findPinnings pinningType 0 rest
    | some (group, tail) =>
      group :: findPinnings pinningType (rest.length - tail.length) rest

/-- The `cmd` of `get_vm_numa_pinning`. -/
def statusCommand (vmPid : Text) (pinningType : PinningType) : List Text :=
  ["cat".toList, "/proc/".toList ++ vmPid ++ "/task/*/status".toList, "|".toList, "grep".toList,
    pinningType.text]

/-- `get_vm_numa_pinning`, with the pid of the process and what the host answers to a command. -/
def getVmNumaPinning (vmPid : Option Text) (runCommand : List Text → Int × Text)
    (pinningType : PinningType) : Except BuiltinError (List (Nat × List Nat)) :=
  if !Text.truthy vmPid then .ok []
  else
    let reply := runCommand (statusCommand (vmPid.getD []) pinningType)
    if reply.1 ≠ 0 then .ok []
    else
      extendAll (fun result : Text × Nat => do
        return [(result.2, ← parsePinningValues result.1)]) []
        (findPinnings pinningType 0 reply.2).zipIdx

/-! ## The encoding -/

/-- A run as the kernel writes it: a number alone, or the first and the last one. -/
def runText (run : Run) : Text :=
  if run.first = run.last then Nat.toDigits 10 run.first
  else Nat.toDigits 10 run.first ++ '-' :: Nat.toDigits 10 run.last

/-- A set of CPUs as the kernel writes it. -/
def cpuList (cpus : Finset Nat) : Text := [','].intercalate ((runs cpus.sort).map runText)

/-- The line of a status with this set. -/
def statusLine (pinningType : PinningType) (cpus : Finset Nat) : Text :=
  pinningType.text ++ ':' :: '\t' :: (cpuList cpus ++ ['\n'])

/-! ## Reading a number -/

variable {decode : Text → Except BuiltinError (List Nat)} {cpus : Finset Nat} {c : Char}

theorem ne_of_isDigit {other : Char} (h : c.isDigit) (hother : other.isDigit = false) :
    c ≠ other := by
  rintro rfl
  rw [hother] at h
  exact absurd h Bool.false_ne_true

theorem isDigit_of_mem {n : Nat} (h : c ∈ Nat.toDigits 10 n) : c.isDigit :=
  Nat.isDigit_of_mem_toDigits (by decide) (by decide) h

theorem not_mem_digits {n : Nat} (h : c.isDigit = false) : c ∉ Nat.toDigits 10 n :=
  fun hmem => ne_of_isDigit (isDigit_of_mem hmem) h rfl

theorem dropWhile_of_head {p : Char → Bool} {text : Text}
    (h : ∀ c, text.head? = some c → p c = false) : text.dropWhile p = text := by
  cases text with
  | nil => rfl
  | cons c rest => exact List.dropWhile_cons_of_neg (by rw [h c rfl]; exact Bool.false_ne_true)

theorem strip_of_no_space {text : Text} (h : ∀ c ∈ text, Text.isSpace c = false) :
    text.strip = text := by
  have hfront : text.dropWhile Text.isSpace = text :=
    dropWhile_of_head fun c hc => h c (List.mem_of_head? hc)
  have hback : text.reverse.dropWhile Text.isSpace = text.reverse :=
    dropWhile_of_head fun c hc => h c (List.mem_reverse.mp (List.mem_of_head? hc))
  rw [Text.strip, hfront, hback, List.reverse_reverse]

theorem unsigned_of_ne (h : c ≠ '+') (rest : Text) : unsigned (c :: rest) = c :: rest := by
  unfold unsigned
  split
  next heq => exact absurd (List.cons.inj heq).1 h
  next => rfl

theorem unsigned_digits (n : Nat) : unsigned (Nat.toDigits 10 n) = Nat.toDigits 10 n := by
  obtain ⟨c, rest, hdigits⟩ := List.exists_cons_of_ne_nil (Nat.toDigits_ne_nil (n := n) (b := 10))
  have hmem : c ∈ Nat.toDigits 10 n := by
    rw [hdigits]
    exact List.mem_cons_self
  rw [hdigits]
  exact unsigned_of_ne (ne_of_isDigit (isDigit_of_mem hmem) rfl) rest

theorem natural_digits (n : Nat) : natural (Nat.toDigits 10 n) = .ok n := by
  have hall : (Nat.toDigits 10 n).all Char.isDigit = true :=
    List.all_eq_true.mpr fun c hc => isDigit_of_mem hc
  rw [natural, hall, List.isEmpty_eq_false_iff.mpr Nat.toDigits_ne_nil,
    Nat.ofDigitChars_ten_toDigits]
  rfl

theorem int_digits (n : Nat) : int (Nat.toDigits 10 n) = .ok n := by
  have hstrip : Text.strip (Nat.toDigits 10 n) = Nat.toDigits 10 n :=
    strip_of_no_space fun c hc => Text.isSpace_of_isDigit (isDigit_of_mem hc)
  rw [int, hstrip, unsigned_digits, natural_digits]

/-! ## Reading a run -/

theorem splitOn_runText_of_ne {run : Run} (h : run.first ≠ run.last) :
    (runText run).splitOn '-' = [Nat.toDigits 10 run.first, Nat.toDigits 10 run.last] := by
  have hparts : runText run
      = Nat.toDigits 10 run.first ++ delimited '-' [Nat.toDigits 10 run.last] := by
    rw [runText, if_neg h]
    simp
  rw [hparts, splitOn_delimited_iff]
  intro part hpart
  rcases List.mem_cons.mp hpart with rfl | hpart
  · exact not_mem_digits rfl
  · rw [List.mem_singleton.mp hpart]
    exact not_mem_digits rfl

theorem contains_runText_iff (run : Run) :
    (runText run).contains '-' = true ↔ run.first ≠ run.last := by
  rw [List.contains_iff_mem]
  constructor
  · intro hmem heq
    rw [runText, if_pos heq] at hmem
    exact not_mem_digits rfl hmem
  · intro hne
    rw [runText, if_neg hne]
    exact List.mem_append_right _ List.mem_cons_self

theorem comma_not_mem_runText (run : Run) : ',' ∉ runText run := by
  unfold runText
  split
  case isTrue => exact not_mem_digits rfl
  case isFalse =>
    rw [List.mem_append, List.mem_cons, not_or, not_or]
    exact ⟨not_mem_digits rfl, by decide, not_mem_digits rfl⟩

theorem runText_of_eq {run : Run} (h : run.first = run.last) :
    runText run = Nat.toDigits 10 run.first := by
  rw [runText, if_pos h]

theorem parseOnlineCpus_runText (run : Run) :
    parseOnlineCpus (runText run) = .ok run.numbers := by
  unfold parseOnlineCpus
  by_cases h : run.first = run.last
  · rw [if_neg fun hdash => (contains_runText_iff run).mp hdash h, runText_of_eq h, int_digits,
      Run.numbers_of_eq h]
    rfl
  · rw [if_pos ((contains_runText_iff run).mpr h), splitOn_runText_of_ne h]
    simp only [int_digits]
    rfl

theorem parsePinningValues_of_no_comma {values : Text} (h : ',' ∉ values) :
    parsePinningValues values =
      if values.contains '-' then parsePinningRange values else do return [← int values] := by
  rw [parsePinningValues, if_neg fun hcomma => h (List.contains_iff_mem.mp hcomma)]

theorem parsePinningValues_runText (run : Run) :
    parsePinningValues (runText run) = .ok run.numbers := by
  rw [parsePinningValues_of_no_comma (comma_not_mem_runText run)]
  by_cases h : run.first = run.last
  · rw [if_neg fun hdash => (contains_runText_iff run).mp hdash h, runText_of_eq h, int_digits,
      Run.numbers_of_eq h]
    rfl
  · rw [if_pos ((contains_runText_iff run).mpr h), parsePinningRange, splitOn_runText_of_ne h]
    simp only [int_digits]
    rfl

/-! ## Reading a list -/

theorem cpuList_empty : cpuList ∅ = [] := by
  rw [cpuList, Finset.sort_empty]
  rfl

theorem map_runText_ne_nil (h : cpus.Nonempty) : (runs cpus.sort).map runText ≠ [] := by
  obtain ⟨cpu, hcpu⟩ := h
  intro hnil
  have hsort : cpus.sort = [] := runs_eq_nil_iff.mp (List.map_eq_nil_iff.mp hnil)
  have hmem : cpu ∈ cpus.sort := (Finset.mem_sort _).mpr hcpu
  rw [hsort] at hmem
  exact absurd hmem List.not_mem_nil

theorem splitOn_cpuList (h : cpus.Nonempty) :
    (cpuList cpus).splitOn ',' = (runs cpus.sort).map runText := by
  refine List.splitOn_intercalate _ ?_ (map_runText_ne_nil h)
  intro text htext
  obtain ⟨run, -, rfl⟩ := List.mem_map.mp htext
  exact comma_not_mem_runText run

/-- A decoder that reads runs reads the numbers of the set from their texts. -/
theorem extendAll_runTexts (h : ∀ run, decode (runText run) = .ok run.numbers) (cpus : Finset Nat) :
    extendAll decode [] ((runs cpus.sort).map runText) = .ok cpus.sort := by
  rw [extendAll_map, extendAll_ok fun run _ => h run, List.nil_append, flatMap_numbers_runs]

/-- Every text is read part by part, also the one without a comma. -/
theorem parsePinningValues_eq_extendAll (values : Text) :
    parsePinningValues values = extendAll parsePinningValues [] (values.splitOn ',') := by
  by_cases h : ',' ∈ values
  · rw [parsePinningValues, if_pos (List.contains_iff_mem.mpr h), extendAll_attach]
  · rw [List.splitOn_eq_singleton h, extendAll_singleton]

theorem parsePinningValues_cpuList (h : cpus.Nonempty) :
    parsePinningValues (cpuList cpus) = .ok cpus.sort := by
  rw [parsePinningValues_eq_extendAll, splitOn_cpuList h]
  exact extendAll_runTexts parsePinningValues_runText cpus

theorem parseOnlineCpusList_cpuList (h : cpus.Nonempty) :
    parseOnlineCpusList (cpuList cpus) = .ok cpus.sort := by
  rw [parseOnlineCpusList, splitOn_cpuList h]
  exact extendAll_runTexts parseOnlineCpus_runText cpus

theorem parsePinningValues_nil : parsePinningValues [] = .error .valueError := by
  rw [parsePinningValues_of_no_comma List.not_mem_nil]
  decide

theorem parseOnlineCpusList_nil : parseOnlineCpusList [] = .error .valueError := by decide

theorem getListOfOnlineCpusOnResource_of_search {out : Text}
    (hout : searchOnlineCpus out = some (cpuList cpus)) (h : cpus.Nonempty) :
    getListOfOnlineCpusOnResource 0 out = .ok cpus.sort := by
  rw [getListOfOnlineCpusOnResource, if_neg (by decide), hout]
  exact parseOnlineCpusList_cpuList h

/-! ## Reading the lines of a status -/

variable {pinningType : PinningType} {text rest : Text}

theorem isListChar_of_isDigit (h : c.isDigit) : isListChar c = true := by
  rw [isListChar, h]
  rfl

theorem all_isListChar_runText (run : Run) : (runText run).all isListChar = true := by
  have hdigits : ∀ n, (Nat.toDigits 10 n).all isListChar = true := fun n =>
    List.all_eq_true.mpr fun c hc => isListChar_of_isDigit (isDigit_of_mem hc)
  unfold runText
  split
  case isTrue => exact hdigits _
  case isFalse =>
    rw [List.all_append, List.all_cons, hdigits, hdigits]
    rfl

theorem all_isListChar_cpuList (cpus : Finset Nat) : (cpuList cpus).all isListChar = true := by
  unfold cpuList
  induction runs cpus.sort with
  | nil => rfl
  | cons run rest ih =>
    cases rest with
    | nil =>
      rw [List.map_cons, List.map_nil, List.intercalate_singleton]
      exact all_isListChar_runText run
    | cons next rest =>
      rw [List.map_cons, List.map_cons, List.intercalate_cons_cons, List.all_append,
        List.all_append, all_isListChar_runText]
      exact ih

theorem cpuList_ne_nil (h : cpus.Nonempty) : cpuList cpus ≠ [] := by
  intro hnil
  have hparsed := parsePinningValues_cpuList h
  rw [hnil, parsePinningValues_nil] at hparsed
  exact nomatch hparsed

/-- A match at a line of a status is the list of its CPUs. -/
theorem pinningAt_statusLine (h : cpus.Nonempty) :
    pinningAt pinningType (statusLine pinningType cpus ++ rest) =
      some (cpuList cpus, '\n' :: rest) := by
  have hline : statusLine pinningType cpus ++ rest =
      (pinningType.text ++ [':']) ++ '\t' :: (cpuList cpus ++ '\n' :: rest) := by
    simp [statusLine]
  have hall := all_isListChar_cpuList cpus
  obtain ⟨c, list, hlist⟩ := List.exists_cons_of_ne_nil (cpuList_ne_nil h)
  have hspace : Text.isSpace c = false := by
    rw [hlist, List.all_cons, Bool.and_eq_true, isListChar, Bool.or_eq_true, Bool.or_eq_true,
      decide_eq_true_eq, decide_eq_true_eq] at hall
    rcases hall.1 with (hdigit | rfl) | rfl
    · exact Text.isSpace_of_isDigit hdigit
    · rfl
    · rfl
  have hblanks : (('\t' :: (cpuList cpus ++ '\n' :: rest)).takeWhile Text.isSpace).length = 1 := by
    rw [hlist, List.takeWhile_cons_of_pos rfl, List.cons_append,
      List.takeWhile_cons_of_neg (by rw [hspace]; exact Bool.false_ne_true)]
    rfl
  have hgroup : (cpuList cpus ++ '\n' :: rest).takeWhile isListChar = cpuList cpus := by
    rw [List.takeWhile_append_of_pos (List.all_eq_true.mp hall)]
    exact List.append_nil _
  have htail : (cpuList cpus ++ '\n' :: rest).dropWhile isListChar = '\n' :: rest := by
    rw [List.dropWhile_append_of_pos (List.all_eq_true.mp hall)]
    rfl
  unfold pinningAt
  rw [hline]
  simp only [List.isPrefixOf_iff_prefix.mpr (List.prefix_append _ _), if_true, List.drop_left,
    hblanks]
  simp [pinningGroup, hgroup, htail]

/-- What belongs to a match is not searched. -/
theorem findPinnings_length (text rest : Text) :
    findPinnings pinningType text.length (text ++ rest) = findPinnings pinningType 0 rest := by
  induction text with
  | nil => rfl
  | cons c text ih => exact ih

theorem findPinnings_newline (rest : Text) :
    findPinnings pinningType 0 ('\n' :: rest) = findPinnings pinningType 0 rest := by
  have hnone : pinningAt pinningType ('\n' :: rest) = none := by cases pinningType <;> rfl
  rw [findPinnings, hnone]

theorem findPinnings_statusLines {sets : List (Finset Nat)} (h : ∀ cpus ∈ sets, cpus.Nonempty) :
    findPinnings pinningType 0 (sets.flatMap (statusLine pinningType)) = sets.map cpuList := by
  induction sets with
  | nil => rfl
  | cons cpus sets ih =>
    obtain ⟨c, line, hline⟩ : ∃ c line, statusLine pinningType cpus = c :: (line ++ ['\n']) := by
      cases pinningType with
      | cpu => exact ⟨_, "pus_allowed_list:\t".toList ++ cpuList cpus, rfl⟩
      | memory => exact ⟨_, "ems_allowed_list:\t".toList ++ cpuList cpus, rfl⟩
    have hmatch := @pinningAt_statusLine cpus pinningType
      (sets.flatMap (statusLine pinningType)) (h cpus List.mem_cons_self)
    have htaken : (line ++ ['\n'] ++ sets.flatMap (statusLine pinningType)).length -
        ('\n' :: sets.flatMap (statusLine pinningType)).length = line.length := by
      simp
    rw [hline, List.cons_append] at hmatch
    rw [List.flatMap_cons, hline, List.cons_append, findPinnings, hmatch, List.map_cons]
    simp only [htaken]
    rw [List.append_assoc, List.singleton_append, findPinnings_length, findPinnings_newline,
      ih fun other hother => h other (List.mem_cons_of_mem _ hother)]

/-- What the kernel writes of the tasks of the process is read back, task by task. -/
theorem getVmNumaPinning_cpuLists {vmPid : Text} {runCommand : List Text → Int × Text}
    {sets : List (Finset Nat)} (hpid : vmPid ≠ []) (h : ∀ cpus ∈ sets, cpus.Nonempty)
    (hreply : runCommand (statusCommand vmPid pinningType) =
      (0, sets.flatMap (statusLine pinningType))) :
    getVmNumaPinning (some vmPid) runCommand pinningType =
      .ok (sets.zipIdx.map fun task => (task.2, task.1.sort)) := by
  have htruthy : Text.truthy (some vmPid) = true := by
    cases vmPid with
    | nil => exact absurd rfl hpid
    | cons c rest => rfl
  rw [getVmNumaPinning, htruthy, if_neg (by decide), Option.getD_some, hreply]
  simp only [ne_eq, not_true_eq_false, if_false]
  rw [findPinnings_statusLines h, List.zipIdx_map, extendAll_map]
  rw [@extendAll_ok _ _ _ _ (fun task : Finset Nat × Nat => [(task.2, task.1.sort)]),
    List.nil_append, ← List.map_eq_flatMap]
  intro task htask
  have hmem : task.1 ∈ sets := List.fst_mem_of_mem_zipIdx htask
  change Except.bind (parsePinningValues (cpuList task.1)) _ = _
  rw [parsePinningValues_cpuList (h _ hmem)]
  rfl

/-- Two tasks with runs of CPUs and a third with one CPU. -/
theorem getVmNumaPinning_cpuLists_three :
    getVmNumaPinning (some "42".toList)
        (fun _ => (0, [{0, 1, 2, 8}, {0, 1}, {5}].flatMap (statusLine .cpu))) .cpu =
      .ok [(0, Finset.sort {0, 1, 2, 8}), (1, Finset.sort {0, 1}), (2, Finset.sort {5})] := by
  refine @getVmNumaPinning_cpuLists _ _ _ [{0, 1, 2, 8}, {0, 1}, {5}] (by decide) ?_ rfl
  simp

/-! ## What the two decoders return -/

/-- The decoder returns the CPUs of the set, in increasing order and without repetition. -/
def Decodes (decode : Text → Except BuiltinError (List Nat)) (cpus : Finset Nat) : Prop :=
  ∃ found, decode (cpuList cpus) = .ok found ∧ found.SortedLT ∧ ∀ cpu, cpu ∈ found ↔ cpu ∈ cpus

/-- The set read as a pinning compares equal to a list of online CPUs exactly if that is of
the same set. -/
def ComparesEqual (cpus : Finset Nat) : Prop :=
  ∀ online : Finset Nat,
    (∃ pinned found, parsePinningValues (cpuList cpus) = .ok pinned ∧
      parseOnlineCpusList (cpuList online) = .ok found ∧ pinned = found) ↔ cpus = online

/-- A decoder that reads nonempty sets and rejects the empty text is right for nonempty sets
only. -/
theorem decodes_iff_nonempty
    (hread : ∀ cpus : Finset Nat, cpus.Nonempty → decode (cpuList cpus) = .ok cpus.sort)
    (hnil : decode [] = .error .valueError) (cpus : Finset Nat) :
    Decodes decode cpus ↔ cpus.Nonempty := by
  constructor
  · rintro ⟨found, hfound, -, -⟩
    rw [Finset.nonempty_iff_ne_empty]
    rintro rfl
    rw [cpuList_empty, hnil] at hfound
    cases hfound
  · intro h
    exact ⟨cpus.sort, hread cpus h, Finset.sortedLT_sort cpus, fun _ => Finset.mem_sort (· ≤ ·)⟩

theorem comparesEqual_iff_nonempty (cpus : Finset Nat) : ComparesEqual cpus ↔ cpus.Nonempty := by
  constructor
  · intro h
    obtain ⟨pinned, found, hpinned, -, -⟩ := (h cpus).mpr rfl
    rw [Finset.nonempty_iff_ne_empty]
    rintro rfl
    rw [cpuList_empty, parsePinningValues_nil] at hpinned
    cases hpinned
  · intro h online
    constructor
    · rintro ⟨pinned, found, hpinned, hfound, rfl⟩
      rcases online.eq_empty_or_nonempty with rfl | honline
      · rw [cpuList_empty, parseOnlineCpusList_nil] at hfound
        cases hfound
      · rw [parsePinningValues_cpuList h] at hpinned
        rw [parseOnlineCpusList_cpuList honline] at hfound
        have hsort : cpus.sort = online.sort := Except.ok.inj (hpinned.trans hfound.symm)
        calc
          cpus = cpus.sort.toFinset := (Finset.sort_toFinset cpus (· ≤ ·)).symm
          _ = online.sort.toFinset := by rw [hsort]
          _ = online := Finset.sort_toFinset online (· ≤ ·)
    · rintro rfl
      exact ⟨cpus.sort, cpus.sort, parsePinningValues_cpuList h, parseOnlineCpusList_cpuList h,
        rfl⟩

/-- Both decoders invert the kernel's format, and their lists compare as the sets do, exactly
for the sets that are not empty. -/
theorem cpu_lists_decoded_iff_nonempty (cpus : Finset Nat) :
    (Decodes parsePinningValues cpus ↔ cpus.Nonempty) ∧
    (Decodes parseOnlineCpusList cpus ↔ cpus.Nonempty) ∧
    (ComparesEqual cpus ↔ cpus.Nonempty) :=
  ⟨decodes_iff_nonempty (fun _ => parsePinningValues_cpuList) parsePinningValues_nil cpus,
    decodes_iff_nonempty (fun _ => parseOnlineCpusList_cpuList) parseOnlineCpusList_nil cpus,
    comparesEqual_iff_nonempty cpus⟩

/-- The empty set is read by neither decoder. -/
theorem empty_cpu_list_not_decoded :
    ¬ (∀ cpus : Finset Nat, Decodes parsePinningValues cpus ∧ Decodes parseOnlineCpusList cpus ∧
      ComparesEqual cpus) := by
  intro h
  obtain ⟨found, hfound, -, -⟩ := (h ∅).1
  rw [cpuList_empty, parsePinningValues_nil] at hfound
  cases hfound

end OvirtArt.Compute
