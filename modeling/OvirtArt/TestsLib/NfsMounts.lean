import Mathlib.Data.List.ReduceOption
import OvirtArt.Compute.CpuLists
import OvirtArt.CoreApi.TextSearch
import OvirtArt.Foundation.Overwrites
import OvirtArt.Foundation.Splitting

set_option autoImplicit false

/-!
# `get_mounted_nfs_resources` of `low_level/storagedomains.py`

The output of `mount` is read line by line, each cut at blanks, colons, commas and equality signs.

A line is a structure of a source, a target, a type and options, of which the fields of the result
are known.  Lines of other file systems are among them; the SSH session is left out.
-/

namespace OvirtArt.TestsLib.NfsMounts

open OvirtArt.CoreApi OvirtArt.Foundation

/-- What reading and checking the mounts raises. -/
inductive Fault where
  | valueError
  | keyError (key : Text)
  | unknownVersion
  | testException
  deriving DecidableEq, Repr

/-- The tuple of a line. -/
structure NfsResource where
  address : Text
  path : Text
  timeo : Int
  retrans : Int
  nfsvers : Text
  sync : Bool
  deriving DecidableEq, Repr

/-- The tuple of a resource in the result. -/
structure MountInfo where
  timeo : Int
  retrans : Int
  nfsvers : Text
  sync : Bool
  deriving DecidableEq, Repr

/-- `nfs_options`: the texts under their names, and whether `True` is under `sync`. -/
structure NfsOptions where
  values : Text → Option Text
  sync : Bool

/-- `int(text)`. -/
def int (text : Text) : Except Fault Int :=
  match Text.strip text with
  | '-' :: digits => ((Compute.natural digits).map fun n => -(n : Int)).mapError fun _ =>
    .valueError
  | digits => ((Compute.natural (Compute.unsigned digits)).map Int.ofNat).mapError fun _ =>
    .valueError

/-- The round for an option. -/
def readOption (nfsOptions : NfsOptions) (option : Text) : Except Fault NfsOptions :=
  if '=' ∈ option then
    match splitAll '=' option with
    | [name, value] =>
      .ok { nfsOptions with values := Function.update nfsOptions.values name (some value) }
    | _ => .error .valueError
  else if option = "sync".toList then .ok { nfsOptions with sync := true }
  else .ok nfsOptions

/-- `nfs_options[name]`. -/
def NfsOptions.item (nfsOptions : NfsOptions) (name : Text) : Except Fault Text :=
  match nfsOptions.values name with
  | some value => .ok value
  | none => .error (.keyError name)

/-- `nfsvers`. -/
def NfsOptions.nfsvers (nfsOptions : NfsOptions) : Except Fault Text :=
  if Text.truthy (nfsOptions.values "nfsvers".toList) then nfsOptions.item "nfsvers".toList
  else if Text.truthy (nfsOptions.values "vers".toList) then nfsOptions.item "vers".toList
  else .error .unknownVersion

/-- `'sync' in nfs_options.keys()`. -/
def NfsOptions.hasSync (nfsOptions : NfsOptions) : Bool :=
  nfsOptions.sync || (nfsOptions.values "sync".toList).isSome

/-- `nfs_options` of a line. -/
def readOptions (options : List Text) : Except Fault NfsOptions :=
  options.foldlM readOption { values := fun _ => none, sync := false }

/-- `'type nfs ' in line`: the line is taken for an NFS line. -/
def IsSeen (line : Text) : Prop := "type nfs ".toList <:+: line

instance (line : Text) : Decidable (IsSeen line) :=
  inferInstanceAs (Decidable ("type nfs ".toList <:+: line))

/-- `_parse_mount_output_line`. -/
def parseMountOutputLine (line : Text) : Except Fault (Option NfsResource) :=
  if IsSeen line then
    let parts := splitAll ' ' line
    match splitAll ':' (parts.headD []) with
    | [address, path] => do
        let nfsOptions ← readOptions (splitAll ',' (Text.slice (parts.getLastD []) 1 (-1)))
        let nfsvers ← nfsOptions.nfsvers
        let timeo ← int (← nfsOptions.item "timeo".toList)
        let retrans ← int (← nfsOptions.item "retrans".toList)
        return some
          { address := address
            path := path
            timeo := timeo
            retrans := retrans
            nfsvers := 'v' :: nfsvers
            sync := nfsOptions.hasSync }
    | _ => .error .valueError
  else .ok none

/-- `_parse_mount_output`. -/
def parseMountOutput (output : Text) : Except Fault (List NfsResource) := do
  let parsed ← (splitAll '\n' output).mapM parseMountOutputLine
  return parsed.reduceOption

/-- The entry that a resource makes. -/
def NfsResource.write (resource : NfsResource) : (Text × Text) × MountInfo :=
  ((resource.address, resource.path),
    { timeo := resource.timeo
      retrans := resource.retrans
      nfsvers := resource.nfsvers
      sync := resource.sync })

/-- `get_mounted_nfs_resources`, with what the command returns. -/
def getMountedNfsResources (rc : Nat) (out : Text) :
    Except Fault (Text × Text → Option MountInfo) :=
  if rc ≠ 0 then .error .testException
  else do
    let mounted ← parseMountOutput out
    return tableOf (mounted.map NfsResource.write)

/-! ## The output of `mount` -/

/-- An address: a name or an IPv4 address, or an IPv6 address in brackets. -/
inductive Address where
  | plain (text : Text) (no_colon : ':' ∉ text) (no_blank : ' ' ∉ text)
  | bracketed (text : Text) (colon : ':' ∈ text) (no_blank : ' ' ∉ text)

/-- The address as a mount names it. -/
def Address.text : Address → Text
  | .plain text _ _ => text
  | .bracketed text _ _ => '[' :: text ++ [']']

/-- The address has no colon. -/
def Address.IsPlain : Address → Prop
  | .plain _ _ _ => True
  | .bracketed _ _ _ => False

/-- An option, a name or `name=value`. -/
structure MountOption where
  name : Text
  value : Option Text
  name_chars : ∀ c ∈ name, c ∉ ['=', ',', ' ']
  value_chars : ∀ text, value = some text → ∀ c ∈ text, c ∉ [',', ' ']

/-- The option as the list of options writes it. -/
def MountOption.text (option : MountOption) : Text :=
  match option.value with
  | none => option.name
  | some value => option.name ++ '=' :: value

/-- The two names of the option for the version. -/
inductive VersionName where
  | nfsvers
  | vers
  deriving DecidableEq, Repr

/-- The option that carries the version. -/
def VersionName.text : VersionName → Text
  | .nfsvers => "nfsvers".toList
  | .vers => "vers".toList

/-- The other name of that option. -/
def VersionName.other : VersionName → VersionName
  | .nfsvers => .vers
  | .vers => .nfsvers

/-- An NFS resource that is mounted, of type `nfs` or `nfs4`. -/
structure NfsMount where
  address : Address
  path : Text
  target : Text
  isNfs4 : Bool
  options : List MountOption
  timeo : Nat
  retrans : Nat
  versionName : VersionName
  version : Text
  path_chars : ' ' ∉ path
  names_nodup : (options.map MountOption.name).Nodup
  timeo_option : ∃ option ∈ options,
    option.name = "timeo".toList ∧ option.value = some (Nat.toDigits 10 timeo)
  retrans_option : ∃ option ∈ options,
    option.name = "retrans".toList ∧ option.value = some (Nat.toDigits 10 retrans)
  version_option : ∃ option ∈ options,
    option.name = versionName.text ∧ option.value = some version
  version_only : ∀ option ∈ options, option.name ≠ versionName.other.text
  version_ne_nil : version ≠ []

/-- `address:path`. -/
def NfsMount.source (mount : NfsMount) : Text := mount.address.text ++ ':' :: mount.path

/-- The options in their brackets. -/
def NfsMount.bracket (mount : NfsMount) : Text :=
  '(' :: (Text.join [','] (mount.options.map MountOption.text) ++ [')'])

/-- A line of `mount`. -/
def lineText (source target fstype bracket : Text) : Text :=
  source ++ ' ' :: ("on ".toList ++ target ++ " type ".toList ++ fstype ++ ' ' :: bracket)

/-- The line of an NFS mount. -/
def NfsMount.text (mount : NfsMount) : Text :=
  lineText mount.source mount.target (if mount.isNfs4 then "nfs4".toList else "nfs".toList)
    mount.bracket

/-- What the line says. -/
def NfsMount.resource (mount : NfsMount) : NfsResource where
  address := mount.address.text
  path := mount.path
  timeo := mount.timeo
  retrans := mount.retrans
  nfsvers := 'v' :: mount.version
  sync := mount.options.any (·.name == "sync".toList)

/-- A resource of another type. -/
structure OtherMount where
  source : Text
  target : Text
  fstype : Text
  options : Text
  other_type : fstype ∉ ["nfs".toList, "nfs4".toList]

/-- The line of any other mount. -/
def OtherMount.text (mount : OtherMount) : Text :=
  lineText mount.source mount.target mount.fstype ('(' :: (mount.options ++ [')']))

/-- A line of the output. -/
inductive MountLine where
  | nfs (mount : NfsMount)
  | other (mount : OtherMount)

/-- The line as it is written. -/
def MountLine.text : MountLine → Text
  | .nfs mount => mount.text
  | .other mount => mount.text

/-- An output with its lines, the last of which may have an end. -/
structure MountOutput where
  text : Text
  lines : List MountLine
  lines_eq : splitAll '\n' text = lines.map MountLine.text ∨
    splitAll '\n' text = lines.map MountLine.text ++ [[]]

/-! ## What is asked for -/

/-- The entry of an NFS line. -/
def MountLine.nfsWrite? : MountLine → Option ((Text × Text) × MountInfo)
  | .nfs mount => some mount.resource.write
  | .other _ => none

/-- The entry of each NFS source, of its last line. -/
def expected (lines : List MountLine) : Text × Text → Option MountInfo :=
  tableOf (lines.filterMap MountLine.nfsWrite?)

/-- What is returned is the table of the NFS lines. -/
def ReadsMounts (output : MountOutput) : Prop :=
  ∃ table, getMountedNfsResources 0 output.text = .ok table ∧
    ∀ source, table source = expected output.lines source

/-! ## When it is returned -/

/-- The address and the path have no colon, and no value has an equality sign. -/
structure NfsMount.IsReadable (mount : NfsMount) : Prop where
  address : mount.address.IsPlain
  path : ':' ∉ mount.path
  values : ∀ option ∈ mount.options, ∀ value, option.value = some value → '=' ∉ value

/-- The entry for what is read of a line, if anything is. -/
def writeOf : Except Fault (Option NfsResource) → Option ((Text × Text) × MountInfo)
  | .ok parsed => parsed.map NfsResource.write
  | .error _ => none

/-- The entry of a line that is taken for an NFS line; of a line of another type, what is read of
it. -/
def MountLine.seenWrite? : MountLine → Option ((Text × Text) × MountInfo)
  | .nfs mount => if IsSeen mount.text then some mount.resource.write else none
  | .other mount => writeOf (parseMountOutputLine mount.text)

/-- Each line that is taken for an NFS line can be read, and for each source the last of them says
what its last NFS line says. -/
structure Legible (lines : List MountLine) : Prop where
  mounts : ∀ mount, MountLine.nfs mount ∈ lines → IsSeen mount.text → mount.IsReadable
  others : ∀ mount, MountLine.other mount ∈ lines →
    ∃ parsed, parseMountOutputLine mount.text = .ok parsed
  sameLast : ∀ source,
    tableOf (lines.filterMap MountLine.seenWrite?) source = expected lines source

/-! ## The parts of a line -/

section

variable {source target fstype bracket text : Text}

theorem headD_splitAll_lineText (h : ' ' ∉ source) :
    (splitAll ' ' (lineText source target fstype bracket)).headD [] = source := by
  unfold lineText
  rw [splitAll_append h]
  rfl

theorem getLastD_splitAll_lineText (h : ' ' ∉ bracket) :
    (splitAll ' ' (lineText source target fstype bracket)).getLastD [] = bracket := by
  unfold lineText
  rw [← List.cons_append, ← List.append_assoc, splitAll_append_sep, splitAll_of_not_mem h]
  exact List.getLastD_concat

/-- Texts that are joined are split again. -/
theorem splitAll_join {sep : Char} {texts : List Text} (h : ∀ text ∈ texts, sep ∉ text)
    (hne : texts ≠ []) : splitAll sep (Text.join [sep] texts) = texts := by
  induction texts with
  | nil => exact absurd rfl hne
  | cons text texts ih =>
    obtain ⟨htext, hrest⟩ := List.forall_mem_cons.mp h
    cases texts with
    | nil => exact splitAll_of_not_mem htext
    | cons next texts =>
      have hjoin : Text.join [sep] (text :: next :: texts) =
          text ++ sep :: Text.join [sep] (next :: texts) := by
        simp [Text.join]
      rw [hjoin, splitAll_append htext, ih hrest (List.cons_ne_nil _ _)]

/-- A text with a separator too many has more than two pieces. -/
theorem splitAll_ne_pair {sep : Char} {before after : Text} (h : sep ∈ before ∨ sep ∈ after)
    (first second : Text) : splitAll sep (before ++ sep :: after) ≠ [first, second] := by
  intro hpair
  have hlength := length_splitAll sep (before ++ sep :: after)
  rw [hpair, List.count_append, List.count_cons_self] at hlength
  change 2 = _ at hlength
  rcases h with hbefore | hafter
  · have hpos := List.count_pos_iff.mpr hbefore
    omega
  · have hpos := List.count_pos_iff.mpr hafter
    omega

/-! ## Options -/

variable {option : MountOption} {options : List MountOption} {nfsOptions : NfsOptions}
  {name value : Text}

theorem MountOption.not_mem_name (option : MountOption) {c : Char} (h : c ∈ ['=', ',', ' ']) :
    c ∉ option.name := fun hmem => option.name_chars c hmem h

theorem MountOption.not_mem_text (option : MountOption) {c : Char} (h : c ∈ [',', ' ']) :
    c ∉ option.text := by
  have hname : c ∉ option.name := option.not_mem_name (List.mem_cons_of_mem _ h)
  unfold MountOption.text
  cases hvalue : option.value with
  | none => exact hname
  | some value =>
    intro hmem
    rcases List.mem_append.mp hmem with hin | hrest
    · exact hname hin
    · rcases List.mem_cons.mp hrest with rfl | hin
      · exact absurd h (by decide)
      · exact option.value_chars value hvalue c hin h

/-- The options after one that is read. -/
def NfsOptions.put (nfsOptions : NfsOptions) (option : MountOption) : NfsOptions :=
  match option.value with
  | some value =>
    { nfsOptions with values := Function.update nfsOptions.values option.name (some value) }
  | none => { nfsOptions with sync := nfsOptions.sync || option.name == "sync".toList }

theorem readOption_of_plain (h : ∀ value, option.value = some value → '=' ∉ value) :
    readOption nfsOptions option.text = .ok (nfsOptions.put option) := by
  have hname : '=' ∉ option.name := option.not_mem_name List.mem_cons_self
  unfold readOption MountOption.text NfsOptions.put
  cases hvalue : option.value with
  | none =>
    simp only []
    rw [if_neg hname]
    by_cases hsync : option.name = "sync".toList
    · rw [if_pos hsync, beq_iff_eq.mpr hsync, Bool.or_true]
    · rw [if_neg hsync, beq_eq_false_iff_ne.mpr hsync, Bool.or_false]
  | some value =>
    simp only []
    rw [if_pos (List.mem_append_right _ List.mem_cons_self), splitAll_append hname,
      splitAll_of_not_mem (h value hvalue)]

theorem readOption_of_equals (hvalue : option.value = some value) (h : '=' ∈ value) :
    readOption nfsOptions option.text = .error .valueError := by
  unfold readOption MountOption.text
  rw [hvalue]
  simp only []
  rw [if_pos (List.mem_append_right _ List.mem_cons_self)]
  have hpair := @splitAll_ne_pair '=' option.name value (.inr h)
  split
  next name found hsplit => exact absurd hsplit (hpair name found)
  next => rfl

/-- Options without an equality sign in a value are all put in. -/
theorem foldlM_readOption_of_plain
    (h : ∀ option ∈ options, ∀ value, option.value = some value → '=' ∉ value) :
    (options.map MountOption.text).foldlM readOption nfsOptions =
      .ok (options.foldl NfsOptions.put nfsOptions) := by
  induction options generalizing nfsOptions with
  | nil => rfl
  | cons option options ih =>
    obtain ⟨hoption, hrest⟩ := List.forall_mem_cons.mp h
    rw [List.map_cons, List.foldlM_cons, readOption_of_plain hoption]
    exact ih hrest

theorem foldlM_readOption_of_equals (hmem : option ∈ options) (hvalue : option.value = some value)
    (h : '=' ∈ value) :
    ∃ fault, (options.map MountOption.text).foldlM readOption nfsOptions = .error fault := by
  induction options generalizing nfsOptions with
  | nil => exact absurd hmem List.not_mem_nil
  | cons first options ih =>
    rw [List.map_cons, List.foldlM_cons]
    rcases List.mem_cons.mp hmem with rfl | hrest
    · rw [readOption_of_equals hvalue h]
      exact ⟨.valueError, rfl⟩
    · cases hfirst : readOption nfsOptions first.text with
      | error fault => exact ⟨fault, rfl⟩
      | ok next => exact ih hrest

/-- The entries that the options make. -/
def assigned (options : List MountOption) : List (Text × Text) :=
  options.filterMap fun option => option.value.map fun value => (option.name, value)

theorem values_foldl_put :
    (options.foldl NfsOptions.put nfsOptions).values =
      overwrite nfsOptions.values (assigned options) := by
  induction options generalizing nfsOptions with
  | nil => rfl
  | cons option options ih =>
    rw [List.foldl_cons, ih]
    unfold NfsOptions.put assigned
    rw [List.filterMap_cons]
    cases option.value with
    | none => rfl
    | some value => rfl

theorem sync_foldl_put :
    (options.foldl NfsOptions.put nfsOptions).sync =
      (nfsOptions.sync || options.any fun option =>
        option.value.isNone && option.name == "sync".toList) := by
  induction options generalizing nfsOptions with
  | nil => exact (Bool.or_false _).symm
  | cons option options ih =>
    rw [List.foldl_cons, ih, NfsOptions.put, List.any_cons]
    cases option.value with
    | none =>
      simp only [Option.isNone_none, Bool.true_and]
      rw [Bool.or_assoc]
    | some value =>
      simp only [Option.isNone_some, Bool.false_and, Bool.false_or]

end

/-! ## A line of an NFS resource -/

theorem int_digits (n : Nat) : int (Nat.toDigits 10 n) = .ok (n : Int) := by
  have hstrip : Text.strip (Nat.toDigits 10 n) = Nat.toDigits 10 n :=
    Compute.strip_of_no_space fun c hc => Text.isSpace_of_isDigit (Compute.isDigit_of_mem hc)
  unfold int
  rw [hstrip]
  split
  next digits hdash =>
    have hmem : '-' ∈ Nat.toDigits 10 n := hdash ▸ List.mem_cons_self
    exact absurd hmem (Compute.not_mem_digits rfl)
  next =>
    rw [Compute.unsigned_digits, Compute.natural_digits]
    rfl

section

variable {mount : NfsMount} {option : MountOption} {name value : Text}

/-- What is read of the options. -/
def NfsMount.nfsOptions (mount : NfsMount) : NfsOptions :=
  mount.options.foldl NfsOptions.put { values := fun _ => none, sync := false }

theorem NfsMount.values_eq (mount : NfsMount) :
    mount.nfsOptions.values = tableOf (assigned mount.options) := values_foldl_put

theorem NfsMount.assigned_nodup (mount : NfsMount) :
    ((assigned mount.options).map Prod.fst).Nodup := by
  refine mount.names_nodup.sublist ?_
  unfold assigned
  generalize mount.options = options
  induction options with
  | nil => exact List.Sublist.slnil
  | cons option options ih =>
    rw [List.filterMap_cons, List.map_cons]
    cases option.value with
    | none => exact ih.cons _
    | some value => exact ih.cons_cons _

theorem NfsMount.values_of_option (h : ∃ option ∈ mount.options, option.name = name ∧
    option.value = some value) : mount.nfsOptions.values name = some value := by
  obtain ⟨option, hoption, rfl, hvalue⟩ := h
  rw [mount.values_eq]
  have hmem : (option.name, value) ∈ assigned mount.options := by
    refine List.mem_filterMap.mpr ⟨option, hoption, ?_⟩
    rw [hvalue]
    rfl
  exact tableOf_of_mem mount.assigned_nodup hmem

theorem exists_option_of_mem_assigned {options : List MountOption}
    (h : (name, value) ∈ assigned options) :
    ∃ option ∈ options, option.name = name ∧ option.value = some value := by
  obtain ⟨option, hoption, hsome⟩ := List.mem_filterMap.mp h
  obtain ⟨found, hfound, hpair⟩ := Option.map_eq_some_iff.mp hsome
  obtain ⟨rfl, rfl⟩ := Prod.mk.inj hpair
  exact ⟨option, hoption, rfl, hfound⟩

theorem NfsMount.values_other (mount : NfsMount) :
    mount.nfsOptions.values mount.versionName.other.text = none := by
  rw [mount.values_eq]
  refine tableOf_eq_none fun write hwrite hname => ?_
  obtain ⟨name, value⟩ := write
  obtain ⟨option, hoption, hsame, -⟩ := exists_option_of_mem_assigned hwrite
  exact mount.version_only option hoption (hsame.trans hname)

theorem NfsMount.nfsvers_eq (mount : NfsMount) : mount.nfsOptions.nfsvers = .ok mount.version := by
  have hversion := NfsMount.values_of_option mount.version_option
  have hother := mount.values_other
  have htruthy : Text.truthy (some mount.version) = true := by
    unfold Text.truthy
    simpa using mount.version_ne_nil
  unfold NfsOptions.nfsvers NfsOptions.item
  cases hname : mount.versionName with
  | nfsvers =>
    rw [hname] at hversion
    change mount.nfsOptions.values "nfsvers".toList = _ at hversion
    rw [hversion, if_pos htruthy]
  | vers =>
    rw [hname] at hversion hother
    change mount.nfsOptions.values "vers".toList = _ at hversion
    change mount.nfsOptions.values "nfsvers".toList = _ at hother
    have hnone : Text.truthy none = false := rfl
    rw [hother, hversion, hnone, if_neg Bool.false_ne_true, if_pos htruthy]

theorem NfsMount.hasSync_eq (mount : NfsMount) :
    mount.nfsOptions.hasSync = mount.options.any (·.name == "sync".toList) := by
  have hsync : mount.nfsOptions.sync = mount.options.any fun option =>
      option.value.isNone && option.name == "sync".toList := sync_foldl_put
  unfold NfsOptions.hasSync
  rw [Bool.eq_iff_iff, Bool.or_eq_true, hsync, List.any_eq_true, List.any_eq_true]
  constructor
  · rintro (⟨option, hoption, hflag⟩ | hassigned)
    · exact ⟨option, hoption, (Bool.and_eq_true_iff.mp hflag).2⟩
    · obtain ⟨value, hvalue⟩ := Option.isSome_iff_exists.mp hassigned
      rw [mount.values_eq] at hvalue
      obtain ⟨option, hoption, hname, -⟩ := exists_option_of_mem_assigned (mem_of_tableOf hvalue)
      exact ⟨option, hoption, beq_iff_eq.mpr hname⟩
  · rintro ⟨option, hoption, hname⟩
    cases hvalue : option.value with
    | none =>
      refine .inl ⟨option, hoption, ?_⟩
      rw [hvalue, hname]
      rfl
    | some value =>
      refine .inr ?_
      rw [NfsMount.values_of_option ⟨option, hoption, beq_iff_eq.mp hname, hvalue⟩]
      rfl

theorem NfsMount.not_mem_source (mount : NfsMount) : ' ' ∉ mount.source := by
  unfold NfsMount.source
  intro hmem
  rcases List.mem_append.mp hmem with haddress | hrest
  · revert haddress
    cases mount.address with
    | plain text no_colon no_blank => exact no_blank
    | bracketed text colon no_blank =>
      change ' ' ∉ '[' :: (text ++ [']'])
      simpa using no_blank
  · rcases List.mem_cons.mp hrest with heq | hpath
    · exact absurd heq (by decide)
    · exact mount.path_chars hpath

theorem NfsMount.not_mem_texts {c : Char} (mount : NfsMount) (h : c ∈ [',', ' ']) :
    ∀ text ∈ mount.options.map MountOption.text, c ∉ text := by
  intro text htext
  obtain ⟨option, -, rfl⟩ := List.mem_map.mp htext
  exact option.not_mem_text h

theorem NfsMount.not_mem_bracket (mount : NfsMount) : ' ' ∉ mount.bracket := by
  have hjoin : ' ' ∉ Text.join [','] (mount.options.map MountOption.text) :=
    Text.not_mem_join (by decide) (mount.not_mem_texts (by decide))
  unfold NfsMount.bracket
  simpa using hjoin

theorem NfsMount.texts_ne_nil (mount : NfsMount) : mount.options.map MountOption.text ≠ [] := by
  obtain ⟨option, hoption, -⟩ := mount.timeo_option
  exact List.ne_nil_of_mem (List.mem_map_of_mem hoption)

/-- The options of the line are split into their texts. -/
theorem NfsMount.splitAll_bracket (mount : NfsMount) :
    splitAll ',' (Text.slice mount.bracket 1 (-1)) = mount.options.map MountOption.text := by
  unfold NfsMount.bracket
  rw [Text.slice_inner]
  exact splitAll_join (mount.not_mem_texts (by decide)) mount.texts_ne_nil

theorem parse_of_not_seen {line : Text} (h : ¬ IsSeen line) :
    parseMountOutputLine line = .ok none := if_neg h

theorem parts_eq (mount : NfsMount) :
    (splitAll ' ' mount.text).headD [] = mount.source ∧
      (splitAll ' ' mount.text).getLastD [] = mount.bracket :=
  ⟨headD_splitAll_lineText mount.not_mem_source, getLastD_splitAll_lineText mount.not_mem_bracket⟩

theorem Address.not_mem_iff {address : Address} : ':' ∉ address.text ↔ address.IsPlain := by
  cases address with
  | plain text no_colon no_blank => exact iff_of_true no_colon trivial
  | bracketed text colon no_blank =>
    refine iff_of_false (fun h => h ?_) not_false
    exact List.mem_cons_of_mem _ (List.mem_append_left _ colon)

/-- A readable line that is taken for an NFS line gives what it says. -/
theorem parse_of_readable (hseen : IsSeen mount.text) (h : mount.IsReadable) :
    parseMountOutputLine mount.text = .ok (some mount.resource) := by
  obtain ⟨hhead, hlast⟩ := parts_eq mount
  have hsource : splitAll ':' mount.source = [mount.address.text, mount.path] := by
    unfold NfsMount.source
    rw [splitAll_append (Address.not_mem_iff.mpr h.address), splitAll_of_not_mem h.path]
  have hoptions : readOptions (mount.options.map MountOption.text) = .ok mount.nfsOptions :=
    foldlM_readOption_of_plain h.values
  have htimeo := NfsMount.values_of_option mount.timeo_option
  have hretrans := NfsMount.values_of_option mount.retrans_option
  unfold parseMountOutputLine
  rw [if_pos hseen]
  dsimp only
  rw [hhead, hlast, hsource, mount.splitAll_bracket, hoptions]
  simp only [bind, Except.bind, mount.nfsvers_eq, NfsOptions.item, htimeo, hretrans, int_digits,
    mount.hasSync_eq]
  rfl

/-- Any other line that is taken for an NFS line raises. -/
theorem parse_of_not_readable (hseen : IsSeen mount.text) (h : ¬ mount.IsReadable) :
    ∃ fault, parseMountOutputLine mount.text = .error fault := by
  obtain ⟨hhead, hlast⟩ := parts_eq mount
  unfold parseMountOutputLine
  rw [if_pos hseen]
  dsimp only
  rw [hhead, hlast, mount.splitAll_bracket]
  by_cases hcolon : ':' ∈ mount.address.text ∨ ':' ∈ mount.path
  · have hpair := splitAll_ne_pair hcolon
    refine ⟨.valueError, ?_⟩
    unfold NfsMount.source
    split
    next address path hsplit => exact absurd hsplit (hpair address path)
    next => rfl
  · obtain ⟨haddress, hpath⟩ := not_or.mp hcolon
    have hsource : splitAll ':' mount.source = [mount.address.text, mount.path] := by
      unfold NfsMount.source
      rw [splitAll_append haddress, splitAll_of_not_mem hpath]
    have hvalue : ∃ option ∈ mount.options, ∃ value, option.value = some value ∧ '=' ∈ value := by
      by_contra hnone
      refine h { address := Address.not_mem_iff.mp haddress, path := hpath, values := ?_ }
      intro option hoption value hvalue hequals
      exact hnone ⟨option, hoption, value, hvalue, hequals⟩
    obtain ⟨option, hoption, value, hvalue, hequals⟩ := hvalue
    obtain ⟨fault, hfault⟩ : ∃ fault, readOptions (mount.options.map MountOption.text) =
        .error fault := foldlM_readOption_of_equals hoption hvalue hequals
    rw [hsource, hfault]
    exact ⟨fault, rfl⟩

end

/-! ## The whole output -/

section

variable {lines : List MountLine} {line : MountLine} {texts : List Text} {output : MountOutput}

/-- A line is read without an exception exactly if it can be read where it is taken for an NFS
line. -/
theorem exists_parse_iff : (∃ parsed, parseMountOutputLine line.text = .ok parsed) ↔
    (∀ mount, line = .nfs mount → IsSeen mount.text → mount.IsReadable) ∧
      ∀ mount, line = .other mount → ∃ parsed, parseMountOutputLine mount.text = .ok parsed := by
  cases line with
  | nfs mount =>
    constructor
    · rintro ⟨parsed, hparsed⟩
      refine ⟨fun found hfound hseen => ?_, nofun⟩
      obtain rfl := MountLine.nfs.inj hfound
      by_contra hreadable
      obtain ⟨fault, hfault⟩ := parse_of_not_readable hseen hreadable
      exact nomatch hfault.symm.trans hparsed
    · rintro ⟨hmount, -⟩
      by_cases hseen : IsSeen mount.text
      · exact ⟨_, parse_of_readable hseen (hmount mount rfl hseen)⟩
      · exact ⟨none, parse_of_not_seen hseen⟩
  | other mount =>
    constructor
    · intro hparsed
      refine ⟨nofun, fun found hfound => ?_⟩
      obtain rfl := MountLine.other.inj hfound
      exact hparsed
    · exact fun h => h.2 mount rfl

/-- The entry of a line that is read. -/
theorem write_of_parse {parsed : Option NfsResource}
    (h : parseMountOutputLine line.text = .ok parsed) :
    parsed.map NfsResource.write = line.seenWrite? := by
  cases line with
  | nfs mount =>
    change parseMountOutputLine mount.text = _ at h
    unfold MountLine.seenWrite?
    by_cases hseen : IsSeen mount.text
    · have hreadable : mount.IsReadable := by
        by_contra hreadable
        obtain ⟨fault, hfault⟩ := parse_of_not_readable hseen hreadable
        exact nomatch hfault.symm.trans h
      obtain rfl := Except.ok.inj ((parse_of_readable hseen hreadable).symm.trans h)
      exact (if_pos hseen).symm
    · obtain rfl := Except.ok.inj ((parse_of_not_seen hseen).symm.trans h)
      exact (if_neg hseen).symm
  | other mount =>
    change parseMountOutputLine mount.text = _ at h
    change _ = writeOf (parseMountOutputLine mount.text)
    rw [h]
    rfl

/-- The lines are read if each of them is. -/
theorem exists_mapM_parse
    (h : ∀ line ∈ lines, ∃ parsed, parseMountOutputLine line.text = .ok parsed) :
    ∃ found, (lines.map MountLine.text).mapM parseMountOutputLine = .ok found := by
  induction lines with
  | nil => exact ⟨[], rfl⟩
  | cons line lines ih =>
    obtain ⟨⟨parsed, hparsed⟩, hrest⟩ := List.forall_mem_cons.mp h
    obtain ⟨found, hfound⟩ := ih hrest
    rw [List.map_cons, List.mapM_cons, hparsed, hfound]
    exact ⟨parsed :: found, rfl⟩

/-- Where the lines are read, each of them is, and the entries are theirs. -/
theorem of_mapM_parse {found : List (Option NfsResource)}
    (h : (lines.map MountLine.text).mapM parseMountOutputLine = .ok found) :
    found.reduceOption.map NfsResource.write = lines.filterMap MountLine.seenWrite? ∧
      ∀ line ∈ lines, ∃ parsed, parseMountOutputLine line.text = .ok parsed := by
  have hall := mapM_eq_ok_iff.mp h
  clear h
  induction lines generalizing found with
  | nil =>
    rw [List.forall₂_nil_left_iff.mp hall]
    exact ⟨rfl, nofun⟩
  | cons line lines ih =>
    obtain ⟨parsed, others, hparsed, hothers, rfl⟩ := List.forall₂_cons_left_iff.mp hall
    obtain ⟨hwrites, hlines⟩ := ih hothers
    refine ⟨?_, List.forall_mem_cons.mpr ⟨⟨parsed, hparsed⟩, hlines⟩⟩
    rw [List.filterMap_cons, ← write_of_parse hparsed, ← hwrites]
    cases parsed with
    | none => rfl
    | some resource => rfl

/-- An end of the last line makes no difference. -/
theorem parseMountOutput_eq : parseMountOutput output.text =
    ((output.lines.map MountLine.text).mapM parseMountOutputLine).map List.reduceOption := by
  unfold parseMountOutput
  rcases output.lines_eq with hlines | hlines
  · rw [hlines]
    rfl
  · have hempty : parseMountOutputLine [] = .ok none := parse_of_not_seen (by decide)
    rw [hlines, List.mapM_append, List.mapM_cons, hempty]
    cases (output.lines.map MountLine.text).mapM parseMountOutputLine with
    | error fault => rfl
    | ok found =>
      change Except.ok (found ++ [none]).reduceOption = Except.ok found.reduceOption
      rw [List.reduceOption_append]
      exact congrArg Except.ok (List.append_nil _)

theorem getMountedNfsResources_eq_ok_iff {table : Text × Text → Option MountInfo} :
    getMountedNfsResources 0 output.text = .ok table ↔
      ∃ found, (output.lines.map MountLine.text).mapM parseMountOutputLine = .ok found ∧
        tableOf (found.reduceOption.map NfsResource.write) = table := by
  unfold getMountedNfsResources
  rw [if_neg (by decide), parseMountOutput_eq]
  cases (output.lines.map MountLine.text).mapM parseMountOutputLine with
  | error fault =>
    refine iff_of_false nofun ?_
    rintro ⟨found, hfound, -⟩
    exact nomatch hfound
  | ok found =>
    change Except.ok (tableOf (found.reduceOption.map NfsResource.write)) = Except.ok table ↔ _
    constructor
    · exact fun h => ⟨found, rfl, Except.ok.inj h⟩
    · rintro ⟨other, hother, htable⟩
      obtain rfl := Except.ok.inj hother
      exact congrArg Except.ok htable

end

/-- The table of the NFS lines is returned exactly if all the lines are legible. -/
theorem readsMounts_iff (output : MountOutput) : ReadsMounts output ↔ Legible output.lines := by
  constructor
  · rintro ⟨table, htable, hexpected⟩
    obtain ⟨found, hfound, rfl⟩ := getMountedNfsResources_eq_ok_iff.mp htable
    obtain ⟨hwrites, hlines⟩ := of_mapM_parse hfound
    rw [hwrites] at hexpected
    exact
      { mounts := fun mount hmount => (exists_parse_iff.mp (hlines _ hmount)).1 mount rfl
        others := fun mount hmount => (exists_parse_iff.mp (hlines _ hmount)).2 mount rfl
        sameLast := hexpected }
  · intro h
    have hlines : ∀ line ∈ output.lines, ∃ parsed,
        parseMountOutputLine line.text = .ok parsed := by
      intro line hline
      refine exists_parse_iff.mpr ⟨fun mount hmount => ?_, fun mount hmount => ?_⟩
      · exact h.mounts mount (hmount ▸ hline)
      · exact h.others mount (hmount ▸ hline)
    obtain ⟨found, hfound⟩ := exists_mapM_parse hlines
    refine ⟨_, getMountedNfsResources_eq_ok_iff.mpr ⟨found, hfound, rfl⟩, ?_⟩
    rw [(of_mapM_parse hfound).1]
    exact h.sameLast

/-! ## Outputs without other lines that look alike -/

theorem timeo_chars : ∀ c ∈ "timeo".toList, c ∉ ['=', ',', ' '] :=
  Text.forall_of_all (by decide)

theorem retrans_chars : ∀ c ∈ "retrans".toList, c ∉ ['=', ',', ' '] :=
  Text.forall_of_all (by decide)

theorem vers_chars : ∀ c ∈ "vers".toList, c ∉ ['=', ',', ' '] :=
  Text.forall_of_all (by decide)

theorem timeo_value : ∀ text, some (Nat.toDigits 10 600) = some text →
    ∀ c ∈ text, c ∉ [',', ' '] := by
  intro text htext
  obtain rfl := Option.some.inj htext
  exact Text.forall_of_all (by decide)

theorem retrans_value : ∀ text, some (Nat.toDigits 10 6) = some text →
    ∀ c ∈ text, c ∉ [',', ' '] := by
  intro text htext
  obtain rfl := Option.some.inj htext
  exact Text.forall_of_all (by decide)

theorem vers_value : ∀ text, some "4.1".toList = some text → ∀ c ∈ text, c ∉ [',', ' '] := by
  intro text htext
  obtain rfl := Option.some.inj htext
  exact Text.forall_of_all (by decide)

/-- `timeo=600,retrans=6,vers=4.1`. -/
def threeOptions : List MountOption :=
  [⟨"timeo".toList, some (Nat.toDigits 10 600), timeo_chars, timeo_value⟩,
    ⟨"retrans".toList, some (Nat.toDigits 10 6), retrans_chars, retrans_value⟩,
    ⟨"vers".toList, some "4.1".toList, vers_chars, vers_value⟩]

theorem exports_chars : ' ' ∉ "/exports/1".toList := by decide

theorem three_nodup : (threeOptions.map MountOption.name).Nodup := by decide

theorem three_timeo : ∃ option ∈ threeOptions,
    option.name = "timeo".toList ∧ option.value = some (Nat.toDigits 10 600) :=
  ⟨_, List.mem_cons_self, rfl, rfl⟩

theorem three_retrans : ∃ option ∈ threeOptions,
    option.name = "retrans".toList ∧ option.value = some (Nat.toDigits 10 6) :=
  ⟨_, List.mem_cons_of_mem _ List.mem_cons_self, rfl, rfl⟩

theorem three_version : ∃ option ∈ threeOptions,
    option.name = VersionName.vers.text ∧ option.value = some "4.1".toList :=
  ⟨_, List.mem_cons_of_mem _ (List.mem_cons_of_mem _ List.mem_cons_self), rfl, rfl⟩

theorem three_version_only : ∀ option ∈ threeOptions,
    option.name ≠ VersionName.vers.other.text := by
  intro option hoption hname
  have hnames : "nfsvers".toList ∉ threeOptions.map MountOption.name := by decide
  have hmem := List.mem_map_of_mem (f := MountOption.name) hoption
  rw [hname] at hmem
  exact hnames hmem

theorem version_ne_nil_of_vers : "4.1".toList ≠ [] := by decide

theorem server_no_colon : ':' ∉ "10.0.0.1".toList := by decide

theorem server_no_blank : ' ' ∉ "10.0.0.1".toList := by decide

theorem ipv6_colon : ':' ∈ "fd00::1".toList := by decide

theorem ipv6_no_blank : ' ' ∉ "fd00::1".toList := by decide

/-- An address without brackets. -/
def ipv4Address : Address := .plain "10.0.0.1".toList server_no_colon server_no_blank

/-- An address in brackets. -/
def ipv6Address : Address := .bracketed "fd00::1".toList ipv6_colon ipv6_no_blank

/-- A mount of `/exports/1` with the three options. -/
def mountOf (address : Address) (isNfs4 : Bool) : NfsMount where
  address := address
  path := "/exports/1".toList
  target := "/mnt".toList
  isNfs4 := isNfs4
  options := threeOptions
  timeo := 600
  retrans := 6
  versionName := .vers
  version := "4.1".toList
  path_chars := exports_chars
  names_nodup := three_nodup
  timeo_option := three_timeo
  retrans_option := three_retrans
  version_option := three_version
  version_only := three_version_only
  version_ne_nil := version_ne_nil_of_vers

theorem nfs4_lines_eq : splitAll '\n' (mountOf ipv4Address true).text =
      [MountLine.nfs (mountOf ipv4Address true)].map MountLine.text ∨
    splitAll '\n' (mountOf ipv4Address true).text =
      [MountLine.nfs (mountOf ipv4Address true)].map MountLine.text ++ [[]] :=
  .inl (by decide)

/-- One line, of type `nfs4`. -/
def nfs4Output : MountOutput where
  text := (mountOf ipv4Address true).text
  lines := [.nfs (mountOf ipv4Address true)]
  lines_eq := nfs4_lines_eq

set_option maxRecDepth 4096 in
/-- A resource of type `nfs4` is not in the result, and an IPv6 address of one of type `nfs`
raises. -/
theorem nfs4_not_read :
    parseMountOutput nfs4Output.text = .ok [] ∧ ¬ ReadsMounts nfs4Output ∧
      parseMountOutput (mountOf ipv6Address false).text = .error .valueError := by
  have hparse : parseMountOutput nfs4Output.text = .ok [] := by decide
  refine ⟨hparse, ?_, by decide⟩
  rintro ⟨table, htable, hexpected⟩
  have hempty : getMountedNfsResources 0 nfs4Output.text = .ok (tableOf []) := by
    unfold getMountedNfsResources
    rw [if_neg (by decide), hparse]
    rfl
  obtain rfl := Except.ok.inj (hempty.symm.trans htable)
  have hnone := hexpected ((mountOf ipv4Address true).address.text, "/exports/1".toList)
  exact nomatch hnone

end OvirtArt.TestsLib.NfsMounts
