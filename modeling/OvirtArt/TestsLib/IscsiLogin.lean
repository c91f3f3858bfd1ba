import OvirtArt.CoreApi.TextLines
import OvirtArt.Foundation.Collecting
import OvirtArt.Foundation.Recordings
import OvirtArt.Foundation.Splitting

set_option autoImplicit false

/-!
# `_ISCSIdiscoverAndLogin` of `high_level/storagedomains.py`

The targets are discovered by the engine, or with `login_all` by a command on the host, whose
output is read line by line.

The output is any text.  The command itself is not run: its return code and output are parameters,
and so is the answer of the engine to each login.
-/

namespace OvirtArt.TestsLib.IscsiLogin

open OvirtArt.CoreApi OvirtArt.Foundation

/-- What the login raises. -/
inductive Fault where
  | entityNotFound
  | indexError
  | typeError
  | valueError
  deriving DecidableEq, Repr

/-- What `run_cmd` returns. -/
structure CommandResult where
  rc : Nat
  out : Text

/-- A host, by its address. -/
structure HostObj where
  address : Text

/-- What the engine and the hosts answer. -/
structure World where
  /-- `hostUtil.find`. -/
  findHost : Text → Except Fault HostObj
  /-- The command on the host of this address. -/
  runCmd : Text → Text → CommandResult
  /-- The response to the action `iscsidiscover`, for this address. -/
  iscsidiscover : HostObj → Text → Option Text
  /-- Whether the action `iscsilogin` succeeds, by the number of attempts before. -/
  iscsilogin : HostObj → Nat → Text × Text → Bool

/-! ## Discovery -/

/-- The group of the pattern in a line, which reaches to the last closing tag. -/
def findGroup (opening closing line : Text) : Option Text := do
  let start ← Text.index? opening line
  let rest := line.drop (start + opening.length)
  let after ← Text.index? closing.reverse rest.reverse
  return rest.take (rest.length - (after + closing.length))

/-- `extract_attribute` of `rest_utils.py`. -/
def extractAttribute (response : Option Text) (attr : Text) : Option (List Text) :=
  if Text.truthy response && !attr.isEmpty then
    some (((response.getD []).splitOn '\n').filterMap
      (findGroup ("<".toList ++ attr ++ ">".toList) ("</".toList ++ attr ++ ">".toList)))
  else none

section

variable (world : World) (host : Text)

/-- `iscsiDiscover`. -/
def iscsiDiscover (address : Text) : Except Fault (Option (List Text)) := do
  let hostObj ← world.findHost host
  return extractAttribute (world.iscsidiscover hostObj address) "iscsi_target".toList

/-- The pair of a line. -/
def addressAndTarget (line : Text) : Except Fault (Text × Text) :=
  match Text.words line with
  | first :: target :: _ => .ok ((splitAll ':' first).headD [], target)
  | _ => .error .indexError

/-- `addresses, targets = zip(*pairs)`. -/
def unzipped (pairs : List (Text × Text)) : Except Fault (List Text × List Text) :=
  if pairs.isEmpty then .error .valueError else .ok pairs.unzip

/-- The command of `discover_addresses_and_targets`. -/
def discoveryCmd (serverAddress : Text) : Text :=
  "iscsiadm -m discovery -t st -p ".toList ++ serverAddress

/-- `discover_addresses_and_targets`. -/
def discoverAddressesAndTargets (serverAddress : Text) :
    Except Fault (Option (List Text) × Option (List Text)) := do
  let hostObj ← world.findHost host
  let result := world.runCmd hostObj.address (discoveryCmd serverAddress)
  if result.rc != 0 then return (none, none)
  else
    let lines := (Text.splitlines result.out).filter fun line => !line.isEmpty
    let pairs ← lines.mapM addressAndTarget
    let lists ← unzipped pairs
    return (some lists.1, some lists.2)

/-! ## Login -/

/-- The loop of `iscsiLogin`, after so many attempts. -/
def loginEach (login : Nat → Text × Text → Bool) :
    Nat → List (Text × Text) → Recorded Fault (Text × Text) Bool
  | _, [] => return true
  | attempt, pair :: rest => do
      let accepted ← Recorded.ask pair (.ok (login attempt pair))
      if !accepted then return false else loginEach login (attempt + 1) rest

/-- `iscsiLogin`; the entries are the attempts. -/
def iscsiLogin (addresses targets : Option (List Text)) :
    Recorded Fault (Text × Text) Bool := do
  let hostObj ← Recorded.call (world.findHost host)
  match addresses, targets with
  | some addresses, some targets =>
    loginEach (world.iscsilogin hostObj) 0 (addresses.zip targets)
  | _, _ => Recorded.call (.error .typeError)

/-- `_ISCSIdiscoverAndLogin`. -/
def iscsiDiscoverAndLogin (lunAddress lunTarget : Text) (loginAll : Bool) :
    Recorded Fault (Text × Text) Bool := do
  if loginAll then
    let lists ← Recorded.call (discoverAddressesAndTargets world host lunAddress)
    let loggedIn ← iscsiLogin world host lists.1 lists.2
    if !loggedIn then return false else return true
  else
    let targets ← Recorded.call (iscsiDiscover world host lunAddress)
    if (targets.getD []).isEmpty then return false
    else
      let loggedIn ← iscsiLogin world host (some [lunAddress]) (some [lunTarget])
      if !loggedIn then return false else return true

end

/-! ## What is discovered -/

/-- A portal: a name or an IPv4 address, or an IPv6 address in brackets. -/
inductive Portal where
  | plain (text : Text) (word : Text.IsWord text) (no_colon : ':' ∉ text)
  | bracketed (address : Text) (no_space : ∀ c ∈ address, Text.isSpace c = false)
      (colon : ':' ∈ address)

/-- The portal as it is printed. -/
def Portal.text : Portal → Text
  | .plain text _ _ => text
  | .bracketed address _ _ => '[' :: address ++ [']']

/-- The portal is no IPv6 address. -/
def Portal.IsPlain : Portal → Prop
  | .plain _ _ _ => True
  | .bracketed _ _ _ => False

/-- A record of the output. -/
structure DiscoveryRecord where
  portal : Portal
  port : Text
  tag : Text
  target : Text
  port_digits : ∀ c ∈ port, c.isDigit = true
  tag_digits : ∀ c ∈ tag, c.isDigit = true
  target_word : Text.IsWord target

/-- The first word of its line. -/
def DiscoveryRecord.place (record : DiscoveryRecord) : Text :=
  record.portal.text ++ ':' :: (record.port ++ ',' :: record.tag)

/-- The line of the record. -/
def DiscoveryRecord.text (record : DiscoveryRecord) : Text := record.place ++ ' ' :: record.target

/-- What is to be logged in to. -/
def DiscoveryRecord.pair (record : DiscoveryRecord) : Text × Text :=
  (record.portal.text, record.target)

/-- A line of the output. -/
inductive OutputLine where
  | record (found : DiscoveryRecord)
  | blank (spaces : Text) (only : ∀ c ∈ spaces, Text.isSpace c = true)

/-- The line as it is printed. -/
def OutputLine.text : OutputLine → Text
  | .record found => found.text
  | .blank spaces _ => spaces

/-- The record of a line, if it is one. -/
def OutputLine.record? : OutputLine → Option DiscoveryRecord
  | .record found => some found
  | .blank _ _ => none

/-- The line is a record or has nothing in it, no blanks either. -/
def OutputLine.IsTight : OutputLine → Prop
  | .record _ => True
  | .blank spaces _ => spaces = []

/-- An output of the command, with its lines. -/
structure Output where
  text : Text
  lines : List OutputLine
  lines_eq : Text.splitlines text = lines.map OutputLine.text

/-- The records of an output, and none if the command has failed. -/
def recordsOf : Option Output → List DiscoveryRecord
  | none => []
  | some output => output.lines.filterMap OutputLine.record?

/-- The command fails, or it prints this. -/
def Prints (result : CommandResult) : Option Output → Prop
  | none => result.rc ≠ 0
  | some output => result.rc = 0 ∧ result.out = output.text

/-! ## What is asked for -/

/-- The attempts for these pairs and whether all have succeeded: they are made in order until one
fails. -/
inductive LogsIn (login : Nat → Text × Text → Bool) :
    Nat → List (Text × Text) → List (Text × Text) → Bool → Prop where
  | done (attempt : Nat) : LogsIn login attempt [] [] true
  | failed {attempt : Nat} {pair : Text × Text} (rest : List (Text × Text))
      (h : login attempt pair = false) : LogsIn login attempt (pair :: rest) [pair] false
  | next {attempt : Nat} {pair : Text × Text} {rest attempts : List (Text × Text)}
      {status : Bool} (h : login attempt pair = true)
      (hrest : LogsIn login (attempt + 1) rest attempts status) :
      LogsIn login attempt (pair :: rest) (pair :: attempts) status

section

variable (world : World) (hostObj : HostObj) (lunAddress : Text) (loginAll : Bool)
  (outcome : Option Output)

/-- Something has been discovered. -/
def Discovered : Prop :=
  if loginAll then recordsOf outcome ≠ []
  else ∃ targets, extractAttribute (world.iscsidiscover hostObj lunAddress)
    "iscsi_target".toList = some targets ∧ targets ≠ []

/-- A boolean is returned, `False` if nothing has been discovered, and with `login_all` the host
logs in to what has been. -/
structure LogsInToDiscovered (run : Recorded Fault (Text × Text) Bool) : Prop where
  returns : ∃ status, run.result = .ok status
  nothing : ¬ Discovered world hostObj lunAddress loginAll outcome → run.result = .ok false
  logins : loginAll = true → Discovered world hostObj lunAddress loginAll outcome →
    ∃ status, run.result = .ok status ∧ LogsIn (world.iscsilogin hostObj) 0
      ((recordsOf outcome).map DiscoveryRecord.pair) run.entries status

/-- All these logins succeed. -/
def AllSucceed (login : Nat → Text × Text → Bool) (attempt : Nat)
    (records : List DiscoveryRecord) : Prop :=
  ∀ position record, records[position]? = some record →
    login (attempt + position) record.pair = true

/-- No portal that is reached is an IPv6 address. -/
def ReachesPlain (login : Nat → Text × Text → Bool) (attempt : Nat)
    (records : List DiscoveryRecord) : Prop :=
  ∀ before record rest, records = before ++ record :: rest →
    AllSucceed login attempt before → record.portal.IsPlain

/-- There are records, the blank lines between them are empty, and no portal that is reached is an
IPv6 address. -/
structure Readable (login : Nat → Text × Text → Bool) : Prop where
  records : recordsOf outcome ≠ []
  tight : ∀ output, outcome = some output → ∀ line ∈ output.lines, line.IsTight
  plain : ReachesPlain login 0 (recordsOf outcome)

end

/-! ## Reading the lines -/

section

variable {record : DiscoveryRecord} {line : OutputLine} {lines : List OutputLine}
  {records : List DiscoveryRecord} {c : Char}

theorem Portal.no_space (portal : Portal) : ∀ c ∈ portal.text, Text.isSpace c = false := by
  cases portal with
  | plain text word no_colon => exact word.no_space
  | bracketed address no_space colon =>
    intro c hc
    rcases List.mem_cons.mp hc with rfl | hrest
    · rfl
    · rcases List.mem_append.mp hrest with haddress | hlast
      · exact no_space c haddress
      · rw [List.mem_singleton.mp hlast]
        rfl

theorem DiscoveryRecord.place_word (record : DiscoveryRecord) : Text.IsWord record.place where
  ne_nil := List.append_ne_nil_of_right_ne_nil _ (List.cons_ne_nil _ _)
  no_space := by
    intro c hc
    rcases List.mem_append.mp hc with hportal | hrest
    · exact record.portal.no_space c hportal
    · rcases List.mem_cons.mp hrest with rfl | hrest
      · rfl
      · rcases List.mem_append.mp hrest with hport | hrest
        · exact Text.isSpace_of_isDigit (record.port_digits c hport)
        · rcases List.mem_cons.mp hrest with rfl | htag
          · rfl
          · exact Text.isSpace_of_isDigit (record.tag_digits c htag)

/-- What is read of a record: its portal up to the first colon. -/
def cutPair (record : DiscoveryRecord) : Text × Text :=
  ((splitAll ':' record.place).headD [], record.target)

theorem addressAndTarget_text : addressAndTarget record.text = .ok (cutPair record) := by
  have hwords : Text.words record.text = [record.place, record.target] := by
    unfold DiscoveryRecord.text
    rw [Text.words_word_append record.place_word rfl, Text.words_of_isWord record.target_word]
  unfold addressAndTarget cutPair
  rw [hwords]

theorem addressAndTarget_of_spaces {spaces : Text} (h : ∀ c ∈ spaces, Text.isSpace c = true) :
    addressAndTarget spaces = .error .indexError := by
  unfold addressAndTarget
  rw [Text.words_of_spaces h]

/-- The first piece has no separator in it. -/
theorem not_mem_headD_splitAll (sep : Char) (text : Text) : sep ∉ (splitAll sep text).headD [] := by
  induction text with
  | nil => exact List.not_mem_nil
  | cons c text ih =>
    unfold splitAll
    by_cases hc : c = sep
    · rw [if_pos hc]
      exact List.not_mem_nil
    · rw [if_neg hc]
      cases hpieces : splitAll sep text with
      | nil =>
        exact fun hmem => hc (List.mem_singleton.mp hmem).symm
      | cons piece pieces =>
        rw [hpieces] at ih
        intro hmem
        rcases List.mem_cons.mp hmem with heq | hrest
        · exact hc heq.symm
        · exact ih hrest

/-- The address that is read is the portal exactly if that is no IPv6 address. -/
theorem cutPair_eq_pair_iff : cutPair record = record.pair ↔ record.portal.IsPlain := by
  unfold cutPair DiscoveryRecord.pair DiscoveryRecord.place
  cases record.portal with
  | plain text word no_colon =>
    refine iff_of_true ?_ trivial
    change ((splitAll ':' (text ++ ':' :: _)).headD [], _) = (text, _)
    rw [splitAll_append no_colon]
    rfl
  | bracketed address no_space colon =>
    refine iff_of_false (fun h => ?_) not_false
    have hcolon : ':' ∈ (Portal.bracketed address no_space colon).text :=
      List.mem_cons_of_mem _ (List.mem_append_left _ colon)
    rw [← (Prod.mk.inj h).1] at hcolon
    exact not_mem_headD_splitAll ':' _ hcolon

/-- The pairs that are read of the lines that are not empty. -/
def readPairs (lines : List OutputLine) : Except Fault (List (Text × Text)) :=
  ((lines.map OutputLine.text).filter fun line => !line.isEmpty).mapM addressAndTarget

theorem DiscoveryRecord.text_nonempty (record : DiscoveryRecord) :
    (!record.text.isEmpty) = true := by
  have hne : record.text ≠ [] := List.append_ne_nil_of_right_ne_nil _ (List.cons_ne_nil _ _)
  simpa using hne

theorem readPairs_record_cons :
    readPairs (.record record :: lines) = (readPairs lines).map (cutPair record :: ·) := by
  unfold readPairs
  rw [List.map_cons, List.filter_cons]
  change (if (!record.text.isEmpty) = true then record.text :: _ else _ : List Text).mapM _ = _
  rw [if_pos record.text_nonempty, List.mapM_cons]
  change (addressAndTarget record.text).bind _ = _
  rw [addressAndTarget_text]
  rfl

theorem readPairs_blank_cons {spaces : Text} (only : ∀ c ∈ spaces, Text.isSpace c = true) :
    readPairs (.blank spaces only :: lines) =
      if spaces.isEmpty then readPairs lines else .error .indexError := by
  unfold readPairs
  rw [List.map_cons, List.filter_cons]
  change (if (!spaces.isEmpty) = true then spaces :: _ else _ : List Text).mapM _ = _
  cases spaces.isEmpty with
  | true => rfl
  | false =>
    rw [Bool.not_false, if_pos rfl, if_neg Bool.false_ne_true, List.mapM_cons]
    change (addressAndTarget spaces).bind _ = _
    rw [addressAndTarget_of_spaces only]
    rfl

/-- Tight lines are read, each record cut. -/
theorem readPairs_of_tight (h : ∀ line ∈ lines, line.IsTight) :
    readPairs lines = .ok ((lines.filterMap OutputLine.record?).map cutPair) := by
  induction lines with
  | nil => rfl
  | cons line lines ih =>
    obtain ⟨hline, hrest⟩ := List.forall_mem_cons.mp h
    cases line with
    | record found =>
      rw [readPairs_record_cons, ih hrest]
      rfl
    | blank spaces only =>
      change spaces = [] at hline
      rw [readPairs_blank_cons, if_pos (List.isEmpty_iff.mpr hline), ih hrest]
      rfl

/-- A blank line with blanks in it raises. -/
theorem readPairs_of_not_tight (h : ¬ ∀ line ∈ lines, line.IsTight) :
    ∃ fault, readPairs lines = .error fault := by
  induction lines with
  | nil => exact absurd (fun _ hline => absurd hline List.not_mem_nil) h
  | cons line lines ih =>
    cases line with
    | record found =>
      have hrest : ¬ ∀ line ∈ lines, line.IsTight :=
        fun hrest => h (List.forall_mem_cons.mpr ⟨trivial, hrest⟩)
      obtain ⟨fault, hfault⟩ := ih hrest
      rw [readPairs_record_cons, hfault]
      exact ⟨fault, rfl⟩
    | blank spaces only =>
      rw [readPairs_blank_cons]
      by_cases hempty : spaces.isEmpty = true
      · rw [if_pos hempty]
        refine ih fun hrest => h (List.forall_mem_cons.mpr ⟨?_, hrest⟩)
        exact List.isEmpty_iff.mp hempty
      · rw [if_neg hempty]
        exact ⟨.indexError, rfl⟩

end

/-! ## Logging in -/

section

variable {login : Nat → Text × Text → Bool} {attempt : Nat} {pair : Text × Text}
  {pairs : List (Text × Text)} {record : DiscoveryRecord} {records : List DiscoveryRecord}

theorem loginEach_cons_of_rejected (h : login attempt pair = false) :
    loginEach login attempt (pair :: pairs) = { entries := [pair], result := .ok false } := by
  unfold loginEach
  rw [h]
  rfl

theorem loginEach_cons_of_accepted (h : login attempt pair = true) :
    loginEach login attempt (pair :: pairs) =
      { entries := pair :: (loginEach login (attempt + 1) pairs).entries
        result := (loginEach login (attempt + 1) pairs).result } := by
  rw [loginEach, h]
  rfl

theorem loginEach_returns (login : Nat → Text × Text → Bool) (attempt : Nat)
    (pairs : List (Text × Text)) :
    ∃ status, (loginEach login attempt pairs).result = .ok status := by
  induction pairs generalizing attempt with
  | nil => exact ⟨true, rfl⟩
  | cons pair pairs ih =>
    cases h : login attempt pair with
    | false =>
      rw [loginEach_cons_of_rejected h]
      exact ⟨false, rfl⟩
    | true =>
      rw [loginEach_cons_of_accepted h]
      exact ih (attempt + 1)

/-- The first attempt is for the pair that comes first. -/
theorem head_entries_loginEach :
    (loginEach login attempt (pair :: pairs)).entries.head? = some pair := by
  cases h : login attempt pair with
  | false => rw [loginEach_cons_of_rejected h, List.head?_cons]
  | true => rw [loginEach_cons_of_accepted h, List.head?_cons]

variable {attempts : List (Text × Text)}

theorem LogsIn.head {status : Bool} (h : LogsIn login attempt (pair :: pairs) attempts status) :
    attempts.head? = some pair := by
  cases h with
  | failed rest h => rfl
  | next h hrest => rfl

theorem logsIn_cons_iff {status : Bool} (h : login attempt pair = true) :
    LogsIn login attempt (pair :: pairs) (pair :: attempts) status ↔
      LogsIn login (attempt + 1) pairs attempts status := by
  constructor
  · intro hlogsIn
    cases hlogsIn with
    | failed rest hfailed => exact absurd (h.symm.trans hfailed) Bool.true_eq_false.mp
    | next h hrest => exact hrest
  · exact fun hrest => .next h hrest

theorem allSucceed_cons : AllSucceed login attempt (record :: records) ↔
    login attempt record.pair = true ∧ AllSucceed login (attempt + 1) records := by
  unfold AllSucceed
  constructor
  · intro h
    refine ⟨h 0 record rfl, fun position found hfound => ?_⟩
    have hlogin := h (position + 1) found hfound
    rw [Nat.add_right_comm]
    exact hlogin
  · rintro ⟨hfirst, hrest⟩ position found hfound
    cases position with
    | zero =>
      obtain rfl := Option.some.inj hfound
      exact hfirst
    | succ position =>
      have hlogin := hrest position found hfound
      rw [Nat.add_right_comm] at hlogin
      exact hlogin

theorem reachesPlain_cons : ReachesPlain login attempt (record :: records) ↔
    record.portal.IsPlain ∧
      (login attempt record.pair = true → ReachesPlain login (attempt + 1) records) := by
  constructor
  · intro h
    refine ⟨h [] record records rfl nofun, fun hlogin before found rest hrecords hbefore => ?_⟩
    refine h (record :: before) found rest (congrArg (record :: ·) hrecords) ?_
    exact allSucceed_cons.mpr ⟨hlogin, hbefore⟩
  · rintro ⟨hfirst, hrest⟩ before found rest hrecords hbefore
    cases before with
    | nil =>
      obtain ⟨rfl, -⟩ := List.cons.inj hrecords
      exact hfirst
    | cons other before =>
      obtain ⟨rfl, hrecords'⟩ := List.cons.inj hrecords
      obtain ⟨hlogin, hbefore⟩ := allSucceed_cons.mp hbefore
      exact hrest hlogin before found rest hrecords' hbefore

/-- The loop over the cut pairs logs in to the records exactly if the portals that are reached are
no IPv6 addresses. -/
theorem logsIn_cutPairs_iff :
    (∃ status, (loginEach login attempt (records.map cutPair)).result = .ok status ∧
      LogsIn login attempt (records.map DiscoveryRecord.pair)
        (loginEach login attempt (records.map cutPair)).entries status) ↔
      ReachesPlain login attempt records := by
  induction records generalizing attempt with
  | nil =>
    refine iff_of_true ⟨true, rfl, .done attempt⟩ fun before record rest hrecords => ?_
    exact absurd hrecords.symm (List.append_ne_nil_of_right_ne_nil _ (List.cons_ne_nil _ _))
  | cons record records ih =>
    rw [List.map_cons, List.map_cons, reachesPlain_cons]
    by_cases hplain : record.portal.IsPlain
    · rw [cutPair_eq_pair_iff.mpr hplain, and_iff_right hplain]
      cases hlogin : login attempt record.pair with
      | false =>
        rw [loginEach_cons_of_rejected hlogin]
        exact iff_of_true ⟨false, rfl, .failed _ hlogin⟩ nofun
      | true =>
        rw [loginEach_cons_of_accepted hlogin, forall_prop_of_true rfl, ← ih]
        exact exists_congr fun status => and_congr_right fun _ => logsIn_cons_iff hlogin
    · refine iff_of_false ?_ fun h => hplain h.1
      rintro ⟨status, -, hlogsIn⟩
      have hhead := head_entries_loginEach.symm.trans hlogsIn.head
      exact hplain (cutPair_eq_pair_iff.mp (Option.some.inj hhead))

end

/-! ## Both ways of discovery -/

section

variable {world : World} {host lunAddress lunTarget : Text} {hostObj : HostObj}
  {outcome : Option Output} {output : Output} {pairs : List (Text × Text)} {fault : Fault}

/-- The status that is tested at the end is the one that is returned. -/
theorem bind_status_eq (m : Recorded Fault (Text × Text) Bool) :
    (do
      let loggedIn ← m
      if !loggedIn then return false else return true) = m := by
  cases h : m.result with
  | error fault =>
    rw [Recorded.bind_eq_of_error h, ← h]
  | ok loggedIn =>
    rw [Recorded.bind_eq_of_ok h]
    cases loggedIn with
    | false =>
      change { entries := m.entries ++ [], result := .ok false } = m
      rw [List.append_nil, ← h]
    | true =>
      change { entries := m.entries ++ [], result := .ok true } = m
      rw [List.append_nil, ← h]

theorem iscsiLogin_eq (hhost : world.findHost host = .ok hostObj) (addresses targets : List Text) :
    iscsiLogin world host (some addresses) (some targets) =
      loginEach (world.iscsilogin hostObj) 0 (addresses.zip targets) := by
  unfold iscsiLogin
  rw [hhost]
  rfl

/-- With `login_all`, what has been discovered is what the loop is over. -/
theorem loginAll_eq :
    iscsiDiscoverAndLogin world host lunAddress lunTarget true = (do
      let lists ← Recorded.call (discoverAddressesAndTargets world host lunAddress)
      iscsiLogin world host lists.1 lists.2) := by
  unfold iscsiDiscoverAndLogin
  rw [if_pos rfl]
  exact congrArg _ (funext fun lists => bind_status_eq _)

section

variable (hhost : world.findHost host = .ok hostObj)
include hhost

/-- A command that fails leaves nothing to iterate over. -/
theorem loginAll_of_fails
    (h : (world.runCmd hostObj.address (discoveryCmd lunAddress)).rc ≠ 0) :
    (iscsiDiscoverAndLogin world host lunAddress lunTarget true).result = .error .typeError := by
  have hdiscover : discoverAddressesAndTargets world host lunAddress = .ok (none, none) := by
    unfold discoverAddressesAndTargets
    rw [hhost]
    exact if_pos (bne_iff_ne.mpr h)
  rw [loginAll_eq, hdiscover]
  change (iscsiLogin world host none none).result = _
  unfold iscsiLogin
  rw [hhost]
  rfl

theorem discoverAddressesAndTargets_eq
    (h : Prints (world.runCmd hostObj.address (discoveryCmd lunAddress)) (some output)) :
    discoverAddressesAndTargets world host lunAddress = (readPairs output.lines).bind fun pairs =>
      (unzipped pairs).map fun lists => (some lists.1, some lists.2) := by
  obtain ⟨hrc, hout⟩ := h
  unfold discoverAddressesAndTargets readPairs
  rw [hhost, ← output.lines_eq, ← hout]
  change (if (world.runCmd hostObj.address (discoveryCmd lunAddress)).rc != 0 then _ else _) = _
  rw [hrc]
  rfl

theorem loginAll_of_unreadable
    (h : Prints (world.runCmd hostObj.address (discoveryCmd lunAddress)) (some output))
    (hread : readPairs output.lines = .error fault) :
    (iscsiDiscoverAndLogin world host lunAddress lunTarget true).result = .error fault := by
  rw [loginAll_eq, discoverAddressesAndTargets_eq hhost h, hread]
  rfl

/-- Without records there is nothing to unpack. -/
theorem loginAll_of_nothing
    (h : Prints (world.runCmd hostObj.address (discoveryCmd lunAddress)) (some output))
    (hread : readPairs output.lines = .ok []) :
    (iscsiDiscoverAndLogin world host lunAddress lunTarget true).result = .error .valueError := by
  rw [loginAll_eq, discoverAddressesAndTargets_eq hhost h, hread]
  rfl

theorem loginAll_of_pairs
    (h : Prints (world.runCmd hostObj.address (discoveryCmd lunAddress)) (some output))
    (hread : readPairs output.lines = .ok pairs) (hpairs : pairs ≠ []) :
    iscsiDiscoverAndLogin world host lunAddress lunTarget true =
      loginEach (world.iscsilogin hostObj) 0 pairs := by
  have hunzipped : unzipped pairs = .ok pairs.unzip := if_neg (by simpa using hpairs)
  rw [loginAll_eq, discoverAddressesAndTargets_eq hhost h, hread]
  change Recorded.call ((unzipped pairs).map _) >>= _ = _
  rw [hunzipped, Recorded.bind_eq_of_ok rfl]
  change iscsiLogin world host (some pairs.unzip.1) (some pairs.unzip.2) = _
  rw [iscsiLogin_eq hhost, List.zip_unzip]

/-- With `login_all` the host logs in to what is discovered exactly if that is readable. -/
theorem loginAll_iff
    (h : Prints (world.runCmd hostObj.address (discoveryCmd lunAddress)) outcome) :
    LogsInToDiscovered world hostObj lunAddress true outcome
      (iscsiDiscoverAndLogin world host lunAddress lunTarget true) ↔
      Readable outcome (world.iscsilogin hostObj) := by
  cases outcome with
  | none =>
    refine iff_of_false (fun hmeets => ?_) fun hreadable => hreadable.records rfl
    obtain ⟨status, hstatus⟩ := hmeets.returns
    exact nomatch (loginAll_of_fails hhost h).symm.trans hstatus
  | some output =>
    by_cases htight : ∀ line ∈ output.lines, line.IsTight
    · have hread := readPairs_of_tight htight
      by_cases hrecords : recordsOf (some output) = []
      · change output.lines.filterMap OutputLine.record? = [] at hrecords
        refine iff_of_false (fun hmeets => ?_) fun hreadable => hreadable.records hrecords
        obtain ⟨status, hstatus⟩ := hmeets.returns
        rw [hrecords] at hread
        exact nomatch (loginAll_of_nothing hhost h hread).symm.trans hstatus
      · have hpairs : (recordsOf (some output)).map cutPair ≠ [] :=
          fun hnil => hrecords (List.map_eq_nil_iff.mp hnil)
        have hdiscovered : Discovered world hostObj lunAddress true (some output) := hrecords
        rw [loginAll_of_pairs hhost h hread hpairs]
        constructor
        · intro hmeets
          exact
            { records := hrecords
              tight := fun other hother line hline => htight line (Option.some.inj hother ▸ hline)
              plain := logsIn_cutPairs_iff.mp (hmeets.logins rfl hdiscovered) }
        · intro hreadable
          exact
            { returns := loginEach_returns _ _ _
              nothing := fun hnot => absurd hdiscovered hnot
              logins := fun _ _ => logsIn_cutPairs_iff.mpr hreadable.plain }
    · refine iff_of_false (fun hmeets => ?_) fun hreadable =>
        htight (hreadable.tight output rfl)
      obtain ⟨fault, hread⟩ := readPairs_of_not_tight htight
      obtain ⟨status, hstatus⟩ := hmeets.returns
      exact nomatch (loginAll_of_unreadable hhost h hread).symm.trans hstatus

/-- Without `login_all` a boolean is returned, whatever the engine answers. -/
theorem logsInToDiscovered_single :
    LogsInToDiscovered world hostObj lunAddress false outcome
      (iscsiDiscoverAndLogin world host lunAddress lunTarget false) := by
  have hrun : iscsiDiscoverAndLogin world host lunAddress lunTarget false =
      if ((extractAttribute (world.iscsidiscover hostObj lunAddress)
          "iscsi_target".toList).getD []).isEmpty then pure false
      else loginEach (world.iscsilogin hostObj) 0 [(lunAddress, lunTarget)] := by
    unfold iscsiDiscoverAndLogin iscsiDiscover
    rw [if_neg Bool.false_ne_true, hhost, Recorded.bind_eq_of_ok rfl, bind_status_eq,
      iscsiLogin_eq hhost]
    rfl
  rw [hrun]
  by_cases hempty : ((extractAttribute (world.iscsidiscover hostObj lunAddress)
      "iscsi_target".toList).getD []).isEmpty = true
  · rw [if_pos hempty]
    exact { returns := ⟨false, rfl⟩, nothing := fun _ => rfl, logins := nofun }
  · rw [if_neg hempty]
    refine
      { returns := loginEach_returns _ _ _
        nothing := fun hnot => absurd ?_ hnot
        logins := nofun }
    refine ⟨_, ?_, mt List.isEmpty_iff.mpr hempty⟩
    cases hfound : extractAttribute (world.iscsidiscover hostObj lunAddress)
        "iscsi_target".toList with
    | none =>
      rw [hfound] at hempty
      exact absurd rfl hempty
    | some targets => rfl

end

end

/-- Whatever is discovered, a boolean is returned and the host logs in to what there is, exactly if
with `login_all` the output is readable. -/
theorem logsInToDiscovered_iff {world : World} {host lunAddress lunTarget : Text}
    {hostObj : HostObj} {loginAll : Bool} {outcome : Option Output}
    (hhost : world.findHost host = .ok hostObj)
    (hprints : loginAll = true →
      Prints (world.runCmd hostObj.address (discoveryCmd lunAddress)) outcome) :
    LogsInToDiscovered world hostObj lunAddress loginAll outcome
      (iscsiDiscoverAndLogin world host lunAddress lunTarget loginAll) ↔
      (loginAll = true → Readable outcome (world.iscsilogin hostObj)) := by
  cases loginAll with
  | true => exact (loginAll_iff hhost (hprints rfl)).trans ⟨fun h _ => h, fun h => h rfl⟩
  | false => exact iff_of_true (logsInToDiscovered_single hhost) nofun

/-- The output with these lines. -/
def Output.ofLines (lines : List OutputLine)
    (h : ∀ line ∈ lines.map OutputLine.text, '\n' ∉ line ∧ '\r' ∉ line) : Output where
  text := (lines.map OutputLine.text).flatMap (· ++ ['\n'])
  lines := lines
  lines_eq := Text.splitlines_ended h

theorem target_word : Text.IsWord "iqn.a:b".toList :=
  ⟨by decide, Text.forall_of_all (by decide)⟩

theorem port_digits : ∀ c ∈ "3260".toList, c.isDigit = true :=
  Text.forall_of_all (by decide)

theorem tag_digits : ∀ c ∈ "1".toList, c.isDigit = true :=
  Text.forall_of_all (by decide)

/-- A record with this portal. -/
def recordAt (portal : Portal) : DiscoveryRecord where
  portal := portal
  port := "3260".toList
  tag := "1".toList
  target := "iqn.a:b".toList
  port_digits := port_digits
  tag_digits := tag_digits
  target_word := target_word

/-- A portal with an IPv4 address. -/
def ipv4 (address : Text) (word : Text.IsWord address) (no_colon : ':' ∉ address) : OutputLine :=
  .record (recordAt (.plain address word no_colon))

theorem ipv6_no_space : ∀ c ∈ "fd00::1".toList, Text.isSpace c = false :=
  Text.forall_of_all (by decide)

theorem ipv6_colon : ':' ∈ "fd00::1".toList := by decide

/-- A portal with an IPv6 address. -/
def ipv6Line : OutputLine :=
  .record (recordAt (.bracketed "fd00::1".toList ipv6_no_space ipv6_colon))

/-- Two IPv4 addresses with an empty line between them, and an IPv6 address. -/
def threePortals : List OutputLine :=
  [ipv4 "10.0.0.1".toList ⟨by decide, Text.forall_of_all (by decide)⟩ (by decide),
    .blank [] nofun,
    ipv4 "10.0.0.2".toList ⟨by decide, Text.forall_of_all (by decide)⟩ (by decide), ipv6Line]

theorem threePortals_ends :
    ∀ line ∈ threePortals.map OutputLine.text, '\n' ∉ line ∧ '\r' ∉ line := by
  decide

theorem ipv6_ends : ∀ line ∈ [ipv6Line].map OutputLine.text, '\n' ∉ line ∧ '\r' ∉ line := by
  decide

/-- A host where the command comes to this and every login succeeds. -/
def worldWith (result : CommandResult) : World where
  findHost := fun _ => .ok ⟨"host".toList⟩
  runCmd := fun _ _ => result
  iscsidiscover := fun _ _ => none
  iscsilogin := fun _ _ _ => true

/-- A host where the command prints the three portals and the second login fails. -/
def worldFailing : World :=
  { worldWith ⟨0, (Output.ofLines threePortals threePortals_ends).text⟩ with
    iscsilogin := fun _ attempt _ => attempt == 0 }

/-- The host does not get to the IPv6 address. -/
theorem logsIn_three_portals :
    LogsInToDiscovered worldFailing ⟨"host".toList⟩ "10.0.0.1".toList true
      (some (Output.ofLines threePortals threePortals_ends))
      (iscsiDiscoverAndLogin worldFailing "host_1".toList "10.0.0.1".toList [] true) := by
  have hprints : Prints (worldFailing.runCmd "host".toList (discoveryCmd "10.0.0.1".toList))
      (some (Output.ofLines threePortals threePortals_ends)) := ⟨rfl, rfl⟩
  refine (logsInToDiscovered_iff rfl fun _ => hprints).mpr fun _ =>
    { records := List.cons_ne_nil _ _, tight := ?_, plain := ?_ }
  · intro output houtput line hline
    obtain rfl := Option.some.inj houtput
    simp only [Output.ofLines, threePortals, List.mem_cons, List.not_mem_nil, or_false] at hline
    rcases hline with rfl | rfl | rfl | rfl
    · trivial
    · rfl
    · trivial
    · trivial
  · intro before record rest hrecords hall
    match before with
    | [] =>
      obtain rfl := (List.cons.inj hrecords).1
      trivial
    | [first] =>
      obtain rfl := (List.cons.inj (List.cons.inj hrecords).2).1
      trivial
    | first :: second :: others => exact absurd (hall 1 second rfl) Bool.false_ne_true

/-- With `login_all` a command that fails raises `TypeError`, one that prints nothing raises
`ValueError`, and an IPv6 address is cut at its first colon. -/
theorem discovery_not_handled :
    (iscsiDiscoverAndLogin (worldWith ⟨1, []⟩) "host_1".toList "10.0.0.1".toList []
        true).result = .error .typeError ∧
      ¬ LogsInToDiscovered (worldWith ⟨1, []⟩) ⟨"host".toList⟩ "10.0.0.1".toList true none
        (iscsiDiscoverAndLogin (worldWith ⟨1, []⟩) "host_1".toList "10.0.0.1".toList []
          true) ∧
      (iscsiDiscoverAndLogin (worldWith ⟨0, []⟩) "host_1".toList "10.0.0.1".toList []
        true).result = .error .valueError ∧
      (iscsiDiscoverAndLogin (worldWith ⟨0, (Output.ofLines [ipv6Line] ipv6_ends).text⟩)
        "host_1".toList "10.0.0.1".toList [] true).entries =
          [("[fd00".toList, "iqn.a:b".toList)] := by
  refine ⟨rfl, fun h => ?_, rfl, by decide⟩
  obtain ⟨status, hstatus⟩ := h.returns
  cases hstatus

end OvirtArt.TestsLib.IscsiLogin
