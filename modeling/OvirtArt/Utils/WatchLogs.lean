import OvirtArt.Foundation.ShellWords
import OvirtArt.Utils.LogWatching

set_option autoImplicit false

/-!
# `watch_logs` of `rhevm_api/utils/log_listener.py`

Files are watched on one machine and, when the regular expression is found in them, a command is
executed on that machine or on another one.  Which machines these are is chosen from the addresses
that the caller gives.

A machine is an executor with its answers: the pieces of the log, and the outcome of the command.
Either machine may be local or remote, and the wrong kind of result is an exception as in the
source.
-/

namespace OvirtArt.Utils.WatchLogs

open OvirtArt.CoreApi
open OvirtArt.Foundation (ShellWords.split)
open OvirtArt.Utils.LogWatching

/-- What the functions raise. -/
inductive LogException where
  /-- The `assert` of `execute_command`. -/
  | assertionError
  /-- A method of `None` is called. -/
  | attributeError
  /-- `shlex.split` cannot split the command. -/
  | valueError
  deriving DecidableEq, Repr

/-- The values of `cmd_rc`: `None`, a truth value, or the exit status. -/
inductive CmdRc where
  | none
  | bool (value : Bool)
  | int (status : Int)
  deriving DecidableEq, Repr

/-- The machine that a call is made on, with the user that it is made as. -/
inductive Machine where
  | localMachine
  | remote (ip : Text) (username password : Option Text)
  deriving DecidableEq, Repr

/-- What the machines do: how the output of `tail` is delivered from each, the exit status that a
command has on each, and what `re.search` finds for the regular expression. -/
structure World (Match : Type) where
  search : Text → Option Match
  channel : Machine → Channel
  pipe : Pipe
  status : Machine → Text → Int

/-- What a call comes to, and the commands that it executes. -/
structure Report (β : Type) where
  value : Except LogException β
  executed : List (Machine × Text)

/-! ## The source -/

/-- A `LogListener`: the machines that its `executor` and its `channel` belong to. -/
structure Listener where
  executor : Option Machine
  channel : Option Machine

/-- What `__init__` sets before the executor is initiated. -/
def Listener.empty : Listener where
  executor := none
  channel := none

/-- The machine behind an address that is given. -/
def machineAt (ip : Option Text) (username password : Option Text) : Machine :=
  .remote (ip.getD []) username password

/-- `initiate_executor`. -/
def Listener.initiateExecutor (listener : Listener) (ip username password : Option Text) :
    Listener :=
  if Text.truthy ip then
    { executor := some (machineAt ip username password)
      channel := some (machineAt ip username password) }
  else listener

section

variable {Match : Type} (world : World Match) (timeOut : Option ℚ≥0)

/-- `execute_command`. -/
def Listener.executeCommand (listener : Listener) (runLocally : Bool) (commandToExec : Text)
    (ipForExecuteCommand remoteUsername remotePassword : Option Text) : Report CmdRc :=
  if runLocally then
    { value := .ok (.bool (decide (world.status .localMachine commandToExec = 0)))
      executed := [(.localMachine, commandToExec)] }
  else
    match (listener.initiateExecutor ipForExecuteCommand remoteUsername remotePassword).executor
      with
    | none => { value := .error .attributeError, executed := [] }
    | some machine =>
      match ShellWords.split commandToExec with
      | none => { value := .error .valueError, executed := [] }
      | some _ =>
        { value :=
            if world.status machine commandToExec = 0 then .error .assertionError
            else .ok (.int (world.status machine commandToExec))
          executed := [(machine, commandToExec)] }

/-- `watch_for_changes`. -/
def Listener.watchForChanges (listener : Listener) (runLocally : Bool) (fuel : Nat) :
    Option (Except LogException (Watched Match)) :=
  if runLocally then (watchForLocalChanges world.search timeOut world.pipe fuel).map .ok
  else
    match listener.channel with
    | none => some (.error .attributeError)
    | some machine =>
      (watchForRemoteChanges world.search timeOut (world.channel machine) fuel).map .ok

/-- The end of `watch_logs`, with what the watch has found. -/
def afterWatch (listener : Listener) (runLocally : Bool) (commandToExec : Option Text)
    (ipForExecuteCommand remoteUsername remotePassword : Option Text) (foundRegex : Watched Match) :
    Report (Watched Match × CmdRc) :=
  match foundRegex with
  | .emptyString => { value := .ok (foundRegex, .none), executed := [] }
  | .found _ =>
    if Text.truthy commandToExec then
      let report := listener.executeCommand world runLocally (commandToExec.getD [])
        ipForExecuteCommand remoteUsername remotePassword
      { value := report.value.map fun cmdRc => (foundRegex, cmdRc)
        executed := report.executed }
    else { value := .ok (foundRegex, .none), executed := [] }

/-- The addresses and the users that the caller gives. -/
structure Placement where
  ipForFiles : Option Text
  username : Option Text
  password : Option Text
  ipForExecuteCommand : Option Text
  remoteUsername : Option Text
  remotePassword : Option Text

/-- `run_locally`. -/
def Placement.runLocally (place : Placement) : Bool :=
  !Text.truthy place.ipForExecuteCommand && !Text.truthy place.ipForFiles

/-- What `watch_logs` assigns to `ip_for_execute_command`, `remote_username` and
`remote_password`. -/
def Placement.assigned (place : Placement) : Placement :=
  if Text.truthy place.ipForExecuteCommand then place
  else
    { place with
      ipForExecuteCommand :=
        if Text.truthy place.ipForFiles then place.ipForFiles else place.ipForExecuteCommand
      remoteUsername := place.username
      remotePassword := place.password }

/-- `watch_logs`, with fuel for the watch. -/
def watchLogs (commandToExec : Option Text) (place : Placement) (fuel : Nat) :
    Option (Report (Watched Match × CmdRc)) :=
  let listener := Listener.empty.initiateExecutor place.ipForFiles place.username place.password
  match listener.watchForChanges world timeOut place.runLocally fuel with
  | none => none
  | some (.error e) => some { value := .error e, executed := [] }
  | some (.ok foundRegex) =>
    some (afterWatch world listener place.runLocally commandToExec
      place.assigned.ipForExecuteCommand place.assigned.remoteUsername
      place.assigned.remotePassword foundRegex)

/-! ## What is asked of it -/

/-- The machine that has the files. -/
def Placement.filesMachine (place : Placement) : Machine :=
  if Text.truthy place.ipForFiles then machineAt place.ipForFiles place.username place.password
  else .localMachine

/-- The machine that the command is to run on. -/
def Placement.commandMachine (place : Placement) : Machine :=
  if Text.truthy place.ipForExecuteCommand then
    machineAt place.ipForExecuteCommand place.remoteUsername place.remotePassword
  else place.filesMachine

/-- The watch of the files where they are. -/
def watchFiles (place : Placement) (fuel : Nat) : Option (Watched Match) :=
  match place.filesMachine with
  | .localMachine => watchForLocalChanges world.search timeOut world.pipe fuel
  | .remote ip username password =>
    watchForRemoteChanges world.search timeOut (world.channel (.remote ip username password)) fuel

/-- When the regular expression is found, a command that is given is executed once, on its machine,
and the second component is `True` exactly if its exit status is 0, and `False` otherwise; without a
command nothing is executed, and the component is not `True`. -/
structure Reports (commandToExec : Option Text) (place : Placement)
    (result : Nat → Option (Report (Watched Match × CmdRc))) : Prop where
  with_command : ∀ reg command, Returns (watchFiles world timeOut place) (.found reg) →
    commandToExec = some command → command ≠ [] →
      Returns result
        { value := .ok (.found reg, .bool (decide (world.status place.commandMachine command = 0)))
          executed := [(place.commandMachine, command)] }
  without_command : ∀ reg, Returns (watchFiles world timeOut place) (.found reg) →
    Text.truthy commandToExec = false →
      ∃ cmdRc, Returns result { value := .ok (.found reg, cmdRc), executed := [] } ∧
        cmdRc ≠ .bool true

end

/-- Nothing is on another machine; or the files are, and there is no command. -/
inductive Supported (commandToExec : Option Text) (place : Placement) : Prop where
  | allLocal (hfiles : Text.truthy place.ipForFiles = false)
      (hexecute : Text.truthy place.ipForExecuteCommand = false)
  | watchOnly (hfiles : Text.truthy place.ipForFiles = true)
      (hcommand : Text.truthy commandToExec = false)

/-! ## The placements -/

section

variable {Match : Type} {world : World Match} {timeOut : Option ℚ≥0} {place : Placement}
  {commandToExec : Option Text} {reg : Match} {fuel : Nat} {username password ip : Option Text}
  {listener : Listener} {command : Text}

theorem initiateExecutor_of_truthy (h : Text.truthy ip = true) :
    listener.initiateExecutor ip username password =
      { executor := some (machineAt ip username password)
        channel := some (machineAt ip username password) } :=
  if_pos h

theorem initiateExecutor_of_not (h : Text.truthy ip = false) :
    listener.initiateExecutor ip username password = listener :=
  if_neg (Bool.eq_false_iff.mp h)

theorem truthy_some (h : command ≠ []) : Text.truthy (some command) = true := by
  cases command with
  | nil => exact absurd rfl h
  | cons c rest => rfl

theorem exists_of_truthy {command : Option Text} (h : Text.truthy command = true) :
    ∃ text, command = some text ∧ text ≠ [] := by
  cases command with
  | none => exact nomatch h
  | some text =>
    refine ⟨text, rfl, ?_⟩
    rintro rfl
    exact nomatch h

/-- With nothing on another machine, the watch and the command are those of this one. -/
theorem watchLogs_of_local (hfiles : Text.truthy place.ipForFiles = false)
    (hexecute : Text.truthy place.ipForExecuteCommand = false) (fuel : Nat) :
    watchLogs world timeOut commandToExec place fuel =
      (watchFiles world timeOut place fuel).map
        (afterWatch world .empty true commandToExec place.assigned.ipForExecuteCommand
          place.assigned.remoteUsername place.assigned.remotePassword) := by
  have hlocal : place.runLocally = true := by
    simp only [Placement.runLocally, hfiles, hexecute, Bool.not_false, Bool.and_self]
  have hmachine : place.filesMachine = .localMachine := if_neg (Bool.eq_false_iff.mp hfiles)
  simp only [watchLogs, initiateExecutor_of_not hfiles, Listener.watchForChanges, hlocal, if_true,
    watchFiles, hmachine]
  cases watchForLocalChanges world.search timeOut world.pipe fuel with
  | none => rfl
  | some found => rfl

/-- With the files on another machine, the watch is that of its channel. -/
theorem watchLogs_of_remote (hfiles : Text.truthy place.ipForFiles = true) (fuel : Nat) :
    watchLogs world timeOut commandToExec place fuel =
      (watchFiles world timeOut place fuel).map
        (afterWatch world (Listener.empty.initiateExecutor place.ipForFiles place.username
          place.password) false commandToExec place.assigned.ipForExecuteCommand
          place.assigned.remoteUsername place.assigned.remotePassword) := by
  have hremote : place.runLocally = false := by
    simp only [Placement.runLocally, hfiles, Bool.not_true, Bool.and_false]
  have hmachine : place.filesMachine =
      .remote (place.ipForFiles.getD []) place.username place.password := if_pos hfiles
  simp only [watchLogs, Listener.watchForChanges, hremote, watchFiles, hmachine,
    initiateExecutor_of_truthy hfiles, Bool.false_eq_true, if_false]
  dsimp only [machineAt]
  cases watchForRemoteChanges world.search timeOut (world.channel
      (.remote (place.ipForFiles.getD []) place.username place.password)) fuel with
  | none => rfl
  | some found => rfl

/-- With the files here and the command elsewhere, the channel that the watch reads is `None`. -/
theorem watchLogs_of_no_channel (hfiles : Text.truthy place.ipForFiles = false)
    (hexecute : Text.truthy place.ipForExecuteCommand = true) (fuel : Nat) :
    watchLogs world timeOut commandToExec place fuel =
      some { value := .error .attributeError, executed := [] } := by
  have hremote : place.runLocally = false := by
    simp only [Placement.runLocally, hexecute, Bool.not_true, Bool.false_and]
  simp only [watchLogs, initiateExecutor_of_not hfiles, Listener.watchForChanges, hremote,
    Listener.empty, Bool.false_eq_true, if_false]

theorem not_returns_of_no_channel {found : Watched Match × CmdRc}
    {executed : List (Machine × Text)} (hfiles : Text.truthy place.ipForFiles = false)
    (hexecute : Text.truthy place.ipForExecuteCommand = true) :
    ¬ Returns (watchLogs world timeOut commandToExec place)
      { value := .ok found, executed := executed } := by
  rintro ⟨fuel, hreturn⟩
  rw [watchLogs_of_no_channel hfiles hexecute] at hreturn
  exact nomatch congrArg Report.value (Option.some.inj hreturn)

theorem returns_map {β γ : Type} {result : Nat → Option β} {value : β} (f : β → γ)
    (h : Returns result value) : Returns (fun fuel => (result fuel).map f) (f value) := by
  obtain ⟨fuel, hfuel⟩ := h
  exact ⟨fuel, Option.map_eq_some_iff.mpr ⟨value, hfuel, rfl⟩⟩

/-- A command on another machine never has a truth value as result. -/
theorem executeCommand_remote_ne_bool {value : Bool} :
    (listener.executeCommand world false command ip username password).value ≠
      .ok (.bool value) := by
  simp only [Listener.executeCommand, Bool.false_eq_true, if_false]
  cases (listener.initiateExecutor ip username password).executor with
  | none => exact nofun
  | some machine =>
    cases ShellWords.split command with
    | none => exact nofun
    | some words =>
      simp only []
      split
      · exact nofun
      · exact nofun

theorem afterWatch_remote_ne_bool {found : Watched Match} {value : Bool} {other : Watched Match}
    (hcommand : Text.truthy commandToExec = true) :
    (afterWatch world listener false commandToExec ip username password found).value ≠
      .ok (other, .bool value) := by
  cases found with
  | emptyString => exact nofun
  | found reg =>
    simp only [afterWatch, hcommand, if_true]
    intro h
    cases hrun : (listener.executeCommand world false (commandToExec.getD []) ip username
        password).value with
    | error e =>
      rw [hrun] at h
      exact nomatch h
    | ok cmdRc =>
      rw [hrun] at h
      have hrc : cmdRc = .bool value := (Prod.mk.inj (Except.ok.inj h)).2
      rw [hrc] at hrun
      exact executeCommand_remote_ne_bool hrun

theorem afterWatch_without_command {runLocally : Bool}
    (hcommand : Text.truthy commandToExec = false) :
    afterWatch world listener runLocally commandToExec ip username password (.found reg) =
      { value := .ok (.found reg, .none), executed := [] } := by
  simp only [afterWatch, hcommand, Bool.false_eq_true, if_false]

theorem returns_without_command {runLocally : Bool}
    (hfound : Returns (watchFiles world timeOut place) (.found reg))
    (hcommand : Text.truthy commandToExec = false) :
    Returns (fun fuel => (watchFiles world timeOut place fuel).map
      (afterWatch world listener runLocally commandToExec ip username password))
        { value := .ok (.found reg, .none), executed := [] } := by
  have hreturn := returns_map
    (afterWatch world listener runLocally commandToExec ip username password) hfound
  rw [afterWatch_without_command hcommand] at hreturn
  exact hreturn

theorem afterWatch_local (hne : command ≠ []) :
    afterWatch world listener true (some command) ip username password (.found reg) =
      { value := .ok (.found reg, .bool (decide (world.status .localMachine command = 0)))
        executed := [(.localMachine, command)] } := by
  simp only [afterWatch, truthy_some hne, if_true, Listener.executeCommand, Option.getD_some,
    Except.map]

/-- In a placement that is supported, the outcome is reported as asked. -/
theorem reports_of_supported (h : Supported commandToExec place) :
    Reports world timeOut commandToExec place (watchLogs world timeOut commandToExec place) := by
  cases h with
  | allLocal hfiles hexecute =>
    have hrun := funext (@watchLogs_of_local Match world timeOut place commandToExec hfiles
      hexecute)
    have hmachine : place.commandMachine = .localMachine :=
      (if_neg (Bool.eq_false_iff.mp hexecute)).trans (if_neg (Bool.eq_false_iff.mp hfiles))
    rw [hrun]
    constructor
    · intro reg command hfound hcommand hne
      have hreturn := returns_map (afterWatch world .empty true commandToExec
        place.assigned.ipForExecuteCommand place.assigned.remoteUsername
        place.assigned.remotePassword) hfound
      rw [hcommand, afterWatch_local hne] at hreturn
      rw [hcommand, hmachine]
      exact hreturn
    · intro reg hfound hcommand
      exact ⟨.none, returns_without_command hfound hcommand, nofun⟩
  | watchOnly hfiles hcommand =>
    rw [funext (@watchLogs_of_remote Match world timeOut place commandToExec hfiles)]
    constructor
    · intro reg command hfound hsome hne
      rw [hsome, truthy_some hne] at hcommand
      exact nomatch hcommand
    · intro reg hfound _
      exact ⟨.none, returns_without_command hfound hcommand, nofun⟩

/-- A placement that is not supported is not reported as asked, once something is found. -/
theorem supported_of_reports (hfound : Returns (watchFiles world timeOut place) (.found reg))
    (h : Reports world timeOut commandToExec place (watchLogs world timeOut commandToExec place)) :
    Supported commandToExec place := by
  cases hfiles : Text.truthy place.ipForFiles with
  | true =>
    cases hcommand : Text.truthy commandToExec with
    | false => exact .watchOnly hfiles hcommand
    | true =>
      obtain ⟨command, hsome, hne⟩ := exists_of_truthy hcommand
      obtain ⟨fuel, hreturn⟩ := h.with_command reg command hfound hsome hne
      rw [watchLogs_of_remote hfiles] at hreturn
      obtain ⟨found, -, hreport⟩ := Option.map_eq_some_iff.mp hreturn
      exact absurd (congrArg Report.value hreport) (afterWatch_remote_ne_bool hcommand)
  | false =>
    cases hexecute : Text.truthy place.ipForExecuteCommand with
    | false => exact .allLocal hfiles hexecute
    | true =>
      cases hcommand : Text.truthy commandToExec with
      | true =>
        obtain ⟨command, hsome, hne⟩ := exists_of_truthy hcommand
        exact absurd (h.with_command reg command hfound hsome hne)
          (not_returns_of_no_channel hfiles hexecute)
      | false =>
        obtain ⟨cmdRc, hreturn, -⟩ := h.without_command reg hfound hcommand
        exact absurd hreturn (not_returns_of_no_channel hfiles hexecute)

end

/-- `watch_logs` reports the outcome as asked exactly if the regular expression is not found, or
nothing is on another machine, or the files are and there is no command. -/
theorem watch_logs_reports_iff {Match : Type} (world : World Match) (timeOut : Option ℚ≥0)
    (commandToExec : Option Text) (place : Placement) :
    Reports world timeOut commandToExec place (watchLogs world timeOut commandToExec place) ↔
      ((∃ reg, Returns (watchFiles world timeOut place) (.found reg)) →
        Supported commandToExec place) := by
  constructor
  · rintro h ⟨reg, hfound⟩
    exact supported_of_reports hfound h
  · intro h
    refine ⟨fun reg command hfound => ?_, fun reg hfound => ?_⟩
    · exact (reports_of_supported (h ⟨reg, hfound⟩)).with_command reg command hfound
    · exact (reports_of_supported (h ⟨reg, hfound⟩)).without_command reg hfound

/-- The read of a line with an error. -/
def errorLine : Reading where
  text := "ERROR".toList
  duration := 1

theorem one_le_errorLine (i : Nat) (reading : Reading)
    (h : (fun _ : Nat => some errorLine) i = some reading) : 1 ≤ reading.duration := by
  rw [← Option.some.inj h]
  exact le_rfl

/-- A log with an error line from the first read on. -/
def errorDelivery : Delivery where
  read := fun _ => some errorLine
  least := 1
  least_pos := one_second_pos
  least_le := one_le_errorLine

theorem length_errorLine_le (i : Nat) (reading : Reading)
    (h : errorDelivery.read i = some reading) : reading.text.length ≤ 1024 := by
  rw [← Option.some.inj h]
  decide

theorem newline_notMem_errorLine (i : Nat) (reading : Reading)
    (h : errorDelivery.read i = some reading) : '\n' ∉ reading.text.dropLast := by
  rw [← Option.some.inj h]
  decide

/-- Each log has an error, and each command the same exit status. -/
def errorWorld (status : Int) : World Nat where
  search := Text.index? "ERROR".toList
  channel := fun _ => { toDelivery := errorDelivery, chunks := length_errorLine_le }
  pipe := { toDelivery := errorDelivery, lines := newline_notMem_errorLine }
  status := fun _ _ => status

/-- The files are on another machine, and the command is to run there. -/
def remoteFiles : Placement where
  ipForFiles := some "10.0.0.1".toList
  username := some "root".toList
  password := some "123456".toList
  ipForExecuteCommand := none
  remoteUsername := none
  remotePassword := none

/-- The command succeeds on the other machine, and the call raises; or it fails there, and the call
returns its status. -/
theorem successful_command_raises :
    (watchLogs (errorWorld 0) none (some "true".toList) remoteFiles 1 =
        some { value := .error .assertionError
               executed := [(remoteFiles.filesMachine, "true".toList)] } ∧
      ¬ Reports (errorWorld 0) none (some "true".toList) remoteFiles
        (watchLogs (errorWorld 0) none (some "true".toList) remoteFiles)) ∧
    (watchLogs (errorWorld 1) none (some "false".toList) remoteFiles 1 =
        some { value := .ok (.found 0, .int 1)
               executed := [(remoteFiles.filesMachine, "false".toList)] } ∧
      ¬ Reports (errorWorld 1) none (some "false".toList) remoteFiles
        (watchLogs (errorWorld 1) none (some "false".toList) remoteFiles)) := by
  have hfound : ∀ status, Returns (watchFiles (errorWorld status) none remoteFiles) (.found 0) :=
    fun _ => ⟨1, rfl⟩
  refine ⟨⟨rfl, fun h => ?_⟩, rfl, fun h => ?_⟩
  · cases supported_of_reports (hfound 0) h with
    | allLocal hfiles => exact absurd hfiles (by decide)
    | watchOnly _ hcommand => exact absurd hcommand (by decide)
  · cases supported_of_reports (hfound 1) h with
    | allLocal hfiles => exact absurd hfiles (by decide)
    | watchOnly _ hcommand => exact absurd hcommand (by decide)

end OvirtArt.Utils.WatchLogs
