import Mathlib.Data.List.Nodup
import OvirtArt.CoreApi.PyText
import OvirtArt.Foundation.Emissions

set_option autoImplicit false

/-!
# Disks prepared in parallel

`prepare_disks_for_vm` and `start_creating_disks_for_test` of `rhevmtests/storage/helpers.py` give
one task for each disk to an executor, and leave it without looking at what came of the tasks.
What the engine answers to the task at each place is a parameter, and so is the order in which the
tasks run.

The futures of the tasks are left out: nobody looks at them.  A schedule is any order of the
tasks, and the result is about every one of them; what a function logs is left out.
-/

namespace OvirtArt.Storage.DiskPreparation

open OvirtArt.CoreApi OvirtArt.Foundation

/-- What is raised. -/
inductive Fault where
  | assertionError (message : Text)
  /-- What `ThreadPoolExecutor` raises without workers. -/
  | valueError
  /-- What any other call raises. -/
  | raised (description : Text)
  deriving DecidableEq, Repr

/-- `assert`. -/
def assertThat (condition : Bool) (message : Text) : Except Fault Unit :=
  if condition then .ok () else .error (.assertionError message)

/-- `with ThreadPoolExecutor(max_workers=len(tasks)) as executor`, with all tasks submitted: when it
is left, every task has run. -/
def withExecutor {τ σ : Type} (work : τ → EStateM Fault σ Unit)
    (schedule : (tasks : List τ) → Schedule tasks) (tasks : List τ) (maxWorkers : Nat) :
    EStateM Fault σ Unit :=
  if maxWorkers = 0 then throw .valueError
  else modify (runAll work (schedule tasks).order)

/-! ## `prepare_disks_for_vm` -/

/-- `config.VIRTIO`. -/
def virtio : Text := "virtio".toList

/-- A disk to be attached, with its place in the list. -/
structure AttachTask where
  place : Nat
  disk : Text
  interface : Text
  deriving DecidableEq, Repr

/-- The attachment that is asked for. -/
structure DiskAttachment where
  diskId : Text
  vmName : Text
  interface : Text
  readOnly : Bool
  active : Bool
  deriving DecidableEq, Repr

/-- What the engine answers to the task at each place. -/
structure AttachEngine where
  /-- `get_disk_obj(name, 'name').get_id()`. -/
  diskId : Nat → Text → Except Fault Text
  /-- `getObjDisks`. -/
  vmDisks : Nat → Text → Except Fault Unit
  /-- The status of `DISK_ATTACHMENTS_API.create`. -/
  createAttachment : Nat → DiskAttachment → Except Fault Bool

section

variable (engine : AttachEngine) (vmName : Text) (readOnly : Bool)

/-- `attachDisk`. -/
def attachDisk (task : AttachTask) : Except Fault Bool := do
  let diskId ← engine.diskId task.place task.disk
  engine.vmDisks task.place vmName
  engine.createAttachment task.place
    { diskId, vmName, interface := task.interface, readOnly, active := true }

/-- `attach_and_activate`; the places of the disks that the engine has attached are the state. -/
def attachAndActivate (task : AttachTask) : EStateM Fault (List Nat) Unit := do
  let attached ← fromExcept (attachDisk engine vmName readOnly task)
  if attached then modify fun places => places ++ [task.place]
  fromExcept (assertThat attached
    ("Failed to attach disk ".toList ++ task.disk ++ " to vm ".toList ++ vmName))

/-- The tasks for the pairs of `zip`, from this place on. -/
def attachTasksFrom : Nat → List Text → List Text → List AttachTask
  | place, disk :: disks, interface :: interfaces =>
    { place, disk, interface } :: attachTasksFrom (place + 1) disks interfaces
  | _, _, _ => []

/-- The interfaces, all `virtio` if none are given. -/
def interfacesFor (disksToPrepare interfaces : List Text) : List Text :=
  if interfaces.isEmpty then List.replicate disksToPrepare.length virtio else interfaces

/-- The tasks that are submitted. -/
def attachTasks (disksToPrepare interfaces : List Text) : List AttachTask :=
  attachTasksFrom 0 disksToPrepare (interfacesFor disksToPrepare interfaces)

/-- `prepare_disks_for_vm`. -/
def prepareDisksForVm (schedule : (tasks : List AttachTask) → Schedule tasks)
    (disksToPrepare interfaces : List Text) : EStateM Fault (List Nat) Bool := do
  withExecutor (attachAndActivate engine vmName readOnly) schedule
    (attachTasks disksToPrepare interfaces) disksToPrepare.length
  return true

end

/-! ## `start_creating_disks_for_test` -/

/-- A dictionary `permutation`; those of `get_all_disk_permutation` have no alias. -/
structure DiskKind where
  givenAlias : Option Text
  format : Text
  interface : Text
  sparse : Bool
  deriving DecidableEq, Repr

/-- `FORMAT_COW`. -/
def formatCow : Text := "cow".toList

/-- `FORMAT_RAW`. -/
def formatRaw : Text := "raw".toList

/-- The permutations that the loops of `get_all_disk_permutation` go on from. -/
def skipped (block shared : Bool) (kind : DiskKind) : Bool :=
  (kind.format == formatRaw && kind.sparse && block) ||
    (kind.format == formatCow && !kind.sparse) ||
    (shared && kind.format == formatCow) ||
    (!kind.sparse && !block)

/-- `get_all_disk_permutation`. -/
def getAllDiskPermutation (block shared : Bool) (interfaces : List Text) : List DiskKind :=
  [formatCow, formatRaw].flatMap fun format =>
    interfaces.flatMap fun interface =>
      [true, false].filterMap fun sparse =>
        let kind : DiskKind := { givenAlias := none, format, interface, sparse }
        if skipped block shared kind then none else some kind

/-- `BLOCK_TYPES`. -/
def blockTypes : List Text := ["iscsi".toList, "fcp".toList]

/-- The arguments of `addDisk`. -/
structure NewDiskArgs where
  provisionedSize : Nat
  wipeAfterDelete : Bool
  storagedomain : Text
  bootable : Bool
  shareable : Bool
  active : Bool
  format : Text
  sparse : Bool
  diskAlias : Text
  deriving DecidableEq, Repr

/-- An entry of the list that is returned. -/
structure DiskEntry where
  diskName : Text
  diskInterface : Text
  deriving DecidableEq, Repr

/-- A permutation with its place in the list. -/
structure CreateTask where
  place : Nat
  kind : DiskKind
  deriving DecidableEq, Repr

/-- The places of the disks that the engine has created, and the list `disks`. -/
structure Progress where
  created : List Nat
  disks : List DiskEntry

/-- What the engine, and the clock, answer to the task at each place. -/
structure CreateEngine where
  /-- `get_storage_domain_obj(name).get_storage().get_type()`. -/
  storageType : Text → Except Fault Text
  /-- `datetime.datetime.now().strftime(...)`. -/
  currentDateTime : Nat → Text
  /-- `_prepareDiskObject`. -/
  prepareDiskObject : Nat → NewDiskArgs → Except Fault Unit
  /-- `DISKS_API.create`: the id of the disk, unless it is `None` or a fault, and the status. -/
  create : Nat → NewDiskArgs → Except Fault (Option Text × Bool)

/-- `bool` of a tuple with two items. -/
def pairTruthy {α β : Type} (_ : α × β) : Bool := true

section

variable (engine : CreateEngine) (sdName : Text) (shared : Bool) (diskSize : Nat)

/-- `create_unique_object_name`. -/
def createUniqueObjectName (place : Nat) (objectDescription objectType : Text) : Text :=
  objectType ++ "_".toList ++ objectDescription.take 23 ++ "_".toList ++
    (engine.currentDateTime place).take 10

/-- `addDisk`, with its status and the id. -/
def addDisk (place : Nat) (args : NewDiskArgs) : Except Fault (Bool × Option Text) := do
  engine.prepareDiskObject place args
  let answer ← engine.create place args
  return (answer.2, answer.1)

/-- The alias of the disk. -/
def diskAlias (task : CreateTask) : Text :=
  match task.kind.givenAlias with
  | some given => given
  | none =>
    createUniqueObjectName engine task.place (task.kind.interface ++ task.kind.format)
      "disk".toList

/-- `new_disk_args`. -/
def newDiskArgs (sdType : Text) (task : CreateTask) : NewDiskArgs where
  provisionedSize := diskSize
  wipeAfterDelete := blockTypes.contains sdType
  storagedomain := sdName
  bootable := false
  shareable := shared
  active := true
  format := task.kind.format
  sparse := task.kind.sparse
  diskAlias := diskAlias engine task

/-- What `addDisk` comes to for the task. -/
def addOutcome (sdType : Text) (task : CreateTask) : Except Fault (Bool × Option Text) :=
  addDisk engine task.place (newDiskArgs engine sdName shared diskSize sdType task)

/-- `add_new_disk`. -/
def addNewDisk (sdType : Text) (task : CreateTask) : EStateM Fault Progress (Text × Text) := do
  let outcome ← fromExcept (addOutcome engine sdName shared diskSize sdType task)
  if outcome.1 then
    modify fun progress => { progress with created := progress.created ++ [task.place] }
  fromExcept (assertThat (pairTruthy outcome) [])
  return (diskAlias engine task, task.kind.interface)

/-- `add_disk`. -/
def addDiskTask (sdType : Text) (task : CreateTask) : EStateM Fault Progress Unit := do
  let named ← addNewDisk engine sdName shared diskSize sdType task
  let disk : DiskEntry := { diskName := named.1, diskInterface := named.2 }
  modify fun progress => { progress with disks := progress.disks ++ [disk] }

/-- The tasks for the permutations. -/
def createTasks (kinds : List DiskKind) : List CreateTask :=
  kinds.mapIdx fun place kind => { place, kind }

/-- The permutations for a type of storage. -/
def diskPermutations (sdType : Text) (interfaces : List Text) : List DiskKind :=
  getAllDiskPermutation (blockTypes.contains sdType) shared interfaces

/-- `start_creating_disks_for_test`. -/
def startCreatingDisksForTest (schedule : (tasks : List CreateTask) → Schedule tasks)
    (interfaces : List Text) : EStateM Fault Progress (List DiskEntry) := do
  let sdType ← fromExcept (engine.storageType sdName)
  let kinds := diskPermutations shared sdType interfaces
  withExecutor (addDiskTask engine sdName shared diskSize sdType) schedule (createTasks kinds)
    kinds.length
  let progress ← get
  return progress.disks

end

/-! ## What is to be reported -/

section

variable (engine : AttachEngine) (vmName : Text) (readOnly : Bool)
  (schedule : (tasks : List AttachTask) → Schedule tasks) (disksToPrepare interfaces : List Text)

/-- Every disk is attached in the end. -/
def EveryAttached : Prop :=
  ∀ place < disksToPrepare.length,
    place ∈ after (prepareDisksForVm engine vmName readOnly schedule disksToPrepare interfaces) []

/-- `True` is returned exactly if every disk has been attached, and an exception is raised
otherwise. -/
def ReportsAttachments : Prop :=
  ((∃ places,
      (prepareDisksForVm engine vmName readOnly schedule disksToPrepare interfaces).run [] =
        .ok true places) ↔
    EveryAttached engine vmName readOnly schedule disksToPrepare interfaces) ∧
  (¬ EveryAttached engine vmName readOnly schedule disksToPrepare interfaces →
    ∃ fault places,
      (prepareDisksForVm engine vmName readOnly schedule disksToPrepare interfaces).run [] =
        .error fault places)

/-- There is an interface for each disk, and each request is accepted. -/
def AttachmentsAccepted : Prop :=
  disksToPrepare.length ≤ (interfacesFor disksToPrepare interfaces).length ∧
    ∀ task ∈ attachTasks disksToPrepare interfaces,
      attachDisk engine vmName readOnly task = .ok true

end

section

variable (engine : CreateEngine) (sdName : Text) (shared : Bool) (diskSize : Nat)
  (schedule : (tasks : List CreateTask) → Schedule tasks) (interfaces : List Text)

/-- The entry that belongs to a task. -/
def entryOf (task : CreateTask) : DiskEntry where
  diskName := diskAlias engine task
  diskInterface := task.kind.interface

/-- The entry of the disk at this place. -/
def entryAt (kinds : List DiskKind) (place : Nat) : Option DiskEntry :=
  (createTasks kinds)[place]?.map (entryOf engine)

/-- The list is returned exactly if every disk has been created, and has then one entry for each
created disk. -/
def ReportsCreations (kinds : List DiskKind) : Prop :=
  ((∃ disks progress,
      (startCreatingDisksForTest engine sdName shared diskSize schedule interfaces).run ⟨[], []⟩ =
        .ok disks progress) ↔
    ∀ place < kinds.length, place ∈
      (after (startCreatingDisksForTest engine sdName shared diskSize schedule interfaces)
        ⟨[], []⟩).created) ∧
  ∀ disks progress,
    (startCreatingDisksForTest engine sdName shared diskSize schedule interfaces).run ⟨[], []⟩ =
        .ok disks progress →
      disks.Perm (progress.created.filterMap (entryAt engine kinds))

/-- Each request is accepted. -/
def CreationsAccepted (sdType : Text) (kinds : List DiskKind) : Prop :=
  ∀ task ∈ createTasks kinds,
    ∃ diskId, addOutcome engine sdName shared diskSize sdType task = .ok (true, diskId)

end

/-! ## Places -/

section

variable {τ : Type} {tasks : List τ} {place : τ → Nat} {accepted : τ → Bool} {n k : Nat}

/-- The place of a task that is accepted. -/
def placeOf (place : τ → Nat) (accepted : τ → Bool) (task : τ) : List Nat :=
  if accepted task then [place task] else []

theorem mem_flatMap_placeOf {p : Nat} :
    p ∈ tasks.flatMap (placeOf place accepted) ↔
      ∃ task ∈ tasks, accepted task = true ∧ place task = p := by
  rw [List.mem_flatMap]
  refine exists_congr fun task => and_congr_right fun _ => ?_
  unfold placeOf
  cases accepted task with
  | false => exact iff_of_false List.not_mem_nil fun h => nomatch h.1
  | true => exact List.mem_singleton.trans ⟨fun h => ⟨rfl, h.symm⟩, fun h => h.2.symm⟩

/-- All places are there exactly if there are as many tasks, and all are accepted. -/
theorem every_place_iff (hplaces : tasks.map place = List.range k) (hk : k ≤ n) :
    (∀ p < n, p ∈ tasks.flatMap (placeOf place accepted)) ↔
      n ≤ k ∧ ∀ task ∈ tasks, accepted task = true := by
  have hrange : ∀ task ∈ tasks, place task < k := by
    intro task htask
    rw [← List.mem_range, ← hplaces]
    exact List.mem_map_of_mem htask
  constructor
  · intro h
    constructor
    · by_contra hlt
      obtain ⟨task, htask, -, hplace⟩ := mem_flatMap_placeOf.mp (h k (Nat.lt_of_not_le hlt))
      exact absurd (hrange task htask) (hplace ▸ Nat.lt_irrefl _)
    · intro task htask
      obtain ⟨other, hother, haccepted, hplace⟩ :=
        mem_flatMap_placeOf.mp (h (place task) (Nat.lt_of_lt_of_le (hrange task htask) hk))
      have hnodup : (tasks.map place).Nodup := hplaces ▸ List.nodup_range
      rwa [List.inj_on_of_nodup_map hnodup hother htask hplace] at haccepted
  · rintro ⟨hn, haccepted⟩ p hp
    have hmem : p ∈ tasks.map place := by
      rw [hplaces]
      exact List.mem_range.mpr (Nat.lt_of_lt_of_le hp hn)
    obtain ⟨task, htask, hplace⟩ := List.mem_map.mp hmem
    exact mem_flatMap_placeOf.mpr ⟨task, htask, haccepted task htask, hplace⟩

end

/-! ## Attachments -/

section

variable {engine : AttachEngine} {vmName : Text} {readOnly : Bool}
  {schedule : (tasks : List AttachTask) → Schedule tasks} {disksToPrepare interfaces : List Text}

theorem map_place_attachTasksFrom (place : Nat) (disks interfaces : List Text) :
    (attachTasksFrom place disks interfaces).map AttachTask.place =
      List.range' place (min disks.length interfaces.length) := by
  induction disks generalizing place interfaces with
  | nil => rw [List.length_nil, Nat.zero_min]; rfl
  | cons disk disks ih =>
    cases interfaces with
    | nil => rfl
    | cons interface interfaces =>
      rw [attachTasksFrom, List.map_cons, ih, List.length_cons, List.length_cons,
        Nat.succ_min_succ, List.range'_succ]

/-- The outcome of an attachment is that the engine has accepted it. -/
def attachAccepted (engine : AttachEngine) (vmName : Text) (readOnly : Bool) (task : AttachTask) :
    Bool :=
  match attachDisk engine vmName readOnly task with
  | .ok attached => attached
  | .error _ => false

theorem attachAccepted_iff {task : AttachTask} :
    attachAccepted engine vmName readOnly task = true ↔
      attachDisk engine vmName readOnly task = .ok true := by
  unfold attachAccepted
  cases attachDisk engine vmName readOnly task with
  | error fault => exact iff_of_false nofun nofun
  | ok attached => exact (Except.ok.injEq attached true ▸ Iff.rfl)

/-- A task adds its place if the engine accepts the request. -/
theorem after_attachAndActivate (task : AttachTask) (places : List Nat) :
    after (attachAndActivate engine vmName readOnly task) places =
      places ++ placeOf AttachTask.place (attachAccepted engine vmName readOnly) task := by
  unfold attachAndActivate placeOf attachAccepted after
  rw [EStateM.run_bind, run_fromExcept]
  cases attachDisk engine vmName readOnly task with
  | error fault => exact (List.append_nil places).symm
  | ok attached =>
    cases attached with
    | false => exact (List.append_nil places).symm
    | true => rfl

theorem run_prepareDisksForVm (hne : disksToPrepare ≠ []) :
    (prepareDisksForVm engine vmName readOnly schedule disksToPrepare interfaces).run [] =
      .ok true (runAll (attachAndActivate engine vmName readOnly)
        (schedule (attachTasks disksToPrepare interfaces)).order []) := by
  unfold prepareDisksForVm withExecutor
  rw [if_neg (fun h => hne (List.length_eq_zero_iff.mp h))]
  rfl

theorem everyAttached_iff (hne : disksToPrepare ≠ []) :
    EveryAttached engine vmName readOnly schedule disksToPrepare interfaces ↔
      AttachmentsAccepted engine vmName readOnly disksToPrepare interfaces := by
  have hplaces : (attachTasks disksToPrepare interfaces).map AttachTask.place = List.range
      (min disksToPrepare.length (interfacesFor disksToPrepare interfaces).length) := by
    rw [List.range_eq_range']
    exact map_place_attachTasksFrom 0 disksToPrepare _
  have hperm := @runAll_perm Fault (List Nat) Nat _ (attachAndActivate engine vmName readOnly) id
    _ after_attachAndActivate _ (schedule (attachTasks disksToPrepare interfaces)) [] rfl
  have hlength : disksToPrepare.length ≤
        min disksToPrepare.length (interfacesFor disksToPrepare interfaces).length ↔
      disksToPrepare.length ≤ (interfacesFor disksToPrepare interfaces).length :=
    le_min_iff.trans (and_iff_right le_rfl)
  unfold EveryAttached AttachmentsAccepted
  rw [after_eq_of_ok (run_prepareDisksForVm hne)]
  simp only [← attachAccepted_iff]
  rw [← hlength, ← every_place_iff hplaces (Nat.min_le_left _ _)]
  exact forall₂_congr fun place _ => hperm.mem_iff

/-- `prepare_disks_for_vm` reports what it should exactly if there is nothing to report. -/
theorem reportsAttachments_iff (hne : disksToPrepare ≠ []) :
    ReportsAttachments engine vmName readOnly schedule disksToPrepare interfaces ↔
      AttachmentsAccepted engine vmName readOnly disksToPrepare interfaces := by
  have hrun := @run_prepareDisksForVm engine vmName readOnly schedule disksToPrepare interfaces hne
  rw [← @everyAttached_iff engine vmName readOnly schedule disksToPrepare interfaces hne]
  unfold ReportsAttachments
  constructor
  · intro h
    exact h.1.mp ⟨_, hrun⟩
  · intro h
    exact ⟨iff_of_true ⟨_, hrun⟩ h, fun hnot => absurd h hnot⟩

end

/-! ## Creations -/

section

variable {engine : CreateEngine} {sdName : Text} {shared : Bool} {diskSize : Nat}
  {schedule : (tasks : List CreateTask) → Schedule tasks} {interfaces : List Text} {sdType : Text}
  {kinds : List DiskKind}

/-- The engine has created the disk. -/
def createAccepted (engine : CreateEngine) (sdName : Text) (shared : Bool) (diskSize : Nat)
    (sdType : Text) (task : CreateTask) : Bool :=
  match addOutcome engine sdName shared diskSize sdType task with
  | .ok outcome => outcome.1
  | .error _ => false

/-- The entries that the task adds: the assertion about a pair never fails. -/
def entriesOf (engine : CreateEngine) (sdName : Text) (shared : Bool) (diskSize : Nat)
    (sdType : Text) (task : CreateTask) : List DiskEntry :=
  match addOutcome engine sdName shared diskSize sdType task with
  | .ok _ => [entryOf engine task]
  | .error _ => []

theorem createAccepted_iff {task : CreateTask} :
    createAccepted engine sdName shared diskSize sdType task = true ↔
      ∃ diskId, addOutcome engine sdName shared diskSize sdType task = .ok (true, diskId) := by
  unfold createAccepted
  cases addOutcome engine sdName shared diskSize sdType task with
  | error fault =>
    refine iff_of_false nofun ?_
    rintro ⟨diskId, h⟩
    exact nomatch h
  | ok outcome =>
    constructor
    · intro h
      exact ⟨outcome.2, congrArg Except.ok (Prod.ext h rfl)⟩
    · rintro ⟨diskId, h⟩
      exact congrArg Prod.fst (Except.ok.inj h)

/-- A task adds its place if the disk is created, and its entry unless it raises. -/
theorem after_addDiskTask (task : CreateTask) (progress : Progress) :
    after (addDiskTask engine sdName shared diskSize sdType task) progress =
      { created := progress.created ++
          placeOf CreateTask.place (createAccepted engine sdName shared diskSize sdType) task
        disks := progress.disks ++ entriesOf engine sdName shared diskSize sdType task } := by
  unfold addDiskTask addNewDisk placeOf createAccepted entriesOf after
  simp only [EStateM.run_bind, run_fromExcept]
  cases addOutcome engine sdName shared diskSize sdType task with
  | error fault =>
    change progress = _
    simp only [Bool.false_eq_true, if_false, List.append_nil]
  | ok outcome =>
    obtain ⟨created, diskId⟩ := outcome
    cases created with
    | false =>
      change Progress.mk progress.created _ = Progress.mk (progress.created ++ []) _
      rw [List.append_nil]
      rfl
    | true => rfl

theorem place_getElem_createTasks {i : Nat} (hi : i < (createTasks kinds).length) :
    ((createTasks kinds)[i]).place = i :=
  congrArg CreateTask.place (@List.getElem_mapIdx _ _ kinds _ i hi)

theorem map_place_createTasks (kinds : List DiskKind) :
    (createTasks kinds).map CreateTask.place = List.range kinds.length := by
  apply List.ext_getElem
  · rw [List.length_map, createTasks, List.length_mapIdx, List.length_range]
  · intro i hi _
    rw [List.getElem_map, List.getElem_range, place_getElem_createTasks]

theorem entryAt_place {task : CreateTask} (h : task ∈ createTasks kinds) :
    entryAt engine kinds task.place = some (entryOf engine task) := by
  obtain ⟨i, hi, rfl⟩ := List.getElem_of_mem h
  rw [entryAt, place_getElem_createTasks, List.getElem?_eq_getElem hi]
  rfl

theorem run_startCreatingDisksForTest (hstorage : engine.storageType sdName = .ok sdType)
    (hkinds : diskPermutations shared sdType interfaces = kinds) (hne : kinds ≠ []) :
    (startCreatingDisksForTest engine sdName shared diskSize schedule interfaces).run ⟨[], []⟩ =
      let progress := runAll (addDiskTask engine sdName shared diskSize sdType)
        (schedule (createTasks kinds)).order ⟨[], []⟩
      .ok progress.disks progress := by
  subst hkinds
  unfold startCreatingDisksForTest withExecutor
  rw [hstorage, EStateM.run_bind, run_fromExcept]
  simp only []
  rw [if_neg (fun h => hne (List.length_eq_zero_iff.mp h))]
  rfl

/-- The tasks add the places of the disks that are created, in the order of the schedule. -/
theorem created_runAll (order : List CreateTask) :
    (runAll (addDiskTask engine sdName shared diskSize sdType) order ⟨[], []⟩).created =
      order.flatMap
        (placeOf CreateTask.place (createAccepted engine sdName shared diskSize sdType)) := by
  have h : ∀ task progress,
      (after (addDiskTask engine sdName shared diskSize sdType task) progress).created =
        progress.created ++
          placeOf CreateTask.place (createAccepted engine sdName shared diskSize sdType) task :=
    fun task progress => congrArg Progress.created (after_addDiskTask task progress)
  exact runAll_adds h order ⟨[], []⟩

theorem disks_runAll (order : List CreateTask) :
    (runAll (addDiskTask engine sdName shared diskSize sdType) order ⟨[], []⟩).disks =
      order.flatMap (entriesOf engine sdName shared diskSize sdType) := by
  have h : ∀ task progress,
      (after (addDiskTask engine sdName shared diskSize sdType task) progress).disks =
        progress.disks ++ entriesOf engine sdName shared diskSize sdType task :=
    fun task progress => congrArg Progress.disks (after_addDiskTask task progress)
  exact runAll_adds h order ⟨[], []⟩

/-- Where all requests are accepted, the entries are those of the created disks. -/
theorem disks_eq_of_accepted (haccepted : CreationsAccepted engine sdName shared diskSize sdType
    kinds) {order : List CreateTask} (horder : ∀ task ∈ order, task ∈ createTasks kinds) :
    order.flatMap (entriesOf engine sdName shared diskSize sdType) =
      (order.flatMap (placeOf CreateTask.place
        (createAccepted engine sdName shared diskSize sdType))).filterMap
          (entryAt engine kinds) := by
  induction order with
  | nil => rfl
  | cons task order ih =>
    obtain ⟨htask, hrest⟩ := List.forall_mem_cons.mp horder
    obtain ⟨diskId, houtcome⟩ := haccepted task htask
    have hentries : entriesOf engine sdName shared diskSize sdType task =
        [entryOf engine task] := by
      rw [entriesOf, houtcome]
    have hplace : placeOf CreateTask.place
        (createAccepted engine sdName shared diskSize sdType) task = [task.place] := by
      rw [placeOf, if_pos (createAccepted_iff.mpr ⟨diskId, houtcome⟩)]
    rw [List.flatMap_cons, List.flatMap_cons, List.filterMap_append, ← ih hrest, hentries,
      hplace, List.filterMap_cons_some (entryAt_place htask), List.filterMap_nil]

/-- `start_creating_disks_for_test` reports what it should exactly if every request is
accepted. -/
theorem reportsCreations_iff (hstorage : engine.storageType sdName = .ok sdType)
    (hkinds : diskPermutations shared sdType interfaces = kinds) (hne : kinds ≠ []) :
    ReportsCreations engine sdName shared diskSize schedule interfaces kinds ↔
      CreationsAccepted engine sdName shared diskSize sdType kinds := by
  have hrun := @run_startCreatingDisksForTest engine sdName shared diskSize schedule interfaces
    sdType kinds hstorage hkinds hne
  have hperm := (schedule (createTasks kinds)).perm
  have hevery : (∀ place < kinds.length, place ∈
        (after (startCreatingDisksForTest engine sdName shared diskSize schedule interfaces)
          ⟨[], []⟩).created) ↔
      CreationsAccepted engine sdName shared diskSize sdType kinds := by
    rw [after_eq_of_ok hrun]
    have hplaces := @every_place_iff CreateTask (createTasks kinds) CreateTask.place
      (createAccepted engine sdName shared diskSize sdType) kinds.length kinds.length
      (map_place_createTasks kinds) le_rfl
    rw [and_iff_right le_rfl] at hplaces
    unfold CreationsAccepted
    simp only [← createAccepted_iff]
    rw [← hplaces, created_runAll]
    exact forall₂_congr fun place _ => (hperm.flatMap_right _).mem_iff
  unfold ReportsCreations
  rw [hevery]
  constructor
  · intro h
    exact h.1.mp ⟨_, _, hrun⟩
  · intro h
    refine ⟨iff_of_true ⟨_, _, hrun⟩ h, fun disks progress hother => ?_⟩
    obtain ⟨rfl, rfl⟩ := EStateM.Result.ok.inj (hrun.symm.trans hother)
    rw [created_runAll, disks_runAll,
      disks_eq_of_accepted h fun task htask => hperm.mem_iff.mp htask]

end

/-- The preparation of disks in parallel reports its failures exactly if there are none. -/
theorem disk_preparation_reports_iff (attachEngine : AttachEngine) (createEngine : CreateEngine)
    (vmName sdName sdType : Text) (readOnly shared : Bool) (diskSize : Nat)
    (attachSchedule : (tasks : List AttachTask) → Schedule tasks)
    (createSchedule : (tasks : List CreateTask) → Schedule tasks)
    (disksToPrepare attachInterfaces createInterfaces : List Text) (kinds : List DiskKind)
    (hdisks : disksToPrepare ≠ []) (hstorage : createEngine.storageType sdName = .ok sdType)
    (hkinds : diskPermutations shared sdType createInterfaces = kinds) (hne : kinds ≠ []) :
    (ReportsAttachments attachEngine vmName readOnly attachSchedule disksToPrepare
        attachInterfaces ↔
      AttachmentsAccepted attachEngine vmName readOnly disksToPrepare attachInterfaces) ∧
    (ReportsCreations createEngine sdName shared diskSize createSchedule createInterfaces kinds ↔
      CreationsAccepted createEngine sdName shared diskSize sdType kinds) :=
  ⟨reportsAttachments_iff hdisks, reportsCreations_iff hstorage hkinds hne⟩

/-- The tasks run in the order in which they are submitted. -/
def inOrder {τ : Type} (tasks : List τ) : Schedule tasks where
  order := tasks
  perm := .refl tasks

/-- An engine that refuses each attachment. -/
def refusingAttachments : AttachEngine where
  diskId := fun _ _ => .ok "d1".toList
  vmDisks := fun _ _ => .ok ()
  createAttachment := fun _ _ => .ok false

/-- An engine that refuses each disk. -/
def refusingDisks : CreateEngine where
  storageType := fun _ => .ok "nfs".toList
  currentDateTime := fun _ => "0112000000".toList
  prepareDiskObject := fun _ _ => .ok ()
  create := fun _ _ => .ok (none, false)

/-- The permutations for a file domain and `virtio`. -/
def fileKinds : List DiskKind :=
  [ { givenAlias := none, format := formatCow, interface := virtio, sparse := true }
  , { givenAlias := none, format := formatRaw, interface := virtio, sparse := true } ]

theorem disk_preparation_reports_iff_of_refusals :
    (ReportsAttachments refusingAttachments "vm".toList false inOrder ["d".toList] [] ↔
      AttachmentsAccepted refusingAttachments "vm".toList false ["d".toList] []) ∧
    (ReportsCreations refusingDisks "sd".toList false 1 inOrder [virtio] fileKinds ↔
      CreationsAccepted refusingDisks "sd".toList false 1 "nfs".toList fileKinds) :=
  disk_preparation_reports_iff refusingAttachments refusingDisks _ _ _ false false 1 inOrder
    inOrder ["d".toList] [] [virtio] fileKinds (List.cons_ne_nil _ _) rfl (by decide)
    (List.cons_ne_nil _ _)

/-- The attachment is refused, and `True` is returned; the disks are refused, and there is an entry
for each. -/
theorem refusals_not_reported :
    (prepareDisksForVm refusingAttachments "vm".toList false inOrder ["d".toList] []).run [] =
        .ok true [] ∧
      ∃ disks, disks.length = 2 ∧
        (startCreatingDisksForTest refusingDisks "sd".toList false 1 inOrder [virtio]).run
          ⟨[], []⟩ = .ok disks ⟨[], disks⟩ := by
  refine ⟨rfl, ?_⟩
  exact ⟨_, rfl, rfl⟩

end OvirtArt.Storage.DiskPreparation
