import Mathlib.Data.List.Induction
import OvirtArt.CoreApi.PyText
import OvirtArt.Foundation.Effects

set_option autoImplicit false

/-!
# `create_nfs_domain_with_options` of `high_level/storagedomains.py`

For negative tests the class `HostStorage` of the module `low_level/storagedomains.py` is replaced
by one that takes any values, and put back when `addStorageDomain` has returned.

The module is state, and the class that stands in it is the part that matters.  Other storage
types, for which this caller does not build a domain, are left out.
-/

namespace OvirtArt.TestsLib.NfsDomain

open OvirtArt.CoreApi OvirtArt.Foundation

/-- What the variable `HostStorage` can be. -/
inductive HostStorageClass where
  /-- `getDS('HostStorage')` -/
  | generated
  /-- `datastructures.HostStorage` -/
  | unchecked
  deriving DecidableEq, Repr

/-- What is raised. -/
inductive Fault where
  | entityNotFound
  | typeError
  | storageDomainException (message : Text)
  /-- What any other call raises. -/
  | raised (description : Text)
  deriving DecidableEq, Repr

/-- An object of the class that `HostStorage` was. -/
structure HostStorage where
  cls : HostStorageClass
  type : Text
  path : Text
  address : Text
  nfsVersion : Option Text
  nfsRetrans : Option Text
  nfsTimeo : Option Text
  mountOptions : Option Text
  deriving DecidableEq, Repr

/-- A storage domain as it is sent to the engine. -/
structure StorageDomain where
  name : Option Text
  type : Option Text
  host : Option Text
  storageFormat : Option Text
  storage : HostStorage
  deriving DecidableEq, Repr

/-- The arguments of `create_nfs_domain_with_options`. -/
structure NfsArgs where
  name : Text
  sdType : Text
  host : Text
  address : Text
  path : Text
  version : Option Text
  retrans : Option Text
  timeo : Option Text
  mountOptions : Option Text
  datacenter : Option Text
  positive : Bool

/-- What the other functions return or raise. -/
structure World where
  /-- `hostUtil.find(host).get_name()`. -/
  findHost : Text → Except Fault Text
  getHostCompatibilityVersion : Text → Except Fault (Option Text)
  /-- The status of `util.create`, for a domain or for `False`. -/
  create : Option StorageDomain → Bool → Except Fault Bool
  attachStorageDomain : Text → Text → Except Fault Bool

/-- The module: its variable `HostStorage`, and which class each creation has used. -/
structure Module where
  hostStorage : HostStorageClass
  used : List (Bool × HostStorageClass)

/-! ## `addStorageDomain` -/

section

variable (world : World) (args : NfsArgs)

/-- The value if it is not empty. -/
def ifTruthy (value : Text) : Option Text := if value.isEmpty then none else some value

/-- The host of `_prepareStorageDomainObject`. -/
def preparedHost : Except Fault (Option Text) :=
  if args.host.isEmpty then .ok none else (world.findHost args.host).map some

/-- The format for the compatibility version of the host. -/
def formatOfVersion (version : Text) : Text :=
  if version == "2.2".toList then "v1".toList
  else if version == "3.0".toList then "v1".toList
  else "v3".toList

/-- The metadata format, which data domains have; without a value if `False` is returned. -/
def preparedFormat : Except Fault (Option (Option Text)) :=
  if args.sdType.map Char.toLower == "data".toList then
    if args.host.isEmpty then .ok (some none)
    else do
      let version ← world.getHostCompatibilityVersion args.host
      if Text.truthy version then return some (some (formatOfVersion (version.getD [])))
      else return none
  else .ok (some none)

/-- `HostStorage(...)` with the class that the module has. -/
def nfsStorage (cls : HostStorageClass) : HostStorage where
  cls := cls
  type := "nfs".toList
  path := args.path
  address := args.address
  nfsVersion := args.version
  nfsRetrans := args.retrans
  nfsTimeo := args.timeo
  mountOptions := args.mountOptions

/-- `_prepareStorageDomainObject` for `nfs`. -/
def prepareStorageDomainObject : EStateM Fault Module (Option StorageDomain) := do
  let host ← fromExcept (preparedHost world args)
  let format ← fromExcept (preparedFormat world args)
  match format with
  | none => return none
  | some storageFormat =>
    let current ← get
    set { current with used := current.used ++ [(args.positive, current.hostStorage)] }
    return some
      { name := ifTruthy args.name
        type := ifTruthy args.sdType
        host := host
        storageFormat := storageFormat
        storage := nfsStorage args current.hostStorage }

/-- `util.create` with the handler of `TypeError`. -/
def createdStatus (sd : Option StorageDomain) : Except Fault Bool :=
  match world.create sd args.positive with
  | .ok status => .ok status
  | .error .typeError => .ok (!args.positive)
  | .error fault => .error fault

/-- `addStorageDomain`. -/
def addStorageDomain : EStateM Fault Module Bool := do
  let sd ← prepareStorageDomainObject world args
  fromExcept (createdStatus world args sd)

/-! ## `create_nfs_domain_with_options` -/

/-- `ll_sd.HostStorage = cls`. -/
def setHostStorage (cls : HostStorageClass) : EStateM Fault Module Unit :=
  modify fun current => { current with hostStorage := cls }

/-- The attachment at the end. -/
def attachTo : EStateM Fault Module Unit :=
  match args.datacenter with
  | none => return ()
  | some datacenter =>
    if args.positive then do
      let attached ← fromExcept (world.attachStorageDomain datacenter args.name)
      if attached then return ()
      else throw (.storageDomainException
        ("Cannot attach ".toList ++ args.name ++ " to ".toList ++ datacenter))
    else return ()

/-- `create_nfs_domain_with_options`. -/
def createNfsDomainWithOptions : EStateM Fault Module Unit := do
  let old ← get
  if !args.positive then setHostStorage .unchecked
  let added ← addStorageDomain world args
  if added then
    setHostStorage old.hostStorage
    attachTo world args
  else
    setHostStorage old.hostStorage
    throw (.storageDomainException ("Cannot add storage domain ".toList ++ args.name))

end

/-! ## Sequences of calls -/

/-- A call, with what the other functions answer to it. -/
structure NfsCall where
  world : World
  args : NfsArgs

/-- What a call leaves behind, returning or raising. -/
def afterCall (current : Module) (call : NfsCall) : Module :=
  after (createNfsDomainWithOptions call.world call.args) current

/-- The module as it is imported. -/
def importedModule : Module where
  hostStorage := .generated
  used := []

/-- The module after these calls. -/
def afterCalls (calls : List NfsCall) : Module := calls.foldl afterCall importedModule

/-- Every call leaves `HostStorage` as it was, and each positive creation has used the generated
class. -/
structure LeavesModule (calls : List NfsCall) : Prop where
  kept : ∀ before call rest, calls = before ++ call :: rest →
    (afterCalls (before ++ [call])).hostStorage = (afterCalls before).hostStorage
  used : ∀ cls, (true, cls) ∈ (afterCalls calls).used → cls = .generated

/-- Adding the storage domain with this class returns. -/
def AddingReturns (call : NfsCall) (cls : HostStorageClass) : Prop :=
  ∃ status next, (addStorageDomain call.world call.args).run ⟨cls, []⟩ = .ok status next

/-- The call is positive, or adding the storage domain does not raise. -/
def Restores (call : NfsCall) : Prop :=
  call.args.positive = true ∨ AddingReturns call .unchecked

section

variable {world : World} {args : NfsArgs} {current : Module} {call : NfsCall}
  {calls before : List NfsCall} {cls : HostStorageClass}

/-! ### One call -/

/-- A return or an exception in this state. -/
def endsIn {α : Type} (outcome : Except Fault α) (next : Module) : EStateM.Result Fault Module α :=
  match outcome with
  | .ok value => .ok value next
  | .error fault => .error fault next

theorem run_fromExcept_eq_endsIn {α : Type} (outcome : Except Fault α) (next : Module) :
    (fromExcept outcome).run next = endsIn outcome next := by
  cases outcome with
  | ok value => rfl
  | error fault => rfl

/-- What is known when the object is made: the host, and the format unless there is none. -/
def prepared (world : World) (args : NfsArgs) :
    Except Fault (Option Text × Option (Option Text)) := do
  let host ← preparedHost world args
  let format ← preparedFormat world args
  return (host, format)

/-- The storage domain that is made with this class. -/
def madeDomain (args : NfsArgs) (cls : HostStorageClass)
    (known : Option Text × Option (Option Text)) : Option StorageDomain :=
  known.2.map fun storageFormat =>
    { name := ifTruthy args.name
      type := ifTruthy args.sdType
      host := known.1
      storageFormat := storageFormat
      storage := nfsStorage args cls }

/-- What adding the storage domain with this class comes to. -/
def addOutcome (world : World) (args : NfsArgs) (cls : HostStorageClass) : Except Fault Bool :=
  (prepared world args).bind fun known => createdStatus world args (madeDomain args cls known)

/-- The entry that it makes. -/
def usedBy (world : World) (args : NfsArgs) (cls : HostStorageClass) :
    List (Bool × HostStorageClass) :=
  match prepared world args with
  | .ok known => if known.2.isSome then [(args.positive, cls)] else []
  | .error _ => []

/-- The module with one more entry, if there is one. -/
def Module.added (current : Module) (world : World) (args : NfsArgs) : Module :=
  { current with used := current.used ++ usedBy world args current.hostStorage }

theorem run_addStorageDomain : (addStorageDomain world args).run current =
    endsIn (addOutcome world args current.hostStorage) (current.added world args) := by
  have hnothing : current = { current with used := current.used ++ [] } := by
    rw [List.append_nil]
  unfold addStorageDomain prepareStorageDomainObject addOutcome Module.added usedBy prepared
  rw [EStateM.run_bind, EStateM.run_bind, run_fromExcept]
  cases preparedHost world args with
  | error fault => exact congrArg (EStateM.Result.error fault) hnothing
  | ok host =>
    simp only []
    rw [EStateM.run_bind, run_fromExcept]
    cases preparedFormat world args with
    | error fault => exact congrArg (EStateM.Result.error fault) hnothing
    | ok format =>
      cases format with
      | none =>
        change (fromExcept (createdStatus world args none)).run current =
          endsIn (createdStatus world args none)
            { current with used := current.used ++ [] }
        rw [← hnothing]
        exact run_fromExcept_eq_endsIn _ _
      | some storageFormat =>
        change (fromExcept (createdStatus world args _)).run _ = _
        exact run_fromExcept_eq_endsIn _ _

/-- The class during the call. -/
def duringCall (args : NfsArgs) (cls : HostStorageClass) : HostStorageClass :=
  if args.positive then cls else .unchecked

/-- Adding the storage domain returns exactly if its outcome is a status. -/
theorem addingReturns_iff :
    AddingReturns call cls ↔ ∃ status, addOutcome call.world call.args cls = .ok status := by
  unfold AddingReturns
  rw [run_addStorageDomain]
  cases addOutcome call.world call.args cls with
  | ok status => exact iff_of_true ⟨status, _, rfl⟩ ⟨status, rfl⟩
  | error fault =>
    refine iff_of_false ?_ ?_
    · rintro ⟨status, next, h⟩
      exact nomatch h
    · rintro ⟨status, h⟩
      exact nomatch h

/-- The module while the call adds the storage domain. -/
def Module.during (current : Module) (args : NfsArgs) : Module :=
  { current with hostStorage := duringCall args current.hostStorage }

theorem after_attachTo : after (attachTo world args) current = current := by
  unfold attachTo
  cases args.datacenter with
  | none => rfl
  | some datacenter =>
    cases args.positive with
    | false => rfl
    | true =>
      simp only [if_true]
      rw [after_bind, run_fromExcept]
      cases world.attachStorageDomain datacenter args.name with
      | error fault => rfl
      | ok attached =>
        cases attached with
        | false => rfl
        | true => rfl

/-- After a call the class is the one before if adding the storage domain has returned, and
otherwise the one during the call; the entries are those of the addition. -/
theorem afterCall_eq : afterCall current call =
    { hostStorage :=
        if (addOutcome call.world call.args (duringCall call.args current.hostStorage)).isOk then
          current.hostStorage
        else duringCall call.args current.hostStorage
      used := current.used ++
        usedBy call.world call.args (duringCall call.args current.hostStorage) } := by
  have hset : afterCall current call =
      after (do
        let added ← addStorageDomain call.world call.args
        if added then
          setHostStorage current.hostStorage
          attachTo call.world call.args
        else
          setHostStorage current.hostStorage
          throw (.storageDomainException
            ("Cannot add storage domain ".toList ++ call.args.name)))
        (current.during call.args) := by
    unfold afterCall createNfsDomainWithOptions Module.during duringCall
    rw [after_get_bind]
    cases call.args.positive with
    | true => rfl
    | false => rfl
  rw [hset, after_bind, run_addStorageDomain]
  change _ = Module.mk (if (addOutcome call.world call.args
    (current.during call.args).hostStorage).isOk then _ else _) _
  cases addOutcome call.world call.args (current.during call.args).hostStorage with
  | error fault => rfl
  | ok added =>
    cases added with
    | false => rfl
    | true =>
      change after (setHostStorage current.hostStorage >>= fun _ =>
        attachTo call.world call.args) _ = _
      rw [after_bind]
      exact after_attachTo

/-- From the generated class a call leaves the generated class exactly if it restores it. -/
theorem hostStorage_afterCall_iff (h : current.hostStorage = .generated) :
    (afterCall current call).hostStorage = .generated ↔ Restores call := by
  unfold Restores
  rw [afterCall_eq, addingReturns_iff, h, duringCall]
  cases call.args.positive with
  | true =>
    refine iff_of_true ?_ (.inl rfl)
    exact ite_self _
  | false =>
    change (if (addOutcome call.world call.args .unchecked).isOk then _ else _) = _ ↔ _
    cases addOutcome call.world call.args .unchecked with
    | ok status => exact iff_of_true rfl (.inr ⟨status, rfl⟩)
    | error fault =>
      refine iff_of_false nofun ?_
      rintro (hpositive | ⟨status, hstatus⟩)
      · exact nomatch hpositive
      · exact nomatch hstatus

theorem mem_usedBy {entry : Bool × HostStorageClass} (h : entry ∈ usedBy world args cls) :
    entry = (args.positive, cls) := by
  unfold usedBy at h
  cases hprepared : prepared world args with
  | error fault =>
    rw [hprepared] at h
    exact absurd h List.not_mem_nil
  | ok known =>
    rw [hprepared] at h
    simp only at h
    cases hsome : known.2.isSome with
    | false =>
      rw [hsome] at h
      exact absurd h List.not_mem_nil
    | true =>
      rw [hsome] at h
      exact List.mem_singleton.mp h

/-- From the generated class a positive call uses the generated class. -/
theorem used_afterCall (h : current.hostStorage = .generated)
    (hused : ∀ cls, (true, cls) ∈ current.used → cls = .generated) (cls : HostStorageClass)
    (hmem : (true, cls) ∈ (afterCall current call).used) : cls = .generated := by
  rw [afterCall_eq, h] at hmem
  rcases List.mem_append.mp hmem with hbefore | hnew
  · exact hused cls hbefore
  · obtain ⟨hpositive, rfl⟩ := Prod.mk.inj (mem_usedBy hnew)
    exact if_pos hpositive.symm

/-! ### Sequences -/

theorem afterCalls_append_singleton :
    afterCalls (before ++ [call]) = afterCall (afterCalls before) call := by
  rw [afterCalls, List.foldl_append]
  rfl

/-- Where every call leaves the class as it was, it is the generated one all the time. -/
theorem LeavesModule.hostStorage (h : LeavesModule calls) :
    ∀ rest, calls = before ++ rest → (afterCalls before).hostStorage = .generated := by
  induction before using List.reverseRecOn with
  | nil => exact fun _ _ => rfl
  | append_singleton before call ih =>
    intro rest hcalls
    rw [List.append_assoc] at hcalls
    exact (h.kept before call rest hcalls).trans (ih (call :: rest) hcalls)

/-- Where every call restores the class, it is the generated one after them, and the positive calls
have used it. -/
theorem afterCalls_of_restores (h : ∀ call ∈ calls, Restores call) :
    (afterCalls calls).hostStorage = .generated ∧
      ∀ cls, (true, cls) ∈ (afterCalls calls).used → cls = .generated := by
  induction calls using List.reverseRecOn with
  | nil => exact ⟨rfl, fun cls hmem => absurd hmem List.not_mem_nil⟩
  | append_singleton calls call ih =>
    obtain ⟨hgenerated, hused⟩ := ih fun other hother =>
      h other (List.mem_append_left [call] hother)
    rw [afterCalls_append_singleton]
    have hcall := h call (List.mem_append_right calls (List.mem_singleton.mpr rfl))
    exact ⟨(hostStorage_afterCall_iff hgenerated).mpr hcall, used_afterCall hgenerated hused⟩

end

/-- A sequence of calls leaves the module as it was exactly if each negative call returns from
adding its storage domain. -/
theorem leavesModule_iff (calls : List NfsCall) :
    LeavesModule calls ↔ ∀ call ∈ calls, Restores call := by
  constructor
  · intro h call hcall
    obtain ⟨before, rest, rfl⟩ := List.append_of_mem hcall
    have hbefore := h.hostStorage (call :: rest) rfl
    rw [← hostStorage_afterCall_iff hbefore, ← afterCalls_append_singleton]
    exact (h.kept before call rest rfl).trans hbefore
  · intro h
    refine { kept := fun before call rest hcalls => ?_, used := (afterCalls_of_restores h).2 }
    subst hcalls
    have hsub : ∀ other ∈ before ++ [call], other ∈ before ++ call :: rest := by
      intro other hother
      rcases List.mem_append.mp hother with hin | hlast
      · exact List.mem_append_left _ hin
      · obtain rfl := List.mem_singleton.mp hlast
        exact List.mem_append_right _ List.mem_cons_self
    have hlong := (afterCalls_of_restores fun other hother => h other (hsub other hother)).1
    have hshort := (afterCalls_of_restores fun other hother =>
      h other (hsub other (List.mem_append_left [call] hother))).1
    exact hlong.trans hshort.symm

/-- An engine that does not know the host. -/
def hostUnknown : World where
  findHost := fun _ => .error .entityNotFound
  getHostCompatibilityVersion := fun _ => .ok none
  create := fun _ _ => .ok true
  attachStorageDomain := fun _ _ => .ok true

/-- An engine that creates what it is asked for. -/
def creating : World where
  findHost := fun host => .ok host
  getHostCompatibilityVersion := fun _ => .ok (some "4.2".toList)
  create := fun _ _ => .ok true
  attachStorageDomain := fun _ _ => .ok true

/-- The arguments for an export domain. -/
def exportArgs (positive : Bool) : NfsArgs where
  name := "nfs_1".toList
  sdType := "export".toList
  host := "host_1".toList
  address := "10.0.0.1".toList
  path := "/exports/1".toList
  version := none
  retrans := none
  timeo := none
  mountOptions := none
  datacenter := none
  positive := positive

/-- A negative call whose host is not found, and then a positive one: it uses the unchecked
class. -/
theorem unchecked_class_stays :
    (afterCalls [⟨hostUnknown, exportArgs false⟩]).hostStorage = .unchecked ∧
      (true, HostStorageClass.unchecked) ∈
        (afterCalls [⟨hostUnknown, exportArgs false⟩, ⟨creating, exportArgs true⟩]).used := by
  constructor
  · rfl
  · decide

end OvirtArt.TestsLib.NfsDomain
