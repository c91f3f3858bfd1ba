import OvirtArt.CoreApi.PyText
import OvirtArt.Foundation.Effects

set_option autoImplicit false

/-!
# `compute/virt/vm_pools/helpers.py`

Three helpers take or operate VMs of a pool as a user: they log in as the user, do what they are
for, and log in as the administrator again.  `allocate_vms_as_user` then verifies what the user has
got.

The session of the API is the state of the model.  A call to the engine is taken as what it comes
to, a value or an exception, and may come to either; what it changes in the engine beyond that is
left out.
-/

namespace OvirtArt.Compute.VmPoolHelpers

open OvirtArt.CoreApi OvirtArt.Foundation

/-- What the helpers raise: an exception of their own, or one of a call that they make. -/
inductive HelperException where
  | vmPoolException (message : Text)
  | ofCall
  deriving DecidableEq, Repr

/-- The values of `config` that are read. -/
structure Config where
  user : Text
  userDomain : Text
  userRole : Text
  vdcAdminUser : Text
  vdcAdminDomain : Text
  vdcPassword : Text

/-- The entries of `ART_CONFIG['REST_CONNECTION']` that a login sets. -/
structure Session where
  filter : Bool
  user : Text
  userDomain : Text
  password : Text
  deriving DecidableEq, Repr

/-- A VM of the pool, and the roles that users have on it. -/
structure PoolVm where
  name : Text
  hasUserPermissions : Text → Text → Bool

/-- What the calls come to, `none` if one raises.  The logoffs and the allocations are numbered in
their order. -/
structure Calls where
  logoffApi : Nat → Option Unit
  allocateVmFromPool : Nat → Option Bool
  stopVm : Option Bool
  startVm : Option Bool
  hasUserPermissionsOnObject : Option Bool
  waitForVmSnapshots : Option Unit
  waitForVmStates : Text → Option Unit

/-- The value of a call, or its exception. -/
def called {α : Type} : Option α → Except HelperException α
  | none => .error .ofCall
  | some value => .ok value

/-! ## The source -/

/-- `loginAsUser` of `low_level/users.py`: the session is written after the logoff. -/
def loginAsUser (logoff : Option Unit) (session : Session) :
    EStateM HelperException Session PUnit := do
  fromExcept (called logoff)
  set session

/-- The session of the administrator. -/
def Config.adminSession (config : Config) : Session where
  filter := false
  user := config.vdcAdminUser
  userDomain := config.vdcAdminDomain
  password := config.vdcPassword

/-- The session of a user. -/
def Config.userSession (config : Config) (user : Text) : Session where
  filter := true
  user := user
  userDomain := config.vdcAdminDomain
  password := config.vdcPassword

section

variable (config : Config) (calls : Calls)

/-- The first `if user == config.USER`. -/
def switchToUser (user : Text) : EStateM HelperException Session PUnit :=
  if user = config.user then loginAsUser (calls.logoffApi 0) (config.userSession user)
  else pure ⟨⟩

/-- The second one. -/
def switchBack (user : Text) : EStateM HelperException Session PUnit :=
  if user = config.user then loginAsUser (calls.logoffApi 1) config.adminSession
  else pure ⟨⟩

/-- What the helpers have in common: a step as the user, and if it is done, the rest as the
administrator.  A step that is not done is left from where it is. -/
def asUser {β : Type} (user : Text) (step : Except HelperException Bool) (refused : β)
    (rest : Except HelperException β) : EStateM HelperException Session β := do
  switchToUser config calls user
  let done ← fromExcept step
  if done then do
    switchBack config calls user
    fromExcept rest
  else pure refused

/-- `message % (pool_name, user)`. -/
def allocateMessage (positive : Bool) (poolName user : Text) : Text :=
  if positive then
    "Failed to take a vm from pool: ".toList ++ poolName ++ " as user: ".toList ++ user
  else
    "Allocating a vm from pool ".toList ++ poolName ++ " as user: ".toList ++ user ++
      " was successful although expected to fail".toList

/-- The loop over `range(new_vms)`, which raises at an allocation that fails. -/
def allocateVms (positive : Bool) (poolName user : Text) : Nat → Except HelperException Bool
  | 0 => .ok true
  | n + 1 =>
    match allocateVms positive poolName user n with
    | .error e => .error e
    | .ok _ =>
      match called (calls.allocateVmFromPool n) with
      | .error e => .error e
      | .ok false => .error (.vmPoolException (allocateMessage positive poolName user))
      | .ok true => .ok true

/-- The loop of `get_user_vms`, which waits for each VM that it takes. -/
def collectUserVms (userName userRole : Text) : List PoolVm → Except HelperException (List Text)
  | [] => .ok []
  | vm :: rest =>
    if vm.hasUserPermissions userName userRole then
      match called (calls.waitForVmStates vm.name) with
      | .error e => .error e
      | .ok _ => (collectUserVms userName userRole rest).map (vm.name :: ·)
    else collectUserVms userName userRole rest

/-- `get_user_vms`.  What it returns is not `None`. -/
def getUserVms (poolVms : List PoolVm) (userName userRole : Text) (numberOfVms : Int) :
    Except HelperException (Option (List Text)) :=
  (collectUserVms calls userName userRole poolVms).map fun userVms =>
    if numberOfVms = -1 ∨ (userVms.length : Int) = numberOfVms then some userVms else some []

/-- `'%s@%s' % (user, config.USER_DOMAIN)`. -/
def userNameOf (user : Text) : Text := user ++ "@".toList ++ config.userDomain

/-- The text of the exception of the verification. -/
def verifyMessage (number : Nat) (poolName userName : Text) : Text :=
  "Couldn't find ".toList ++ (toString number).toList ++ " vms in pool: ".toList ++ poolName ++
    " with permissions for user: ".toList ++ userName ++ " ".toList

/-- The last part of `allocate_vms_as_user`. -/
def verifyAllocation (poolVms : List PoolVm) (positive : Bool) (poolName user : Text)
    (userVms newVms : Nat) (verify : Bool) : Except HelperException PUnit :=
  if positive && verify then
    match getUserVms calls poolVms (userNameOf config user) config.userRole
        ((userVms + newVms : Nat) : Int) with
    | .error e => .error e
    | .ok none =>
      .error (.vmPoolException
        (verifyMessage (userVms + newVms) poolName (userNameOf config user)))
    | .ok (some _) => .ok ⟨⟩
  else .ok ⟨⟩

/-- `allocate_vms_as_user`. -/
def allocateVmsAsUser (poolVms : List PoolVm) (positive : Bool) (poolName user : Text)
    (userVms newVms : Nat) (verify : Bool) : EStateM HelperException Session PUnit :=
  asUser config calls user (allocateVms calls positive poolName user newVms) ⟨⟩
    (verifyAllocation config calls poolVms positive poolName user userVms newVms verify)

/-- What `stop_vm_in_pool_as_user` does as the administrator. -/
def checkStopped (manual : Bool) : Except HelperException Bool :=
  match called calls.hasUserPermissionsOnObject with
  | .error e => .error e
  | .ok userHasPermission =>
    match if manual then called calls.waitForVmSnapshots else .ok () with
    | .error e => .error e
    | .ok _ => .ok (userHasPermission == manual)

/-- `stop_vm_in_pool_as_user`. -/
def stopVmInPoolAsUser (user : Text) (manual : Bool) : EStateM HelperException Session Bool :=
  asUser config calls user (called calls.stopVm) false (checkStopped calls manual)

/-- What `start_vm_in_pool_as_user` does as the administrator. -/
def checkStarted (checkPermission manual : Bool) : Except HelperException Bool :=
  match if manual then called calls.waitForVmSnapshots else .ok () with
  | .error e => .error e
  | .ok _ => if checkPermission then called calls.hasUserPermissionsOnObject else .ok true

/-- `start_vm_in_pool_as_user`. -/
def startVmInPoolAsUser (user : Text) (checkPermission manual : Bool) :
    EStateM HelperException Session Bool :=
  asUser config calls user (called calls.startVm) false (checkStarted calls checkPermission manual)

/-! ## The session afterwards -/

/-- The procedure leaves the administrator logged in. -/
def Restores {β : Type} (m : EStateM HelperException Session β) : Prop :=
  after m config.adminSession = config.adminSession

/-- There is no switch: the user is another one, or the logoff before the login raises.  Or the
step as the user is done, and so is the logoff before the login as the administrator. -/
inductive NoneFails (user : Text) (done : Prop) : Prop where
  | otherUser (h : user ≠ config.user)
  | notLoggedIn (h : calls.logoffApi 0 = none)
  | switchedBack (hdone : done) (hback : calls.logoffApi 1 = some ())

end

section

variable {config : Config} {calls : Calls} {user poolName : Text} {positive manual : Bool}
  {newVms : Nat}

theorem userSession_ne_adminSession : config.userSession user ≠ config.adminSession := by
  intro h
  exact nomatch congrArg Session.filter h

variable {step : Except HelperException Bool} {s : Session}

theorem run_loginAsUser_none {session : Session} :
    (loginAsUser none session).run s = .error .ofCall s := rfl

theorem run_loginAsUser_some {session : Session} :
    (loginAsUser (some ()) session).run s = .ok ⟨⟩ session := rfl

/-- After the step, the session is that of the administrator if it was so before, or if the step is
done and the login is. -/
theorem after_step {β : Type} {refused : β} {rest : Except HelperException β} :
    after (do
      let done ← fromExcept step
      if done then do
        switchBack config calls user
        fromExcept rest
      else pure refused : EStateM HelperException Session β) s =
      if step = .ok true ∧ user = config.user ∧ calls.logoffApi 1 = some () then
        config.adminSession
      else s := by
  rw [after_bind, run_fromExcept]
  cases step with
  | error e => exact (if_neg fun h => nomatch h.1).symm
  | ok done =>
    cases done with
    | false => exact (if_neg fun h => nomatch h.1).symm
    | true =>
      simp only [if_true, true_and]
      have hrest : ∀ t, after (fromExcept rest : EStateM HelperException Session β) t = t := by
        intro t
        cases rest with
        | ok b => rfl
        | error e => rfl
      rw [after_bind_eq fun _ t => hrest t]
      unfold switchBack
      by_cases huser : user = config.user
      · rw [if_pos huser]
        cases hlogoff : calls.logoffApi 1 with
        | none =>
          rw [if_neg fun h => nomatch h.2]
          exact after_eq_of_error run_loginAsUser_none
        | some u =>
          rw [if_pos ⟨huser, rfl⟩]
          exact after_eq_of_ok run_loginAsUser_some
      · rw [if_neg huser, if_neg fun h => huser h.1]
        rfl

/-- The administrator is logged in afterwards exactly if no step between the two logins fails. -/
theorem restores_asUser_iff {β : Type} {refused : β} {rest : Except HelperException β} :
    Restores config (asUser config calls user step refused rest) ↔
      NoneFails config calls user (step = .ok true) := by
  unfold Restores asUser
  rw [after_bind]
  by_cases huser : user = config.user
  · rw [switchToUser, if_pos huser]
    cases hlogoff : calls.logoffApi 0 with
    | none =>
      exact iff_of_true rfl (.notLoggedIn hlogoff)
    | some u =>
      rw [run_loginAsUser_some]
      dsimp only
      rw [after_step]
      constructor
      · intro h
        by_cases hall : step = .ok true ∧ user = config.user ∧ calls.logoffApi 1 = some ()
        · exact .switchedBack hall.1 hall.2.2
        · rw [if_neg hall] at h
          exact absurd h userSession_ne_adminSession
      · intro h
        cases h with
        | otherUser hother => exact absurd huser hother
        | notLoggedIn hnone => exact nomatch hlogoff.symm.trans hnone
        | switchedBack hdone hback => rw [if_pos ⟨hdone, huser, hback⟩]
  · rw [switchToUser, if_neg huser]
    refine iff_of_true ?_ (.otherUser huser)
    change after _ config.adminSession = _
    rw [after_step, if_neg fun h => huser h.2.1]

theorem called_eq_ok_iff {α : Type} {call : Option α} {value : α} :
    called call = .ok value ↔ call = some value := by
  cases call with
  | none => exact iff_of_false nofun nofun
  | some other => exact Except.ok.injEq other value ▸ (Option.some_inj (a := other)).symm

/-- The loop over the allocations goes through exactly if each is made and accepted. -/
theorem allocateVms_eq_ok_iff :
    allocateVms calls positive poolName user newVms = .ok true ↔
      ∀ i < newVms, calls.allocateVmFromPool i = some true := by
  induction newVms with
  | zero => exact iff_of_true rfl nofun
  | succ n ih =>
    rw [Nat.forall_lt_succ_right, ← ih, allocateVms]
    cases hloop : allocateVms calls positive poolName user n with
    | error e => exact iff_of_false nofun fun h => nomatch h.1
    | ok accepted =>
      have htrue : accepted = true := by
        cases n with
        | zero => exact (Except.ok.inj hloop).symm
        | succ n =>
          rw [allocateVms] at hloop
          revert hloop
          split
          · exact nofun
          · split
            · exact nofun
            · exact nofun
            · exact fun h => (Except.ok.inj h).symm
      cases calls.allocateVmFromPool n with
      | none => exact iff_of_false nofun fun h => nomatch h.2
      | some accepted' =>
        cases accepted' with
        | false => exact iff_of_false nofun fun h => nomatch h.2
        | true => exact iff_of_true rfl ⟨congrArg _ htrue, rfl⟩

end

/-- Each helper leaves the administrator logged in exactly if no step between the two logins
fails. -/
theorem helpers_restore_session_iff (config : Config) (calls : Calls) (poolVms : List PoolVm)
    (positive verify checkPermission manual : Bool) (poolName user : Text)
    (userVms newVms : Nat) :
    (Restores config (allocateVmsAsUser config calls poolVms positive poolName user userVms newVms
        verify) ↔
      NoneFails config calls user (∀ i < newVms, calls.allocateVmFromPool i = some true)) ∧
    (Restores config (stopVmInPoolAsUser config calls user manual) ↔
      NoneFails config calls user (calls.stopVm = some true)) ∧
    (Restores config (startVmInPoolAsUser config calls user checkPermission manual) ↔
      NoneFails config calls user (calls.startVm = some true)) := by
  refine ⟨?_, ?_, ?_⟩
  · rw [allocateVmsAsUser, restores_asUser_iff, allocateVms_eq_ok_iff]
  · rw [stopVmInPoolAsUser, restores_asUser_iff, called_eq_ok_iff]
  · rw [startVmInPoolAsUser, restores_asUser_iff, called_eq_ok_iff]

/-- A configuration. -/
def someConfig : Config where
  user := "user1".toList
  userDomain := "internal".toList
  userRole := "UserRole".toList
  vdcAdminUser := "admin".toList
  vdcAdminDomain := "internal".toList
  vdcPassword := "123456".toList

/-- Calls that return, of which no allocation, stop or start is accepted. -/
def refusingCalls : Calls where
  logoffApi := fun _ => some ()
  allocateVmFromPool := fun _ => some false
  stopVm := some false
  startVm := some false
  hasUserPermissionsOnObject := some true
  waitForVmSnapshots := some ()
  waitForVmStates := fun _ => some ()

/-- An allocation, a stop or a start that is refused leaves the user logged in. -/
theorem refused_step_leaves_user_logged_in :
    ¬ Restores someConfig
        (allocateVmsAsUser someConfig refusingCalls [] true "pool".toList "user1".toList 0 1
          true) ∧
      ¬ Restores someConfig
        (stopVmInPoolAsUser someConfig refusingCalls "user1".toList false) ∧
      ¬ Restores someConfig
        (startVmInPoolAsUser someConfig refusingCalls "user1".toList true false) := by
  refine ⟨fun h => ?_, fun h => ?_, fun h => ?_⟩
  · exact nomatch congrArg Session.filter h
  · exact nomatch congrArg Session.filter h
  · exact nomatch congrArg Session.filter h

/-! ## The verification -/

section

variable {config : Config} {calls : Calls} {poolVms : List PoolVm} {poolName user : Text}
  {userVms newVms : Nat}

/-- The VMs of the pool on which the user has the role. -/
def allocatedVms (config : Config) (poolVms : List PoolVm) (user : Text) : List PoolVm :=
  poolVms.filter fun vm => vm.hasUserPermissions (userNameOf config user) config.userRole

/-- The procedure raises `VmPoolException`. -/
def RaisesVmPoolException (config : Config) (m : EStateM HelperException Session PUnit) : Prop :=
  ∃ message s, m.run config.adminSession = .error (.vmPoolException message) s

/-- The loop raises what its calls raise, and nothing else. -/
theorem collectUserVms_cases {userName userRole : Text} (vms : List PoolVm) :
    (∃ names, collectUserVms calls userName userRole vms = .ok names) ∨
      collectUserVms calls userName userRole vms = .error .ofCall := by
  induction vms with
  | nil => exact .inl ⟨[], rfl⟩
  | cons vm rest ih =>
    unfold collectUserVms
    split
    · cases calls.waitForVmStates vm.name with
      | none => exact .inr rfl
      | some u =>
        rcases ih with ⟨names, hnames⟩ | herror
        · exact .inl ⟨vm.name :: names, by rw [hnames]; rfl⟩
        · exact .inr (by rw [herror]; rfl)
    · exact ih

theorem verifyAllocation_ne {positive verify : Bool} (message : Text) :
    verifyAllocation config calls poolVms positive poolName user userVms newVms verify ≠
      .error (.vmPoolException message) := by
  unfold verifyAllocation
  split
  · unfold getUserVms
    rcases @collectUserVms_cases calls (userNameOf config user) config.userRole poolVms with
      ⟨names, hnames⟩ | herror
    · rw [hnames]
      by_cases hnumber : ((userVms + newVms : Nat) : Int) = -1 ∨
          (names.length : Int) = (userVms + newVms : Nat)
      · simp only [Except.map, if_pos hnumber]
        exact nofun
      · simp only [Except.map, if_neg hnumber]
        exact nofun
    · rw [herror]
      exact nofun
  · exact nofun

/-- No run of the procedure raises `VmPoolException`. -/
def Quiet {β : Type} (m : EStateM HelperException Session β) : Prop :=
  ∀ message s t, m.run s ≠ .error (.vmPoolException message) t

theorem quiet_bind {β γ : Type} {m : EStateM HelperException Session β}
    {f : β → EStateM HelperException Session γ} (hm : Quiet m) (hf : ∀ b, Quiet (f b)) :
    Quiet (m >>= f) := by
  intro message s t h
  rw [EStateM.run_bind] at h
  cases hrun : m.run s with
  | ok b u =>
    rw [hrun] at h
    exact hf b message u t h
  | error e u =>
    rw [hrun] at h
    cases h
    exact hm message s _ hrun

theorem quiet_fromExcept {β : Type} {step : Except HelperException β}
    (h : ∀ message, step ≠ .error (.vmPoolException message)) :
    Quiet (fromExcept step : EStateM HelperException Session β) := by
  intro message s t hrun
  cases step with
  | ok b => cases hrun
  | error e =>
    cases hrun
    exact h message rfl

/-- A login raises at most what the logoff does. -/
theorem quiet_login {chosen : Prop} [Decidable chosen] {logoff : Option Unit}
    {session : Session} : Quiet (if chosen then loginAsUser logoff session else pure ⟨⟩) := by
  intro message s t h
  split at h
  · cases logoff with
    | none =>
      cases h
    | some u =>
      cases h
  · cases h

theorem quiet_asUser {β : Type} {step : Except HelperException Bool} {refused : β}
    {rest : Except HelperException β} (hstep : ∀ message, step ≠ .error (.vmPoolException message))
    (hrest : ∀ message, rest ≠ .error (.vmPoolException message)) :
    Quiet (asUser config calls user step refused rest) := by
  refine quiet_bind quiet_login fun _ => quiet_bind (quiet_fromExcept hstep) fun done => ?_
  split
  · exact quiet_bind quiet_login fun _ => quiet_fromExcept hrest
  · exact @quiet_fromExcept β (.ok refused) fun _ => nofun

/-- With all allocations accepted, no `VmPoolException` is raised. -/
theorem not_raises_of_accepted {verify : Bool}
    (haccepted : ∀ i < newVms, calls.allocateVmFromPool i = some true) :
    ¬ RaisesVmPoolException config
      (allocateVmsAsUser config calls poolVms true poolName user userVms newVms verify) := by
  rintro ⟨message, s, h⟩
  have hstep : ∀ message, allocateVms calls true poolName user newVms ≠
      .error (.vmPoolException message) := by
    intro message
    rw [allocateVms_eq_ok_iff.mpr haccepted]
    exact nofun
  exact quiet_asUser hstep verifyAllocation_ne message config.adminSession s h

end

/-- The verification is right exactly if the number of VMs is: no number makes it raise. -/
theorem verification_iff (config : Config) (calls : Calls) (poolVms : List PoolVm)
    (poolName user : Text) (userVms newVms : Nat)
    (haccepted : ∀ i < newVms, calls.allocateVmFromPool i = some true) :
    (RaisesVmPoolException config
        (allocateVmsAsUser config calls poolVms true poolName user userVms newVms true) ↔
      (allocatedVms config poolVms user).length ≠ userVms + newVms) ↔
      (allocatedVms config poolVms user).length = userVms + newVms := by
  constructor
  · intro h
    by_contra hne
    exact not_raises_of_accepted haccepted (h.mpr hne)
  · intro heq
    exact iff_of_false (not_raises_of_accepted haccepted) (not_not.mpr heq)

/-- A pool with one VM, on which the user has no role. -/
def untakenPool : List PoolVm :=
  [{ name := "pool-1".toList, hasUserPermissions := fun _ _ => false }]

/-- Calls that return and are accepted. -/
def acceptingCalls : Calls where
  logoffApi := fun _ => some ()
  allocateVmFromPool := fun _ => some true
  stopVm := some true
  startVm := some true
  hasUserPermissionsOnObject := some true
  waitForVmSnapshots := some ()
  waitForVmStates := fun _ => some ()

theorem verification_of_untaken_pool :
    (RaisesVmPoolException someConfig
        (allocateVmsAsUser someConfig acceptingCalls untakenPool true "pool".toList
          "user1".toList 0 1 true) ↔
      (allocatedVms someConfig untakenPool "user1".toList).length ≠ 0 + 1) ↔
      (allocatedVms someConfig untakenPool "user1".toList).length = 0 + 1 :=
  verification_iff someConfig acceptingCalls untakenPool "pool".toList "user1".toList 0 1
    fun _ _ => rfl

/-- The user has got none of the pool's VMs, and the verification does not raise. -/
theorem untaken_pool_passes_verification :
    (∀ i < 1, acceptingCalls.allocateVmFromPool i = some true) ∧
      (allocatedVms someConfig untakenPool "user1".toList).length ≠ 0 + 1 ∧
      ¬ RaisesVmPoolException someConfig
        (allocateVmsAsUser someConfig acceptingCalls untakenPool true "pool".toList
          "user1".toList 0 1 true) :=
  ⟨fun _ _ => rfl, by decide, not_raises_of_accepted fun _ _ => rfl⟩

end OvirtArt.Compute.VmPoolHelpers
