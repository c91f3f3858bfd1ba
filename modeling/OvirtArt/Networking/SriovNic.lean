import OvirtArt.CoreApi.PyText
import OvirtArt.Foundation.Effects
import OvirtArt.Foundation.Runs

set_option autoImplicit false

/-!
# `SriovNicPF` of `low_level/sriov.py`

The object of a physical function keeps the NIC that it read last.  Each operation puts what its
REST operation returned into `update_nic`, and reads the NIC again if that is a true value.  What
is returned differs: `syncAction` gives a text or `None`, `delete` a boolean, and `create` a pair,
which is a true value whatever it holds.

A run is a sequence of operations on one object, against an engine that may refuse or raise each
of them.  The classes for the NICs of a host and for virtual functions are left out, as are
getters that change nothing.
-/

namespace OvirtArt.Networking.Sriov

open OvirtArt.CoreApi OvirtArt.Foundation

/-- A `HostNicVirtualFunctionsConfiguration`. -/
structure VfConfig where
  maxNumberOfVirtualFunctions : Option Nat := none
  numberOfVirtualFunctions : Option Nat := none
  allNetworksAllowed : Option Bool := none
  deriving DecidableEq, Repr

/-- A `HostNic` as it is read with all its content. -/
structure HostNic where
  name : Text
  href : Text
  vfConfig : Option VfConfig
  deriving DecidableEq, Repr

/-- An entity of a collection: a label or a network. -/
structure Entity where
  id : Text
  href : Option Text := none
  deriving DecidableEq, Repr

/-- The collections under the NIC: `PF_LABEL_API` and `PF_NETWORK_API`. -/
inductive Collection where
  | labels
  | networks
  deriving DecidableEq, Repr

/-- What `update_nic` is set to. -/
inductive Flag where
  | bool (value : Bool)
  | pair (entity : Option Entity) (success : Bool)
  deriving DecidableEq, Repr

/-- `bool(flag)`: a pair is not empty. -/
def Flag.truthy : Flag → Bool
  | .bool value => value
  | .pair _ _ => true

/-- What the methods can raise. -/
inductive SriovException where
  | sriov (message : Text)
  | entityNotFound
  | attributeError
  deriving DecidableEq, Repr

/-- What the engine answers while a method runs. -/
structure Engine where
  /-- `get_allowed_labels_obj` of the NIC. -/
  allowedLabels : HostNic → List Entity
  /-- `get_allowed_networks_obj` of the NIC. -/
  allowedNetworks : HostNic → List Entity
  /-- `get_object_name_by_id` of the networks. -/
  networkName : Text → Text
  /-- `find_network` of a name in a data center. -/
  findNetwork : Text → Option Text → Option Entity
  /-- `syncAction` of the update of virtual functions: the response. -/
  syncAction : HostNic → VfConfig → Option Text
  /-- `delete` of an entity. -/
  delete : Collection → Entity → Bool
  /-- `create` of an entity under an address, with the name of the element. -/
  create : Collection → Text → Text → Entity → Option Entity × Bool
  /-- The NICs of the host after the operation. -/
  hostNics : List HostNic

/-- A `SriovNicPF`. -/
structure SriovNicPF where
  updateNic : Flag
  host : Text
  nicName : Text
  nicObj : Option HostNic
  vfConfig : Option VfConfig
  vfLabelHref : Text
  vfNetworkHref : Text
  deriving DecidableEq, Repr

namespace SriovNicPF

/-- The methods of the object. -/
abbrev Method := EStateM SriovException SriovNicPF

/-- `get_host_nic`. -/
def getHostNic (hostNics : List HostNic) (nic : Text) : Option HostNic :=
  hostNics.find? fun x => x.name == nic

/-- `SriovNicPF(host, nic)`. -/
def new (hostNics : List HostNic) (host nic : Text) : Except SriovException SriovNicPF :=
  match getHostNic hostNics nic with
  | none => .error .attributeError
  | some nicObj =>
    match nicObj.vfConfig with
    | none => .error (.sriov ("NIC ".toList ++ nic ++ " is not PF".toList))
    | some vfConfig => .ok
        { updateNic := .bool false
          host := host
          nicName := nic
          nicObj := some nicObj
          vfConfig := some vfConfig
          vfLabelHref := nicObj.href ++ "/virtualfunctionallowedlabels".toList
          vfNetworkHref := nicObj.href ++ "/virtualfunctionallowednetworks".toList }

/-- A value that is there, or the exception. -/
def orRaise {α : Type} (e : SriovException) : Option α → Method α
  | some a => pure a
  | none => throw e

section

variable (engine : Engine)

/-- `_update_nic_obj`. -/
def updateNicObj : Method Flag := do
  let self ← get
  if self.updateNic.truthy then do
    let nicObj := getHostNic engine.hostNics self.nicName
    set { self with nicObj := nicObj }
    let nic ← orRaise .attributeError nicObj
    set { self with nicObj := nicObj, vfConfig := nic.vfConfig }
    pure self.updateNic
  else pure self.updateNic

/-- What every method does with the value of its REST operation. -/
def finish (flag : Flag) : Method Flag := do
  modify fun self => { self with updateNic := flag }
  updateNicObj engine

/-- `_get_label_obj_by_id`. -/
def getLabelObjById (labelId : Text) : Method Entity := do
  let self ← get
  let nic ← orRaise .attributeError self.nicObj
  orRaise (.sriov (labelId ++ " is not found among ".toList ++ self.host
      ++ " allowed labels".toList))
    ((engine.allowedLabels nic).find? fun x => x.id == labelId)

/-- `_get_network_obj_by_name`. -/
def getNetworkObjByName (networkName : Text) : Method Entity := do
  let self ← get
  let nic ← orRaise .attributeError self.nicObj
  orRaise (.sriov (networkName ++ " is not found among ".toList ++ self.host
      ++ " allowed networks".toList))
    ((engine.allowedNetworks nic).find? fun x => engine.networkName x.id == networkName)

/-- `get_all_networks_allowed`, as a condition. -/
def getAllNetworksAllowed : Method Bool := do
  let self ← get
  let vfConfig ← orRaise .attributeError self.vfConfig
  pure (vfConfig.allNetworksAllowed == some true)

/-- `set_sriov_host_nic_params`. -/
def setSriovHostNicParams (params : VfConfig) : Method Flag := do
  let self ← get
  let nic ← orRaise .attributeError self.nicObj
  finish engine (.bool (Text.truthy (engine.syncAction nic params)))

/-- `set_number_of_vf`. -/
def setNumberOfVf (numOfVf : Nat) : Method Flag :=
  setSriovHostNicParams engine { numberOfVirtualFunctions := some numOfVf }

/-- `set_all_networks_allowed`. -/
def setAllNetworksAllowed (enable : Bool) : Method Flag :=
  setSriovHostNicParams engine { allNetworksAllowed := some enable }

/-- `delete_allowed_label`. -/
def deleteAllowedLabel (labelId : Text) : Method Flag := do
  let labelObj ← getLabelObjById engine labelId
  finish engine (.bool (engine.delete .labels labelObj))

/-- `delete_allowed_network`. -/
def deleteAllowedNetwork (network : Text) : Method Flag := do
  let networkObj ← getNetworkObjByName engine network
  finish engine (.bool (engine.delete .networks networkObj))

/-- `create` as the value of `update_nic`. -/
def created (collection : Collection) (href elementName : Text) (entity : Entity) : Flag :=
  let reply := engine.create collection href elementName entity
  .pair reply.1 reply.2

/-- `add_label_to_allowed_labels`. -/
def addLabelToAllowedLabels (label : Text) : Method Flag := do
  let allNetworksAllowed ← getAllNetworksAllowed
  if allNetworksAllowed then
    throw (.sriov ("all_networks_allowed must be False in order to add a label ".toList
      ++ "to allowed labels".toList))
  else do
    let labelObj : Entity := { id := label }
    let self ← get
    finish engine (created engine .labels self.vfLabelHref "network_label".toList labelObj)

/-- `add_network_to_allowed_networks`. -/
def addNetworkToAllowedNetworks (network : Text) (dataCenter : Option Text) : Method Flag := do
  let allNetworksAllowed ← getAllNetworksAllowed
  if allNetworksAllowed then
    throw (.sriov ("all_networks_allowed must be False in order to add a network ".toList
      ++ "to allowed networks".toList))
  else do
    let networkObj ← orRaise .entityNotFound (engine.findNetwork network dataCenter)
    let self ← get
    finish engine (created engine .networks self.vfNetworkHref "network".toList networkObj)

end

/-- A call of one of the operations. -/
inductive Call where
  | setNumberOfVf (numOfVf : Nat)
  | setAllNetworksAllowed (enable : Bool)
  | deleteAllowedLabel (labelId : Text)
  | deleteAllowedNetwork (network : Text)
  | addLabelToAllowedLabels (label : Text)
  | addNetworkToAllowedNetworks (network : Text) (dataCenter : Option Text)
  deriving DecidableEq, Repr

/-- The method of the call. -/
def perform (engine : Engine) : Call → Method Flag
  | .setNumberOfVf numOfVf => setNumberOfVf engine numOfVf
  | .setAllNetworksAllowed enable => setAllNetworksAllowed engine enable
  | .deleteAllowedLabel labelId => deleteAllowedLabel engine labelId
  | .deleteAllowedNetwork network => deleteAllowedNetwork engine network
  | .addLabelToAllowedLabels label => addLabelToAllowedLabels engine label
  | .addNetworkToAllowedNetworks network dataCenter =>
    addNetworkToAllowedNetworks engine network dataCenter

/-- A call, and what the engine answers meanwhile. -/
structure Event where
  call : Call
  engine : Engine

/-- The object after a call, which may have raised. -/
def step (self : SriovNicPF) (event : Event) : Option SriovNicPF :=
  some (after (perform event.engine event.call) self)

/-! ## What a call has to do -/

/-- What the REST operation of a call returns. -/
inductive Reply where
  | action (body : Option Text)
  | deletion (done : Bool)
  | creation (entity : Option Entity) (success : Bool)
  deriving DecidableEq, Repr

namespace Reply

/-- The operation was accepted. -/
def accepted : Reply → Bool
  | .action body => body.isSome
  | .deletion done => done
  | .creation _ success => success

/-- The value that the method makes of it. -/
def flag : Reply → Flag
  | .action body => .bool (Text.truthy body)
  | .deletion done => .bool done
  | .creation entity success => .pair entity success

end Reply

/-- What `create` returns. -/
def creationReply (engine : Engine) (collection : Collection) (href elementName : Text)
    (entity : Entity) : Reply :=
  .creation (engine.create collection href elementName entity).1
    (engine.create collection href elementName entity).2

/-- What the REST operation of a call returns, if the call gets as far as that. -/
def answer (engine : Engine) (self : SriovNicPF) : Call → Option Reply
  | .setNumberOfVf numOfVf => do
      let nic ← self.nicObj
      some (.action (engine.syncAction nic { numberOfVirtualFunctions := some numOfVf }))
  | .setAllNetworksAllowed enable => do
      let nic ← self.nicObj
      some (.action (engine.syncAction nic { allNetworksAllowed := some enable }))
  | .deleteAllowedLabel labelId => do
      let nic ← self.nicObj
      let labelObj ← (engine.allowedLabels nic).find? fun x => x.id == labelId
      some (.deletion (engine.delete .labels labelObj))
  | .deleteAllowedNetwork network => do
      let nic ← self.nicObj
      let networkObj ←
        (engine.allowedNetworks nic).find? fun x => engine.networkName x.id == network
      some (.deletion (engine.delete .networks networkObj))
  | .addLabelToAllowedLabels label => do
      let vfConfig ← self.vfConfig
      if vfConfig.allNetworksAllowed == some true then none
      else
        some (creationReply engine .labels self.vfLabelHref "network_label".toList
          { id := label })
  | .addNetworkToAllowedNetworks network dataCenter => do
      let vfConfig ← self.vfConfig
      if vfConfig.allNetworksAllowed == some true then none
      else do
        let networkObj ← engine.findNetwork network dataCenter
        some (creationReply engine .networks self.vfNetworkHref "network".toList networkObj)

/-- The answer to the REST operation of the call, if it makes one. -/
def Event.reply (event : Event) (self : SriovNicPF) : Option Reply :=
  answer event.engine self event.call

/-- The call returns a true value. -/
def ReturnsTrue (self : SriovNicPF) (event : Event) : Prop :=
  ∃ flag self', (perform event.engine event.call).run self = .ok flag self' ∧ flag.truthy

/-- The REST operation of the call is made, and it is accepted. -/
def Accepted (self : SriovNicPF) (event : Event) : Prop :=
  ∃ reply, event.reply self = some reply ∧ reply.accepted

/-- The REST operation of the call is made, and it is refused. -/
def Refused (self : SriovNicPF) (event : Event) : Prop :=
  ∃ reply, event.reply self = some reply ∧ reply.accepted = false

/-- The object holds the NIC that is fetched after the operation. -/
def Fetched (event : Event) (self : SriovNicPF) : Prop :=
  ∃ nic, getHostNic event.engine.hostNics self.nicName = some nic
    ∧ self.nicObj = some nic ∧ self.vfConfig = nic.vfConfig

/-- The call returns a true value exactly if its operation is accepted, and then the NIC that
is kept is the one fetched after it.  A refused operation leaves what is kept as it was. -/
structure InStep (pf : SriovNicPF) (event : Event) : Prop where
  returnsTrue_iff : ReturnsTrue pf event ↔ Accepted pf event
  fetched : Accepted pf event → Fetched event (after (perform event.engine event.call) pf)
  unchanged : Refused pf event →
    (after (perform event.engine event.call) pf).nicObj = pf.nicObj
      ∧ (after (perform event.engine event.call) pf).vfConfig = pf.vfConfig

/-- No `create` is refused, no accepted action has an empty response, and after an accepted
operation the host has the NIC. -/
def Harmless (self : SriovNicPF) (event : Event) : Prop :=
  ∀ reply, event.reply self = some reply →
    (∀ entity, reply ≠ .creation entity false) ∧ reply ≠ .action (some [])
      ∧ (reply.accepted → (getHostNic event.engine.hostNics self.nicName).isSome)

/-! ## What a call does -/

variable {engine : Engine} {self : SriovNicPF}

/-- The method goes on with what the engine returned, or it raises before it has changed
anything. -/
def Asks (engine : Engine) (self : SriovNicPF) (m : Method Flag) (reply : Option Reply) : Prop :=
  (∀ r, reply = some r → m.run self = (finish engine r.flag).run self)
    ∧ (reply = none → ∃ e, m.run self = .error e self)

theorem asks_throw (e : SriovException) : Asks engine self (throw e) none :=
  ⟨nofun, fun _ => ⟨e, rfl⟩⟩

variable {flag : Flag}

theorem asks_finish {reply : Reply} (h : flag = reply.flag) :
    Asks engine self (finish engine flag) (some reply) := by
  refine ⟨?_, nofun⟩
  rintro _ ⟨⟩
  rw [h]

theorem asks_get_bind {f : SriovNicPF → Method Flag} {reply : Option Reply}
    (h : Asks engine self (f self) reply) : Asks engine self (get >>= f) reply := h

theorem asks_orRaise_bind {α : Type} {e : SriovException} {value : Option α}
    {f : α → Method Flag} {reply : α → Option Reply}
    (h : ∀ a, Asks engine self (f a) (reply a)) :
    Asks engine self (orRaise e value >>= f) (value.bind reply) := by
  cases value with
  | none => exact ⟨nofun, fun _ => ⟨e, rfl⟩⟩
  | some a => exact h a

theorem asks_setSriovHostNicParams (params : VfConfig) :
    Asks engine self (setSriovHostNicParams engine params)
      (self.nicObj.bind fun nic => some (.action (engine.syncAction nic params))) := by
  apply asks_get_bind
  apply asks_orRaise_bind
  intro nic
  exact asks_finish rfl

/-- The first part of the two methods that add to a collection. -/
theorem asks_unless_allowed {message : Text} {m : Method Flag} {reply : Option Reply}
    (h : Asks engine self m reply) :
    Asks engine self (do
        let allNetworksAllowed ← getAllNetworksAllowed
        if allNetworksAllowed then throw (.sriov message) else m)
      (self.vfConfig.bind fun vfConfig =>
        if vfConfig.allNetworksAllowed == some true then none else reply) := by
  unfold getAllNetworksAllowed
  rw [bind_assoc]
  apply asks_get_bind
  rw [bind_assoc]
  apply asks_orRaise_bind
  intro vfConfig
  rw [pure_bind]
  by_cases hallowed : (vfConfig.allNetworksAllowed == some true) = true
  · rw [if_pos hallowed, if_pos hallowed]
    exact asks_throw _
  · rw [if_neg hallowed, if_neg hallowed]
    exact h

/-- The two methods that look an entity up under the NIC and delete it. -/
theorem asks_delete (e : SriovNicPF → SriovException) (found : HostNic → Option Entity)
    (collection : Collection) :
    Asks engine self (do
        let entity ← (do
          let self ← get
          let nic ← orRaise .attributeError self.nicObj
          orRaise (e self) (found nic))
        finish engine (.bool (engine.delete collection entity)))
      (self.nicObj.bind fun nic => (found nic).bind fun entity =>
        some (.deletion (engine.delete collection entity))) := by
  rw [bind_assoc]
  apply asks_get_bind
  rw [bind_assoc]
  apply asks_orRaise_bind
  intro nic
  apply asks_orRaise_bind
  intro entity
  exact asks_finish rfl

/-- Each method makes one REST operation, or raises before it. -/
theorem asks_perform (engine : Engine) (self : SriovNicPF) (call : Call) :
    Asks engine self (perform engine call) (answer engine self call) := by
  cases call with
  | setNumberOfVf numOfVf => exact asks_setSriovHostNicParams _
  | setAllNetworksAllowed enable => exact asks_setSriovHostNicParams _
  | deleteAllowedLabel labelId => exact asks_delete _ _ .labels
  | deleteAllowedNetwork network => exact asks_delete _ _ .networks
  | addLabelToAllowedLabels label =>
    apply asks_unless_allowed
    apply asks_get_bind
    exact asks_finish rfl
  | addNetworkToAllowedNetworks network dataCenter =>
    apply asks_unless_allowed
    apply asks_orRaise_bind
    intro networkObj
    apply asks_get_bind
    exact asks_finish rfl

/-! ### After the REST operation -/

theorem run_finish_of_false (h : flag.truthy = false) :
    (finish engine flag).run self = .ok flag { self with updateNic := flag } := by
  change (updateNicObj engine).run { self with updateNic := flag } = _
  unfold updateNicObj
  rw [EStateM.run_bind, EStateM.run_get]
  simp only [h]
  rfl

theorem run_finish_of_listed {nic : HostNic} (h : flag.truthy = true)
    (hnic : getHostNic engine.hostNics self.nicName = some nic) :
    (finish engine flag).run self = .ok flag
      { self with updateNic := flag, nicObj := some nic, vfConfig := nic.vfConfig } := by
  change (updateNicObj engine).run { self with updateNic := flag } = _
  unfold updateNicObj
  rw [EStateM.run_bind, EStateM.run_get]
  simp only [h, hnic]
  rfl

theorem run_finish_of_unlisted (h : flag.truthy = true)
    (hnic : getHostNic engine.hostNics self.nicName = none) :
    (finish engine flag).run self = .error .attributeError
      { self with updateNic := flag, nicObj := none } := by
  change (updateNicObj engine).run { self with updateNic := flag } = _
  unfold updateNicObj
  rw [EStateM.run_bind, EStateM.run_get]
  simp only [h, hnic]
  rfl

/-! ## When the object is kept in step -/

variable {event : Event} {reply : Reply}

/-- The value that a method makes of a reply says whether the operation was accepted, but for a
refused `create` and an empty response. -/
theorem truthy_flag_eq_accepted_iff (reply : Reply) :
    reply.flag.truthy = reply.accepted ↔
      (∀ entity, reply ≠ .creation entity false) ∧ reply ≠ .action (some []) := by
  cases reply with
  | action body =>
    cases body with
    | none => exact iff_of_true rfl ⟨nofun, nofun⟩
    | some body =>
      cases body with
      | nil => exact iff_of_false nofun fun h => h.2 rfl
      | cons c rest => exact iff_of_true rfl ⟨nofun, nofun⟩
  | deletion done => exact iff_of_true rfl ⟨nofun, nofun⟩
  | creation entity success =>
    cases success with
    | false => exact iff_of_false nofun fun h => h.1 entity rfl
    | true => exact iff_of_true rfl ⟨nofun, nofun⟩

theorem run_of_reply (h : event.reply self = some reply) :
    (perform event.engine event.call).run self = (finish event.engine reply.flag).run self :=
  (asks_perform event.engine self event.call).1 reply h

theorem accepted_iff (h : event.reply self = some reply) :
    Accepted self event ↔ reply.accepted = true := by
  unfold Accepted
  rw [h]
  simp

theorem refused_iff (h : event.reply self = some reply) :
    Refused self event ↔ reply.accepted = false := by
  unfold Refused
  rw [h]
  simp

theorem harmless_iff (h : event.reply self = some reply) :
    Harmless self event ↔ reply.flag.truthy = reply.accepted
      ∧ (reply.accepted → (getHostNic event.engine.hostNics self.nicName).isSome) := by
  unfold Harmless
  rw [h, truthy_flag_eq_accepted_iff, and_assoc]
  simp

theorem returnsTrue_iff_of_ok {self' : SriovNicPF}
    (h : (perform event.engine event.call).run self = .ok flag self') :
    ReturnsTrue self event ↔ flag.truthy = true := by
  unfold ReturnsTrue
  rw [h]
  simp

theorem not_returnsTrue_of_error {e : SriovException} {self' : SriovNicPF}
    (h : (perform event.engine event.call).run self = .error e self') :
    ¬ ReturnsTrue self event := by
  unfold ReturnsTrue
  rw [h]
  simp

/-- A call that raises before its operation changes nothing. -/
theorem inStep_of_no_reply (h : event.reply self = none) : InStep self event := by
  obtain ⟨e, hrun⟩ := (asks_perform event.engine self event.call).2 h
  have hnone : ∀ {P : Reply → Prop}, ¬ ∃ reply, event.reply self = some reply ∧ P reply := by
    rintro P ⟨reply, hreply, -⟩
    rw [h] at hreply
    exact nomatch hreply
  exact ⟨iff_of_false (not_returnsTrue_of_error hrun) hnone, fun hacc => absurd hacc hnone,
    fun href => absurd href hnone⟩

/-- A reply that is not a true value leaves the object as it was. -/
theorem inStep_iff_of_not_truthy (h : event.reply self = some reply)
    (htruthy : reply.flag.truthy = false) :
    InStep self event ↔ reply.accepted = false := by
  have hrun := (run_of_reply h).trans (run_finish_of_false htruthy)
  constructor
  · intro hstep
    have hiff := hstep.returnsTrue_iff
    rw [returnsTrue_iff_of_ok hrun, accepted_iff h, htruthy] at hiff
    simpa using hiff
  · intro hrefused
    refine ⟨?_, fun hacc => ?_, fun _ => ?_⟩
    · rw [returnsTrue_iff_of_ok hrun, accepted_iff h, htruthy, hrefused]
    · rw [accepted_iff h, hrefused] at hacc
      exact nomatch hacc
    · rw [after_eq_of_ok hrun]
      exact ⟨rfl, rfl⟩

/-- After a true value the NIC is read again, and a true value is returned. -/
theorem inStep_iff_of_listed {nic : HostNic} (h : event.reply self = some reply)
    (htruthy : reply.flag.truthy = true)
    (hnic : getHostNic event.engine.hostNics self.nicName = some nic) :
    InStep self event ↔ reply.accepted = true := by
  have hrun := (run_of_reply h).trans (run_finish_of_listed htruthy hnic)
  constructor
  · intro hstep
    exact (accepted_iff h).mp
      (hstep.returnsTrue_iff.mp ((returnsTrue_iff_of_ok hrun).mpr htruthy))
  · intro haccepted
    refine ⟨?_, fun _ => ?_, fun href => ?_⟩
    · rw [returnsTrue_iff_of_ok hrun, accepted_iff h, htruthy, haccepted]
    · rw [after_eq_of_ok hrun]
      exact ⟨nic, hnic, rfl, rfl⟩
    · rw [refused_iff h, haccepted] at href
      exact nomatch href

/-- Where the host no longer has the NIC, reading it again raises and loses the one that was
kept. -/
theorem not_inStep_of_unlisted (h : event.reply self = some reply)
    (htruthy : reply.flag.truthy = true)
    (hnic : getHostNic event.engine.hostNics self.nicName = none)
    (hkept : self.nicObj.isSome) : ¬ InStep self event := by
  have hrun := (run_of_reply h).trans (run_finish_of_unlisted htruthy hnic)
  intro hstep
  cases haccepted : reply.accepted with
  | true =>
    exact not_returnsTrue_of_error hrun
      (hstep.returnsTrue_iff.mpr ((accepted_iff h).mpr haccepted))
  | false =>
    have hsame := (hstep.unchanged ((refused_iff h).mpr haccepted)).1
    rw [after_eq_of_error hrun] at hsame
    rw [← hsame] at hkept
    exact nomatch hkept

theorem inStep_iff (hkept : self.nicObj.isSome) (event : Event) :
    InStep self event ↔ Harmless self event := by
  cases hreply : event.reply self with
  | none =>
    refine iff_of_true (inStep_of_no_reply hreply) fun reply h => ?_
    rw [hreply] at h
    exact nomatch h
  | some reply =>
    rw [harmless_iff hreply]
    cases htruthy : reply.flag.truthy with
    | false =>
      rw [inStep_iff_of_not_truthy hreply htruthy]
      cases reply.accepted with
      | false => exact iff_of_true rfl ⟨rfl, nofun⟩
      | true => exact iff_of_false nofun fun h => nomatch h.1
    | true =>
      cases hnic : getHostNic event.engine.hostNics self.nicName with
      | none =>
        refine iff_of_false (not_inStep_of_unlisted hreply htruthy hnic hkept) fun h => ?_
        exact nomatch h.2 h.1.symm
      | some nic =>
        rw [inStep_iff_of_listed hreply htruthy hnic]
        exact ⟨fun h => ⟨h.symm, fun _ => rfl⟩, fun h => h.1.symm⟩

/-- An object that is kept in step has a NIC. -/
theorem InStep.isSome_after (h : InStep self event) (hkept : self.nicObj.isSome) :
    (after (perform event.engine event.call) self).nicObj.isSome := by
  cases hreply : event.reply self with
  | none =>
    obtain ⟨e, hrun⟩ := (asks_perform event.engine self event.call).2 hreply
    rwa [after_eq_of_error hrun]
  | some reply =>
    cases haccepted : reply.accepted with
    | false => rwa [(h.unchanged ((refused_iff hreply).mpr haccepted)).1]
    | true =>
      obtain ⟨nic, -, hnic, -⟩ := h.fetched ((accepted_iff hreply).mpr haccepted)
      rw [hnic]
      rfl

theorem isSome_of_new {hostNics : List HostNic} {host nic : Text} {pf : SriovNicPF}
    (h : new hostNics host nic = .ok pf) : pf.nicObj.isSome := by
  unfold new at h
  cases hnic : getHostNic hostNics nic with
  | none =>
    rw [hnic] at h
    exact nomatch h
  | some nicObj =>
    cases hconfig : nicObj.vfConfig with
    | none =>
      simp only [hnic, hconfig] at h
      exact nomatch h
    | some vfConfig =>
      simp only [hnic, hconfig, Except.ok.injEq] at h
      rw [← h]
      rfl

/-- The calls of a run keep the object in step exactly if none of their `create`s is refused,
no action is accepted with an empty response, and the host has the NIC after what is
accepted. -/
theorem pf_kept_in_step_iff {hostNics : List HostNic} {host nic : Text} {pf : SriovNicPF}
    (h : new hostNics host nic = .ok pf) (events : List Event) :
    EveryStep step InStep pf events ↔ EveryStep step Harmless pf events := by
  refine everyStep_congr_of_keep (I := fun pf => pf.nicObj.isSome) ?_ ?_ (isSome_of_new h)
  · intro pf next event hkept hstep hnext
    rw [← Option.some.inj hnext]
    exact hstep.isSome_after hkept
  · intro pf event hkept
    exact inStep_iff hkept event

/-! ### Two engines -/

/-- A physical function on which networks have to be allowed one by one. -/
def eth0 : HostNic where
  name := "eth0".toList
  href := "/hosts/1/nics/2".toList
  vfConfig := some
    { maxNumberOfVirtualFunctions := some 7
      numberOfVirtualFunctions := some 0
      allNetworksAllowed := some false }

/-- The NIC with two virtual functions. -/
def eth0WithTwo : HostNic where
  name := "eth0".toList
  href := "/hosts/1/nics/2".toList
  vfConfig := some
    { maxNumberOfVirtualFunctions := some 7
      numberOfVirtualFunctions := some 2
      allNetworksAllowed := some false }

/-- The object of the NIC. -/
def eth0Pf : SriovNicPF where
  updateNic := .bool false
  host := "host".toList
  nicName := "eth0".toList
  nicObj := some eth0
  vfConfig := eth0.vfConfig
  vfLabelHref := "/hosts/1/nics/2/virtualfunctionallowedlabels".toList
  vfNetworkHref := "/hosts/1/nics/2/virtualfunctionallowednetworks".toList

/-- An engine that does what it is asked. -/
def willing : Engine where
  allowedLabels := fun _ => []
  allowedNetworks := fun _ => []
  networkName := id
  findNetwork := fun network _ => some { id := network }
  syncAction := fun _ _ => some "<action/>".toList
  delete := fun _ _ => true
  create := fun _ _ _ entity => (some entity, true)
  hostNics := [eth0WithTwo]

/-- An engine that refuses to create anything. -/
def refusing : Engine where
  allowedLabels := fun _ => []
  allowedNetworks := fun _ => []
  networkName := id
  findNetwork := fun network _ => some { id := network }
  syncAction := fun _ _ => none
  delete := fun _ _ => false
  create := fun _ _ _ _ => (none, false)
  hostNics := [eth0]

theorem eth0Pf_new : new [eth0] "host".toList "eth0".toList = .ok eth0Pf := by decide

/-- Two calls that are accepted, one that is refused and one that raises. -/
def fourCalls : List Event :=
  [⟨.setNumberOfVf 2, willing⟩, ⟨.addLabelToAllowedLabels "label".toList, willing⟩,
    ⟨.setAllNetworksAllowed true, refusing⟩, ⟨.deleteAllowedLabel "label".toList, willing⟩]

theorem two_virtual_functions_kept_in_step : EveryStep step InStep eth0Pf fourCalls := by
  refine (pf_kept_in_step_iff eth0Pf_new fourCalls).mpr ?_
  rintro _ ⟨⟩
  refine ⟨?_, ?_⟩
  · rintro reply ⟨⟩
    exact ⟨nofun, nofun, fun _ => rfl⟩
  rintro _ ⟨⟩
  refine ⟨?_, ?_⟩
  · rintro reply ⟨⟩
    exact ⟨nofun, nofun, fun _ => rfl⟩
  rintro _ ⟨⟩
  refine ⟨?_, ?_⟩
  · rintro reply ⟨⟩
    exact ⟨nofun, nofun, nofun⟩
  rintro _ ⟨⟩
  exact ⟨nofun, trivial⟩

/-- A label that is refused is reported as added, and the NIC is read again. -/
theorem refused_label_returns_true :
    ReturnsTrue eth0Pf ⟨.addLabelToAllowedLabels "label".toList, refusing⟩
      ∧ Refused eth0Pf ⟨.addLabelToAllowedLabels "label".toList, refusing⟩
      ∧ ¬ EveryStep step InStep eth0Pf
          [⟨.addLabelToAllowedLabels "label".toList, refusing⟩] := by
  have hrefused : Refused eth0Pf ⟨.addLabelToAllowedLabels "label".toList, refusing⟩ :=
    ⟨.creation none false, rfl, rfl⟩
  refine ⟨⟨.pair none false, _, rfl, rfl⟩, hrefused, fun h => ?_⟩
  have hharmless := (inStep_iff rfl _).mp (h _ rfl).1
  exact (hharmless _ rfl).1 none rfl

end SriovNicPF

end OvirtArt.Networking.Sriov
