import OvirtArt.TestsLib.VmPayloads

set_option autoImplicit false

/-!
# `addVm` of `low_level/vms.py`

The VM is built twice from the same arguments: one is sent to the engine, the other is what the
reply is compared with.  Between the two the caller's list of placement hosts may have grown.

The engine takes what it is sent and may answer anything.  The wait for the status, and the reply
beyond the VM in it, are left out.
-/

namespace OvirtArt.TestsLib.VmBuilder

open OvirtArt.CoreApi OvirtArt.Foundation OvirtArt.Foundation.ListObjects

/-- What the engine does with requests. -/
structure VmApi where
  /-- `VM_API.create`: the new VM and the status. -/
  create : CreateRequest → Value × Bool
  /-- `VM_API.waitForElemStatus` of a VM, a status and a timeout. -/
  waitForElemStatus : Value → String → Value → Bool

/-- `disk_clone` is given, and it is `true` in small or capital letters. -/
def clones (kwargs : VmKwargs) : Except BuilderException Bool := do
  let diskClone := kwargs.pop "disk_clone"
  if truthy diskClone then do
    let text ← textOf diskClone
    .ok (text.lower == "true".toList)
  else .ok false

/-- `operations`. -/
def operations (kwargs : VmKwargs) (clone : Bool) : List String :=
  (if clone then ["clone=true"] else [])
    ++ (if truthy (kwargs.pop "copy_permissions") then ["clone_permissions"] else [])

/-- `Template(id=BLANK_TEMPLATE)`. -/
def blankTemplate : Value :=
  .elem "Template" [("id", str "00000000-0000-0000-0000-000000000000")]

section

variable (api : VmApi) (engine : Engine)

/-- `VM_API.create` of these VMs, as they are then. -/
def create (positive : Bool) (operations : List String) (vmObj expectedVm : Vm Nat) :
    Builder (Value × Bool) := do
  let session ← get
  let request : CreateRequest :=
    { vm := vmObj.resolve session.files
      expectedEntity := expectedVm.resolve session.files
      positive := positive
      operations := operations }
  set { session with sent := session.sent ++ [request] }
  pure (api.create request)

/-- The VM that is sent, and the one that the reply is compared with. -/
def buildTwo (kwargs : VmKwargs) : Builder (Vm Nat × Vm Nat) := do
  let vmObj ← prepareVmObject engine kwargs
  let expectedVm ← prepareVmObject engine kwargs
  pure (vmObj, expectedVm)

/-- What `addVm` does with the two VMs. -/
def addBuilt (positive wait : Bool) (kwargs : VmKwargs) (vmObj expectedVm : Vm Nat) :
    Builder Bool := do
  let clone ← fromExcept (clones kwargs)
  if !positive || !wait then do
    let reply ← create api positive (operations kwargs clone) vmObj expectedVm
    pure reply.2
  else if clone then do
    let reply ← create api positive (operations kwargs clone) vmObj
      (expectedVm.setTemplate blankTemplate)
    pure (reply.2 && api.waitForElemStatus reply.1 "DOWN" (.prim (.int 720)))
  else do
    let waitTimeout := kwargs.popOr "timeout" (.prim (.int 600))
    let reply ← create api positive (operations kwargs clone) vmObj expectedVm
    pure (reply.2 && api.waitForElemStatus reply.1 "DOWN" waitTimeout)

/-- `addVm`. -/
def addVm (positive wait : Bool) (kwargs : VmKwargs) : Builder Bool := do
  let kwargs := kwargs.update "add" (.prim (.bool true))
  let built ← buildTwo engine kwargs
  addBuilt api positive wait kwargs built.1 built.2

end

/-! ## Comparing like with like -/

/-- The arguments as `_prepare_vm_object` gets them. -/
def added (kwargs : VmKwargs) : VmKwargs := kwargs.update "add" (.prim (.bool true))

/-- The requests that a procedure sends. -/
def requestsOf {α : Type} (m : Builder α) (s : Session) : List CreateRequest :=
  (after m s).sent.drop s.sent.length

/-- The two VMs are equal, and so are those of a request but for the template of a cloned disk;
the lists that there were are as they were; and the same call sends the same again. -/
structure ComparesAlike (api : VmApi) (engine : Engine) (positive wait : Bool)
    (kwargs : VmKwargs) (s : Session) : Prop where
  built : ∀ vmObj expectedVm t,
    (buildTwo engine (added kwargs)).run s = .ok (vmObj, expectedVm) t →
      expectedVm.resolve t.files = vmObj.resolve t.files
  requests : ∀ request ∈ requestsOf (addVm api engine positive wait kwargs) s,
    request.expectedEntity = request.vm
      ∨ clones (added kwargs) = .ok true
        ∧ request.expectedEntity = request.vm.setTemplate blankTemplate
  unchanged : ∀ r, r < s.lists.next →
    (after (addVm api engine positive wait kwargs) s).lists.items r = s.lists.items r
  again : requestsOf (addVm api engine positive wait kwargs)
      (after (addVm api engine positive wait kwargs) s)
    = requestsOf (addVm api engine positive wait kwargs) s

variable {api : VmApi} {engine : Engine} {positive wait : Bool} {kwargs : VmKwargs} {s : Session}

/-! ### Where no host is appended -/

/-- The request for a VM. -/
def requestFor (positive wait : Bool) (kwargs : VmKwargs) (vm : Vm (List File)) (clone : Bool) :
    CreateRequest where
  vm := vm
  expectedEntity := if positive && wait && clone then vm.setTemplate blankTemplate else vm
  positive := positive
  operations := operations kwargs clone

/-- The requests for a VM: none if `disk_clone` cannot be read. -/
def requestsFor (positive wait : Bool) (kwargs : VmKwargs) (vm : Vm (List File)) :
    List CreateRequest :=
  match clones kwargs with
  | .error _ => []
  | .ok clone => [requestFor positive wait kwargs vm clone]

/-- The requests for the VM that is built: none if it cannot be built. -/
def sentBy (engine : Engine) (positive wait : Bool) (kwargs : VmKwargs) (given : List Value) :
    List CreateRequest :=
  match builtVm engine kwargs given with
  | .error _ => []
  | .ok vm => requestsFor positive wait kwargs vm

theorem known_of_kept {t : Session} (hknown : Known kwargs s) (hkept : Kept s.lists t.lists) :
    Known kwargs t := fun r hr => (hknown r hr).trans_le hkept.next

theorem growsHosts_iff_of_kept {t : Session} (hknown : Known kwargs s)
    (hkept : Kept s.lists t.lists) :
    GrowsHosts engine kwargs t.lists ↔ GrowsHosts engine kwargs s.lists := by
  unfold GrowsHosts AppendsHost
  rw [givenHosts_eq_of_kept hkept hknown]

/-- Both VMs are the one that is built for the hosts that are given. -/
theorem runs_buildTwo (hknown : Known kwargs s) (hkeeps : ¬ GrowsHosts engine kwargs s.lists) :
    ∃ result t, Runs (buildTwo engine kwargs) s result t
      ∧ result.map (fun built => (built.1.resolve t.files, built.2.resolve t.files))
        = (builtVm engine kwargs (givenHosts kwargs s.lists)).map (fun vm => (vm, vm))
      ∧ Kept s.lists t.lists ∧ t.sent = s.sent := by
  unfold buildTwo
  obtain ⟨first, t, hfirst, hbuilt, hwithin, hextended, hlists⟩ :=
    runs_prepareVmObject engine kwargs s
  have hkept := hlists hkeeps
  cases first with
  | error e =>
    rw [← hbuilt]
    exact ⟨.error e, t, hfirst.bind_error, rfl, hkept, hextended.sent⟩
  | ok vmObj =>
    obtain ⟨second, u, hsecond, hbuilt', -, hextended', hlists'⟩ :=
      runs_prepareVmObject engine kwargs t
    have hkept' := hlists' (mt (growsHosts_iff_of_kept hknown hkept).mp hkeeps)
    rw [givenHosts_eq_of_kept hkept hknown, ← hbuilt] at hbuilt'
    cases second with
    | error e => exact nomatch hbuilt'
    | ok expectedVm =>
      refine ⟨.ok (vmObj, expectedVm), u, hfirst.bind_ok (hsecond.bind_ok rfl), ?_,
        hkept.trans hkept', hextended'.sent.trans hextended.sent⟩
      have hsame : expectedVm.resolve u.files = vmObj.resolve t.files := Except.ok.inj hbuilt'
      have hvm : vmObj.resolve u.files = vmObj.resolve t.files :=
        (hwithin vmObj rfl).resolve_eq hextended'.files
      rw [← hbuilt]
      change Except.ok (vmObj.resolve u.files, expectedVm.resolve u.files)
        = Except.ok (vmObj.resolve t.files, vmObj.resolve t.files)
      rw [hsame, hvm]

theorem runs_create (api : VmApi) (positive : Bool) (operations : List String) (s : Session)
    {vmObj expectedVm : Vm Nat} {vm expected : Vm (List File)}
    (hvm : vmObj.resolve s.files = vm) (hexpected : expectedVm.resolve s.files = expected) :
    Runs (create api positive operations vmObj expectedVm) s
      (.ok (api.create ⟨vm, expected, positive, operations⟩))
      { s with sent := s.sent ++ [⟨vm, expected, positive, operations⟩] } := by
  rw [← hvm, ← hexpected]
  rfl

/-- Two equal VMs are sent in one request. -/
theorem runs_addBuilt (api : VmApi) (positive wait : Bool) (kwargs : VmKwargs) (s : Session)
    {vmObj expectedVm : Vm Nat} {vm : Vm (List File)} (hvm : vmObj.resolve s.files = vm)
    (hexpected : expectedVm.resolve s.files = vm) :
    ∃ result t, Runs (addBuilt api positive wait kwargs vmObj expectedVm) s result t
      ∧ t.lists = s.lists ∧ t.sent = s.sent ++ requestsFor positive wait kwargs vm := by
  have htemplate : (expectedVm.setTemplate blankTemplate).resolve s.files
      = vm.setTemplate blankTemplate := by
    rw [← hexpected]
    rfl
  unfold addBuilt requestsFor
  cases hclones : clones kwargs with
  | error e => exact ⟨.error e, s, Runs.bind_error rfl, rfl, (List.append_nil _).symm⟩
  | ok clone =>
    have hcreate := runs_create api positive (operations kwargs clone) s hvm hexpected
    have hoverride := runs_create api positive (operations kwargs clone) s hvm htemplate
    cases positive with
    | false =>
      exact ⟨_, _, Runs.bind_ok (runs_fromExcept (.ok clone) s) (hcreate.bind_pure _),
        rfl, rfl⟩
    | true =>
      cases wait with
      | false =>
        exact ⟨_, _, Runs.bind_ok (runs_fromExcept (.ok clone) s) (hcreate.bind_pure _),
          rfl, rfl⟩
      | true =>
        cases clone with
        | false =>
          exact ⟨_, _, Runs.bind_ok (runs_fromExcept (.ok false) s)
            (hcreate.bind_pure _), rfl, rfl⟩
        | true =>
          exact ⟨_, _, Runs.bind_ok (runs_fromExcept (.ok true) s)
            (hoverride.bind_pure _), rfl, rfl⟩

/-- The call sends the requests for the VM that is built. -/
theorem runs_addVm (api : VmApi) (positive wait : Bool) (hknown : Known kwargs s)
    (hkeeps : ¬ GrowsHosts engine (added kwargs) s.lists) :
    ∃ result t, Runs (addVm api engine positive wait kwargs) s result t ∧ Kept s.lists t.lists
      ∧ t.sent = s.sent
        ++ sentBy engine positive wait (added kwargs) (givenHosts (added kwargs) s.lists) := by
  unfold addVm sentBy
  have hadded : Known (added kwargs) s := hknown
  obtain ⟨result, t, hbuild, hbuilt, hkept, hsent⟩ := runs_buildTwo hadded hkeeps
  cases hvm : builtVm engine (added kwargs) (givenHosts (added kwargs) s.lists) with
  | error e =>
    rw [hvm] at hbuilt
    cases result with
    | ok built => exact nomatch hbuilt
    | error e' =>
      exact ⟨.error e', t, hbuild.bind_error, hkept, hsent.trans (List.append_nil _).symm⟩
  | ok vm =>
    rw [hvm] at hbuilt
    cases result with
    | error e => exact nomatch hbuilt
    | ok built =>
      have hboth := Except.ok.inj hbuilt
      obtain ⟨result', u, hadd, hlists, hsent'⟩ := runs_addBuilt api positive wait
        (added kwargs) t (congrArg Prod.fst hboth) (congrArg Prod.snd hboth)
      refine ⟨result', u, hbuild.bind_ok hadd, by rwa [hlists], ?_⟩
      rw [hsent', hsent]

theorem requestsOf_addVm (api : VmApi) (positive wait : Bool) (hknown : Known kwargs s)
    (hkeeps : ¬ GrowsHosts engine (added kwargs) s.lists) :
    requestsOf (addVm api engine positive wait kwargs) s
      = sentBy engine positive wait (added kwargs) (givenHosts (added kwargs) s.lists) := by
  obtain ⟨result, t, hruns, -, hsent⟩ := runs_addVm api positive wait hknown hkeeps
  unfold requestsOf
  rw [hruns.after_eq, hsent, List.drop_left]

/-- In a request for two equal VMs one has the template of a cloned disk, or none has. -/
theorem expectedEntity_of_mem_sentBy {given : List Value} {request : CreateRequest}
    (h : request ∈ sentBy engine positive wait kwargs given) :
    request.expectedEntity = request.vm ∨ clones kwargs = .ok true
      ∧ request.expectedEntity = request.vm.setTemplate blankTemplate := by
  unfold sentBy requestsFor at h
  cases hvm : builtVm engine kwargs given with
  | error e =>
    rw [hvm] at h
    exact absurd h List.not_mem_nil
  | ok vm =>
    cases hclones : clones kwargs with
    | error e =>
      simp only [hvm, hclones] at h
      exact absurd h List.not_mem_nil
    | ok clone =>
      simp only [hvm, hclones, List.mem_singleton] at h
      subst h
      unfold requestFor
      cases hoverride : positive && wait && clone with
      | false => exact .inl rfl
      | true =>
        rw [Bool.and_eq_true] at hoverride
        rw [hoverride.2]
        exact .inr ⟨rfl, rfl⟩

theorem comparesAlike_of_keeps (hknown : Known kwargs s)
    (hkeeps : ¬ GrowsHosts engine (added kwargs) s.lists) :
    ComparesAlike api engine positive wait kwargs s := by
  obtain ⟨result, t, hruns, hkept, -⟩ := runs_addVm api positive wait hknown hkeeps
  refine ⟨fun vmObj expectedVm u hrun => ?_, fun request hrequest => ?_, ?_, ?_⟩
  · have hadded : Known (added kwargs) s := hknown
    obtain ⟨result', t', hbuild, hbuilt, -⟩ := runs_buildTwo hadded hkeeps
    obtain ⟨rfl, rfl⟩ := hbuild.eq_of_ok hrun
    cases hvm : builtVm engine (added kwargs) (givenHosts (added kwargs) s.lists) with
    | error e =>
      rw [hvm] at hbuilt
      exact nomatch hbuilt
    | ok vm =>
      rw [hvm] at hbuilt
      have hboth := Except.ok.inj hbuilt
      exact (congrArg Prod.snd hboth).trans (congrArg Prod.fst hboth).symm
  · rw [requestsOf_addVm api positive wait hknown hkeeps] at hrequest
    exact expectedEntity_of_mem_sentBy hrequest
  · rw [hruns.after_eq]
    exact hkept.items
  · have hknown' : Known (added kwargs) s := hknown
    have hkeeps' : ¬ GrowsHosts engine (added kwargs) t.lists :=
      mt (growsHosts_iff_of_kept hknown' hkept).mp hkeeps
    rw [hruns.after_eq, requestsOf_addVm api positive wait hknown hkeeps,
      requestsOf_addVm api positive wait (known_of_kept hknown hkept) hkeeps',
      givenHosts_eq_of_kept hkept hknown']

/-! ### Where a host is appended -/

theorem grows_create (api : VmApi) (positive : Bool) (operations : List String)
    (vmObj expectedVm : Vm Nat) : Grows (create api positive operations vmObj expectedVm) :=
  fun _ => Grown.refl _

theorem grows_addBuilt (api : VmApi) (positive wait : Bool) (kwargs : VmKwargs)
    (vmObj expectedVm : Vm Nat) : Grows (addBuilt api positive wait kwargs vmObj expectedVm) := by
  unfold addBuilt
  refine (grows_fromExcept _).bind fun clone => ?_
  split
  · exact (grows_create api _ _ _ _).bind fun _ _ => Grown.refl _
  · split
    · exact (grows_create api _ _ _ _).bind fun _ _ => Grown.refl _
    · exact (grows_create api _ _ _ _).bind fun _ _ => Grown.refl _

theorem grown_buildTwo (engine : Engine) (kwargs : VmKwargs) (s : Session) :
    Grown (after (prepareVmObject engine kwargs) s).lists
      (after (buildTwo engine kwargs) s).lists := by
  unfold buildTwo
  apply grown_after_bind
  intro vmObj
  exact (grows_prepareVmObject engine kwargs).bind fun _ _ => Grown.refl _

theorem grown_addVm (api : VmApi) (engine : Engine) (positive wait : Bool) (kwargs : VmKwargs)
    (s : Session) :
    Grown (after (buildTwo engine (added kwargs)) s).lists
      (after (addVm api engine positive wait kwargs) s).lists := by
  unfold addVm added
  apply grown_after_bind
  intro built
  apply grows_addBuilt

/-- The caller's list has the host at its end afterwards. -/
theorem not_comparesAlike_of_grows (hknown : Known kwargs s)
    (hgrows : GrowsHosts engine (added kwargs) s.lists) :
    ¬ ComparesAlike api engine positive wait kwargs s := by
  intro h
  have hadded : Known (added kwargs) s := hknown
  obtain ⟨r, hr, hlist⟩ := exists_host_appended hadded hgrows
  have hfirst : Grown s.lists (after (prepareVmObject engine (added kwargs)) s).lists :=
    grows_prepareVmObject engine (added kwargs) s
  have hlater := (grown_buildTwo engine (added kwargs) s).trans
    (grown_addVm api engine positive wait kwargs s)
  have hrest := hlater.items r (hr.trans_le hfirst.next)
  have hlength := (hlist.trans hrest).length_le
  rw [h.unchanged r hr, List.length_append, List.length_singleton] at hlength
  omega

/-- The call compares like with like exactly if it does not append the placement host to a list
of hosts of the caller. -/
theorem add_vm_compares_alike_iff (api : VmApi) (engine : Engine) (positive wait : Bool)
    (hknown : Known kwargs s) :
    ComparesAlike api engine positive wait kwargs s
      ↔ ¬ GrowsHosts engine (added kwargs) s.lists :=
  ⟨fun h hgrows => not_comparesAlike_of_grows hknown hgrows h, comparesAlike_of_keeps hknown⟩

/-! ### Two calls -/

/-- An engine with a cluster and the hosts that are asked for. -/
def smallEngine : Engine :=
  { emptyEngine with
    findCluster := fun name _ => .ok (.elem "Cluster" [("name", name)])
    findHost := fun name => .ok (.elem "Host" [("id", name)]) }

/-- An engine that creates what it is asked for. -/
def creating : VmApi where
  create := fun _ => (.elem "Vm" [], true)
  waitForElemStatus := fun _ _ _ => true

/-- `placement_host="host_2"` and these `placement_hosts`. -/
def onHost (placementHosts : Option Nat) : VmKwargs where
  options := fun key => if key = "placement_host" then some (str "host_2") else none
  placementHosts := placementHosts

/-- A session with the list `["host_1"]`. -/
def withList : Session :=
  { newSession with lists := { next := 1, items := fun _ => [str "host_1"] } }

/-- Any host is one of the caller's list already. -/
theorem any_host_compares_alike :
    ComparesAlike creating smallEngine true true
      ((onHost (some 0)).update "placement_host" (str "any_host_in_cluster")) withList := by
  refine (add_vm_compares_alike_iff creating smallEngine true true ?_).mpr fun h => ?_
  · rintro r ⟨⟩
    exact Nat.one_pos
  · exact absurd h.1.2 (by decide)

/-- The caller's list has the placement host twice afterwards. -/
theorem placement_host_appended_twice :
    (after (addVm creating smallEngine true true (onHost (some 0))) withList).lists.items 0
        = [str "host_1", str "host_2", str "host_2"]
      ∧ ¬ ComparesAlike creating smallEngine true true (onHost (some 0)) withList := by
  refine ⟨rfl, not_comparesAlike_of_grows ?_ ⟨⟨List.cons_ne_nil _ _, by decide⟩, _, rfl⟩⟩
  rintro r ⟨⟩
  exact Nat.one_pos

end OvirtArt.TestsLib.VmBuilder
