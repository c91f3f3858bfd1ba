import OvirtArt.TestsLib.VmBuilder

set_option autoImplicit false

/-!
# What `_prepare_vm_object` builds

A function of the arguments and of what the list under `placement_hosts` holds, without objects
that are shared.  The builder makes this VM, and besides its new objects it changes at most that
list.

It says what the builder is for, and a refinement connects the two: what is proved of this
function holds of the builder on every heap.
-/

namespace OvirtArt.TestsLib.VmBuilder

open OvirtArt.CoreApi OvirtArt.Foundation OvirtArt.Foundation.ListObjects

/-! ## The VM as a function -/

/-- What the list under `placement_hosts` holds. -/
def givenHosts (kwargs : VmKwargs) (lists : ListObjects Value) : List Value :=
  match kwargs.placementHosts with
  | none => []
  | some r => lists.items r

/-- The hosts of the policy: those given, and the placement host. -/
def hostsOf (kwargs : VmKwargs) (given : List Value) : List Value :=
  if addsHost kwargs then given ++ [kwargs.pop "placement_host"] else given

/-- The placement policy for these hosts. -/
def policyOf (engine : Engine) (kwargs : VmKwargs) (given : List Value) :
    Except BuilderException Settings :=
  if truthy (kwargs.pop "placement_host") || truthy (kwargs.pop "placement_affinity")
      || !given.isEmpty then do
    let hosts ← policyHosts engine (hostsOf kwargs given)
    .ok [("placement_policy", .elem "VmPlacementPolicy"
      (ifTruthy kwargs "placement_affinity" "affinity" ++ hosts))]
  else .ok []

/-- The payloads, each with the files of all of them. -/
def sharedPayloads (kwargs : VmKwargs) : Option (List (Payload (List File))) :=
  match kwargs.payloads with
  | none => none
  | some [] => none
  | some payloads => some (payloads.map fun payload =>
    { type := payload.type, files := payloads.map PayloadArg.file })

/-- The VM that is built where `placement_hosts` holds these hosts. -/
def builtVm (engine : Engine) (kwargs : VmKwargs) (given : List Value) :
    Except BuilderException (Vm (List File)) := do
  let first ← beforePlacement engine kwargs
  let policy ← policyOf engine kwargs given
  let middle ← beforePayloads engine kwargs
  let last ← afterPayloads engine kwargs
  .ok { attrs := setAll (first ++ policy ++ middle ++ last), payloads := sharedPayloads kwargs }

/-! ## What the builder changes -/

/-- The list under `placement_hosts` is one of the objects there are. -/
def Known (kwargs : VmKwargs) (session : Session) : Prop :=
  ∀ r, kwargs.placementHosts = some r → r < session.lists.next

/-- The placement host is put at the end of the caller's list: hosts were given in a list, and
another one besides. -/
def AppendsHost (kwargs : VmKwargs) (lists : ListObjects Value) : Prop :=
  givenHosts kwargs lists ≠ [] ∧ addsHost kwargs = true

/-- The builder gets as far as the placement policy, and there it appends a host. -/
def GrowsHosts (engine : Engine) (kwargs : VmKwargs) (lists : ListObjects Value) : Prop :=
  AppendsHost kwargs lists ∧ ∃ settings, beforePlacement engine kwargs = .ok settings

/-- Nothing but the lists has changed, besides new files. -/
structure Extended (s t : Session) : Prop where
  files : Kept s.files t.files
  lists : Grown s.lists t.lists
  sent : t.sent = s.sent

theorem Extended.refl (s : Session) : Extended s s :=
  ⟨Kept.refl _, Grown.refl _, rfl⟩

/-- The procedure returns or raises this, in that state. -/
def Runs {α : Type} (m : Builder α) (s : Session) (result : Except BuilderException α)
    (t : Session) : Prop :=
  m.run s = (fromExcept result).run t

section

variable {α β : Type} {m : Builder α} {f : α → Builder β} {s t u : Session}

theorem Runs.bind_ok {a : α} {result : Except BuilderException β} (h : Runs m s (.ok a) t)
    (h' : Runs (f a) t result u) : Runs (m >>= f) s result u := by
  unfold Runs at h ⊢
  rw [EStateM.run_bind, h]
  exact h'

/-- What is returned is computed from the value of the procedure. -/
theorem Runs.bind_pure {a : α} (h : Runs m s (.ok a) t) (g : α → β) :
    Runs (m >>= fun x => pure (g x)) s (.ok (g a)) t := h.bind_ok rfl

theorem Runs.bind_error {e : BuilderException} (h : Runs m s (.error e) t) :
    Runs (m >>= f) s (.error e) t := by
  unfold Runs at h ⊢
  rw [EStateM.run_bind, h]
  rfl

theorem runs_fromExcept (result : Except BuilderException α) (s : Session) :
    Runs (fromExcept result) s result s := rfl

variable {result : Except BuilderException α}

theorem Runs.eq_of_ok {a : α} (h : Runs m s result t) (hrun : m.run s = .ok a u) :
    result = .ok a ∧ t = u := by
  unfold Runs at h
  rw [h] at hrun
  cases result with
  | ok b =>
    cases hrun
    exact ⟨rfl, rfl⟩
  | error e => exact nomatch hrun

theorem Runs.after_eq (h : Runs m s result t) : after m s = t := by
  unfold Runs at h
  unfold after
  rw [h]
  cases result <;> rfl

end

variable {engine : Engine} {kwargs : VmKwargs} {s : Session}

/-! ## The placement policy -/

theorem givenHosts_eq_of_kept {lists lists' : ListObjects Value} (h : Kept lists lists')
    (hknown : ∀ r, kwargs.placementHosts = some r → r < lists.next) :
    givenHosts kwargs lists' = givenHosts kwargs lists := by
  unfold givenHosts
  cases hhosts : kwargs.placementHosts with
  | none => rfl
  | some r => exact h.items r (hknown r hhosts)

/-- The list that the function works on: the caller's if it has elements, and else a new one. -/
theorem runs_placementHosts (kwargs : VmKwargs) (s : Session) :
    (∃ r, kwargs.placementHosts = some r ∧ givenHosts kwargs s.lists = s.lists.items r
      ∧ s.lists.items r ≠ [] ∧ Runs (placementHosts kwargs) s (.ok r) s)
    ∨ (givenHosts kwargs s.lists = [] ∧ Runs (placementHosts kwargs) s (.ok s.lists.next)
      { s with lists := s.lists.alloc }) := by
  unfold placementHosts givenHosts
  cases hhosts : kwargs.placementHosts with
  | none => exact .inr ⟨rfl, rfl⟩
  | some r =>
    cases hitems : s.lists.items r with
    | nil =>
      refine .inr ⟨hitems, ?_⟩
      unfold Runs
      rw [EStateM.run_bind, EStateM.run_get]
      simp only [hitems]
      rfl
    | cons host rest =>
      refine .inl ⟨r, rfl, rfl, by rw [hitems]; exact List.cons_ne_nil _ _, ?_⟩
      unfold Runs
      rw [EStateM.run_bind, EStateM.run_get]
      simp only [hitems]
      rfl

/-- The session after the placement host has been put into the list, if it is. -/
def withHost (kwargs : VmKwargs) (s : Session) (r : Nat) : Session :=
  if addsHost kwargs then { s with lists := s.lists.push r (kwargs.pop "placement_host") } else s

theorem withHost_eq_self (h : addsHost kwargs = false) (s : Session) (r : Nat) :
    withHost kwargs s r = s := by
  unfold withHost
  rw [h]
  rfl

theorem files_withHost (kwargs : VmKwargs) (s : Session) (r : Nat) :
    (withHost kwargs s r).files = s.files := by
  unfold withHost
  cases addsHost kwargs with
  | false => rfl
  | true => rfl

theorem sent_withHost (kwargs : VmKwargs) (s : Session) (r : Nat) :
    (withHost kwargs s r).sent = s.sent := by
  unfold withHost
  cases addsHost kwargs with
  | false => rfl
  | true => rfl

theorem grown_withHost (kwargs : VmKwargs) (s : Session) (r : Nat) :
    Grown s.lists (withHost kwargs s r).lists := by
  unfold withHost
  cases addsHost kwargs with
  | false => exact Grown.refl _
  | true => exact grown_push _ _ _

/-- A new list is none of the objects that there were. -/
theorem kept_withHost_alloc (kwargs : VmKwargs) (s : Session) :
    Kept s.lists (withHost kwargs { s with lists := s.lists.alloc } s.lists.next).lists := by
  unfold withHost
  cases addsHost kwargs with
  | false => exact kept_alloc _
  | true => exact (kept_alloc _).push (Nat.le_refl _)

theorem items_withHost (kwargs : VmKwargs) (s : Session) (r : Nat) :
    (withHost kwargs s r).lists.items r = hostsOf kwargs (s.lists.items r) := by
  unfold withHost hostsOf
  cases addsHost kwargs with
  | false => rfl
  | true => exact items_push_self

theorem runs_appendHost (kwargs : VmKwargs) (s : Session) (r : Nat) :
    Runs (appendHost kwargs r) s (.ok ⟨⟩) (withHost kwargs s r) := by
  unfold appendHost withHost
  cases addsHost kwargs with
  | false => rfl
  | true => rfl

theorem runs_placementPolicyWith (engine : Engine) (kwargs : VmKwargs) (s : Session) (r : Nat) :
    Runs (placementPolicyWith engine kwargs r) s (policyOf engine kwargs (s.lists.items r))
      (withHost kwargs s r) := by
  unfold placementPolicyWith policyOf
  refine Runs.bind_ok (a := s) (t := s) rfl ?_
  cases hwanted : truthy (kwargs.pop "placement_host") || truthy (kwargs.pop "placement_affinity")
      || !(s.lists.items r).isEmpty with
  | false =>
    have hadds : addsHost kwargs = false := by
      unfold addsHost
      rw [Bool.or_eq_false_iff, Bool.or_eq_false_iff] at hwanted
      rw [hwanted.1.1, Bool.false_and]
    rw [withHost_eq_self hadds]
    rfl
  | true =>
    refine Runs.bind_ok (runs_appendHost kwargs s r) ?_
    refine Runs.bind_ok (a := withHost kwargs s r) (t := withHost kwargs s r) rfl ?_
    rw [items_withHost]
    cases policyHosts engine (hostsOf kwargs (s.lists.items r)) with
    | error e => exact Runs.bind_error rfl
    | ok hosts => exact Runs.bind_ok (runs_fromExcept (.ok hosts) _) rfl

/-- The section makes the policy for the hosts that are given, and it changes their list only
where the placement host is put at its end. -/
theorem runs_placementPolicy (engine : Engine) (kwargs : VmKwargs) (s : Session) :
    ∃ t, Runs (placementPolicy engine kwargs) s
        (policyOf engine kwargs (givenHosts kwargs s.lists)) t
      ∧ Extended s t ∧ (¬ AppendsHost kwargs s.lists → Kept s.lists t.lists)
      ∧ (AppendsHost kwargs s.lists → ∃ r, kwargs.placementHosts = some r
        ∧ t.lists.items r = s.lists.items r ++ [kwargs.pop "placement_host"]) := by
  rcases runs_placementHosts kwargs s with ⟨r, hhosts, hgiven, hne, hruns⟩ | ⟨hgiven, hruns⟩
  · refine ⟨withHost kwargs s r, ?_, ?_, ?_, ?_⟩
    · rw [hgiven]
      exact hruns.bind_ok (runs_placementPolicyWith engine kwargs s r)
    · refine ⟨?_, grown_withHost kwargs s r, sent_withHost kwargs s r⟩
      rw [files_withHost]
      exact Kept.refl _
    · intro hkeeps
      have hadds : addsHost kwargs = false := by
        rw [← Bool.not_eq_true]
        exact fun h => hkeeps ⟨by rw [hgiven]; exact hne, h⟩
      rw [withHost_eq_self hadds]
      exact Kept.refl _
    · intro happends
      refine ⟨r, hhosts, ?_⟩
      rw [items_withHost, hostsOf, if_pos happends.2]
  · have hnew := kept_withHost_alloc kwargs s
    refine ⟨withHost kwargs { s with lists := s.lists.alloc } s.lists.next, ?_, ?_, fun _ => hnew,
      fun happends => absurd hgiven happends.1⟩
    · have hpolicy := runs_placementPolicyWith engine kwargs
        { s with lists := s.lists.alloc } s.lists.next
      rw [items_alloc_self] at hpolicy
      rw [hgiven]
      exact hruns.bind_ok hpolicy
    · refine ⟨?_, hnew.grown, sent_withHost _ _ _⟩
      rw [files_withHost]
      exact Kept.refl _

/-! ## The payloads -/

/-- The files of the payloads are among these objects. -/
def Vm.Within (vm : Vm Nat) (files : ListObjects File) : Prop :=
  ∀ payloads, vm.payloads = some payloads → ∀ payload ∈ payloads, payload.files < files.next

/-- Files that are kept are read as before. -/
theorem Vm.Within.resolve_eq {vm : Vm Nat} {files files' : ListObjects File}
    (h : vm.Within files) (hkept : Kept files files') : vm.resolve files' = vm.resolve files := by
  unfold Vm.resolve
  cases hpayloads : vm.payloads with
  | none => rfl
  | some payloads =>
    have hmap : payloads.map (Payload.resolve files') = payloads.map (Payload.resolve files) := by
      refine List.map_congr_left fun payload hpayload => ?_
      unfold Payload.resolve
      rw [hkept.items payload.files (h payloads hpayloads payload hpayload)]
    rw [Option.map_some, Option.map_some, hmap]

/-- The session after these files have been put into the object. -/
def withFiles (s : Session) (r : Nat) (files : List File) : Session :=
  { s with files := files.foldl (fun objects file => objects.push r file) s.files }

theorem next_foldl_push (objects : ListObjects File) (r : Nat) (files : List File) :
    (files.foldl (fun objects file => objects.push r file) objects).next = objects.next := by
  induction files generalizing objects with
  | nil => rfl
  | cons file rest ih => exact ih (objects.push r file)

theorem items_foldl_push (objects : ListObjects File) (r : Nat) (files : List File) :
    (files.foldl (fun objects file => objects.push r file) objects).items r
      = objects.items r ++ files := by
  induction files generalizing objects with
  | nil => exact (List.append_nil _).symm
  | cons file rest ih =>
    rw [List.foldl_cons, ih, items_push_self, List.append_assoc]
    rfl

theorem kept_foldl_push {first second : ListObjects File} (h : Kept first second) {r : Nat}
    (hnew : first.next ≤ r) (files : List File) :
    Kept first (files.foldl (fun objects file => objects.push r file) second) := by
  induction files generalizing second with
  | nil => exact h
  | cons file rest ih => exact ih (h.push hnew)

theorem runs_addPayloads (r : Nat) (payloads : List PayloadArg) (s : Session) :
    Runs (payloads.mapM (addPayload r)) s
      (.ok (payloads.map fun payload => { type := payload.type, files := r }))
      (withFiles s r (payloads.map PayloadArg.file)) := by
  induction payloads generalizing s with
  | nil => rfl
  | cons payload rest ih =>
    have hfirst : Runs (addPayload r payload) s (.ok { type := payload.type, files := r })
        (withFiles s r [payload.file]) := rfl
    rw [List.mapM_cons]
    exact hfirst.bind_ok ((ih _).bind_ok rfl)

/-- Every payload has the files of all of them. -/
theorem runs_preparePayloads (kwargs : VmKwargs) (s : Session) :
    ∃ payloads t, Runs (preparePayloads kwargs) s (.ok payloads) t ∧ Kept s.files t.files
      ∧ t.lists = s.lists ∧ t.sent = s.sent
      ∧ payloads.map (List.map (Payload.resolve t.files)) = sharedPayloads kwargs
      ∧ ∀ found, payloads = some found → ∀ payload ∈ found, payload.files < t.files.next := by
  unfold preparePayloads sharedPayloads
  cases hpayloads : kwargs.payloads with
  | none => exact ⟨none, s, rfl, Kept.refl _, rfl, rfl, rfl, nofun⟩
  | some payloads =>
    cases payloads with
    | nil => exact ⟨none, s, rfl, Kept.refl _, rfl, rfl, rfl, nofun⟩
    | cons payload rest =>
      let r := s.files.next
      let t := withFiles { s with files := s.files.alloc } r
        ((payload :: rest).map PayloadArg.file)
      refine ⟨some ((payload :: rest).map fun payload => { type := payload.type, files := r }),
        t, ?_, ?_, rfl, rfl, ?_, ?_⟩
      · refine Runs.bind_ok (a := r) (t := { s with files := s.files.alloc }) rfl ?_
        exact Runs.bind_ok (runs_addPayloads r (payload :: rest) _) rfl
      · exact kept_foldl_push (kept_alloc s.files) (Nat.le_refl _) _
      · have hitems : t.files.items r = (payload :: rest).map PayloadArg.file := by
          refine (items_foldl_push _ _ _).trans ?_
          rw [items_alloc_self, List.nil_append]
        rw [Option.map_some, List.map_map, Option.some.injEq]
        refine List.map_congr_left fun other _ => ?_
        rw [← hitems]
        rfl
      · rintro found ⟨⟩ other hother
        obtain ⟨arg, -, rfl⟩ := List.mem_map.mp hother
        refine Nat.lt_of_lt_of_eq ?_ (next_foldl_push _ _ _).symm
        exact Nat.lt_succ_self _

/-! ## The whole function -/

/-- The builder builds the VM for the hosts that are given.  It changes the list of them only
where it appends a host, and otherwise leaves everything as it was. -/
theorem runs_prepareVmObject (engine : Engine) (kwargs : VmKwargs) (s : Session) :
    ∃ result t, Runs (prepareVmObject engine kwargs) s result t
      ∧ result.map (fun vm => vm.resolve t.files)
        = builtVm engine kwargs (givenHosts kwargs s.lists)
      ∧ (∀ vm, result = .ok vm → vm.Within t.files)
      ∧ Extended s t ∧ (¬ GrowsHosts engine kwargs s.lists → Kept s.lists t.lists) := by
  unfold prepareVmObject builtVm
  cases hfirst : beforePlacement engine kwargs with
  | error e =>
    refine ⟨.error e, s, Runs.bind_error rfl, rfl, nofun, Extended.refl s,
      fun _ => Kept.refl _⟩
  | ok first =>
    obtain ⟨t, hruns, hextended, hpolicyKept, -⟩ := runs_placementPolicy engine kwargs s
    have hkept : ¬ GrowsHosts engine kwargs s.lists → Kept s.lists t.lists :=
      fun hkeeps => hpolicyKept fun happends => hkeeps ⟨happends, first, hfirst⟩
    cases hpolicy : policyOf engine kwargs (givenHosts kwargs s.lists) with
    | error e =>
      rw [hpolicy] at hruns
      exact ⟨.error e, t, Runs.bind_ok (runs_fromExcept (.ok first) s) hruns.bind_error, rfl,
        nofun, hextended, hkept⟩
    | ok policy =>
      rw [hpolicy] at hruns
      cases hmiddle : beforePayloads engine kwargs with
      | error e =>
        refine ⟨.error e, t, ?_, rfl, nofun, hextended, hkept⟩
        refine Runs.bind_ok (runs_fromExcept (.ok first) s) (hruns.bind_ok ?_)
        exact Runs.bind_error rfl
      | ok middle =>
        obtain ⟨payloads, u, hpayloads, hfiles, hlists, hsent, hresolve, hwithin⟩ :=
          runs_preparePayloads kwargs t
        have hextended' : Extended s u := by
          refine ⟨hextended.files.trans hfiles, ?_, hsent.trans hextended.sent⟩
          rw [hlists]
          exact hextended.lists
        have hkept' : ¬ GrowsHosts engine kwargs s.lists → Kept s.lists u.lists := by
          rw [hlists]
          exact hkept
        cases hlast : afterPayloads engine kwargs with
        | error e =>
          refine ⟨.error e, u, ?_, rfl, nofun, hextended', hkept'⟩
          refine Runs.bind_ok (runs_fromExcept (.ok first) s) (hruns.bind_ok ?_)
          refine Runs.bind_ok (runs_fromExcept (.ok middle) t) (hpayloads.bind_ok ?_)
          exact Runs.bind_error rfl
        | ok last =>
          refine ⟨.ok { attrs := setAll (first ++ policy ++ middle ++ last)
                        payloads := payloads }, u, ?_, ?_, ?_, hextended', hkept'⟩
          · refine Runs.bind_ok (runs_fromExcept (.ok first) s) (hruns.bind_ok ?_)
            refine Runs.bind_ok (runs_fromExcept (.ok middle) t) (hpayloads.bind_ok ?_)
            exact Runs.bind_ok (runs_fromExcept (.ok last) u) rfl
          · rw [← hresolve]
            rfl
          · rintro vm ⟨⟩
            exact hwithin

/-! ## Lists that grow -/

/-- Whatever comes of the procedure, the lists have what they had. -/
def Grows {α : Type} (m : Builder α) : Prop := ∀ s, Grown s.lists (after m s).lists

section

variable {α β : Type} {m : Builder α} {f : α → Builder β}

theorem grown_after_bind (hf : ∀ a, Grows (f a)) (s : Session) :
    Grown (after m s).lists (after (m >>= f) s).lists := by
  rw [after_bind]
  unfold after
  cases m.run s with
  | ok a t => exact hf a t
  | error e t => exact Grown.refl _

theorem Grows.bind (hm : Grows m) (hf : ∀ a, Grows (f a)) : Grows (m >>= f) :=
  fun s => (hm s).trans (grown_after_bind hf s)

theorem grows_fromExcept (result : Except BuilderException α) :
    Grows (fromExcept result : Builder α) := by
  intro s
  rw [(runs_fromExcept result s).after_eq]
  exact Grown.refl _

end

theorem grows_preparePayloads (kwargs : VmKwargs) : Grows (preparePayloads kwargs) := by
  intro s
  obtain ⟨payloads, t, hruns, -, hlists, -⟩ := runs_preparePayloads kwargs s
  rw [hruns.after_eq, hlists]
  exact Grown.refl _

theorem grows_prepareVmObject (engine : Engine) (kwargs : VmKwargs) :
    Grows (prepareVmObject engine kwargs) := by
  intro s
  obtain ⟨result, t, hruns, -, -, hextended, -⟩ := runs_prepareVmObject engine kwargs s
  rw [hruns.after_eq]
  exact hextended.lists

/-- Where the builder appends a host, the caller's list has it at its end. -/
theorem exists_host_appended (hknown : Known kwargs s) (h : GrowsHosts engine kwargs s.lists) :
    ∃ r, r < s.lists.next ∧ s.lists.items r ++ [kwargs.pop "placement_host"]
      <+: (after (prepareVmObject engine kwargs) s).lists.items r := by
  obtain ⟨happends, first, hfirst⟩ := h
  obtain ⟨t, hruns, hextended, -, hlist⟩ := runs_placementPolicy engine kwargs s
  obtain ⟨r, hhosts, hitems⟩ := hlist happends
  have hr : r < t.lists.next := (hknown r hhosts).trans_le hextended.lists.next
  refine ⟨r, hknown r hhosts, ?_⟩
  rw [← hitems, ← hruns.after_eq]
  unfold prepareVmObject
  rw [hfirst]
  refine (grown_after_bind (fun policy => ?_) s).items r (by rwa [hruns.after_eq])
  refine (grows_fromExcept _).bind fun middle => (grows_preparePayloads kwargs).bind fun _ => ?_
  exact (grows_fromExcept _).bind fun last => fun _ => Grown.refl _

end OvirtArt.TestsLib.VmBuilder
