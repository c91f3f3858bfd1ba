import OvirtArt.CoreApi.Http

set_option autoImplicit false

/-!
# `prepare_vnic_profile_mappings_object` of `tests_lib/low_level/networks.py`

The mappings of an import.  The dictionaries of the list are objects that the loop changes, so
the list is one of references; the container is made anew in each round.

What the engine answers to the lookups is a parameter, and that a lookup raises is part of it.
The container of the last round is what the caller gets.
-/

namespace OvirtArt.Networking

open OvirtArt.CoreApi

/-! ## Objects of the data structure module -/

/-- A `Network` that is given by its name. -/
structure NamedNetwork where
  name : Option Text
  deriving DecidableEq

/-- A vNIC profile of a network. -/
structure VnicProfile where
  id : Option Text := none
  name : Option Text := none
  network : Option NamedNetwork := none
  deriving DecidableEq

/-- One mapping of a registration. -/
structure RegistrationVnicProfileMapping where
  from_ : Option VnicProfile := none
  to_ : Option VnicProfile := none
  deriving DecidableEq

/-- What the engine knows of networks and their profiles. -/
structure ProfileEngine where
  /-- `find_network(network, data_center, cluster)`. -/
  findNetwork : Option Text → Option Text → Option Text → Except PyException Text
  /-- `NET_API.getElemFromLink(network_object, link_name='vnicprofiles', ...)`. -/
  vnicProfiles : Text → Except PyException (List VnicProfile)

/-! ## Dictionaries of the list -/

/-- What a mapping holds under `to`: the name of a profile, or a profile. -/
inductive Target where
  | name (text : Text)
  | profile (object : VnicProfile)
  deriving DecidableEq

/-- Whether Python takes the target as true: an object always is. -/
def Target.truthy : Target → Bool
  | .name text => !text.isEmpty
  | .profile _ => true

/-- The dictionary under `from`. -/
structure Source where
  name : Option Text
  network : Option Text
  deriving DecidableEq

/-- A mapping.  A key that is missing, or an empty dictionary under `from`, counts as `none`. -/
structure NetworkMapping where
  from_ : Option Source := none
  to_ : Option Target := none
  targetNetwork : Option Text := none
  cluster : Option Text := none
  datacenter : Option Text := none
  deriving DecidableEq

/-- The dictionaries, by their references. -/
abbrev MappingDicts := Nat → NetworkMapping

/-- The mappings of a `RegistrationVnicProfileMappings`. -/
abbrev RegistrationVnicProfileMappings := List RegistrationVnicProfileMapping

/-! ## The source -/

section

variable (engine : ProfileEngine)

/-- The profiles of a network. -/
def getNetworkVnicProfiles (network cluster dataCenter : Option Text) :
    Except PyException (List VnicProfile) := do
  let networkObject ← engine.findNetwork network dataCenter cluster
  engine.vnicProfiles networkObject

/-- `profile.get_name() == name`. -/
def VnicProfile.hasName (profile : VnicProfile) : Target → Bool
  | .name text => profile.name == some text
  | .profile _ => false

/-- The first profile of the network that has the name. -/
def getVnicProfileObj (name : Target) (network cluster dataCenter : Option Text) :
    Except PyException VnicProfile := do
  let profiles ← getNetworkVnicProfiles engine network cluster dataCenter
  match profiles.filter fun profile => profile.hasName name with
  | [] => .error (.entityNotFound [])
  | matching :: _ => .ok matching

/-- `if target_vnic_profile: ... network_mapping["to"] = vnic_profile_object`. -/
def replaceTarget (mapping : NetworkMapping) : Except PyException NetworkMapping :=
  match mapping.to_ with
  | none => .ok mapping
  | some target =>
    if target.truthy then do
      let vnicProfileObject ← getVnicProfileObj engine target mapping.targetNetwork
        mapping.cluster mapping.datacenter
      .ok { mapping with to_ := some (.profile vnicProfileObject) }
    else .ok mapping

/-- `vnic_profile_ds(name=vnic_name, network=network_object)`. -/
def Source.vnicProfile (source : Source) : VnicProfile where
  name := source.name
  network := some { name := source.network }

/-- `register_vnic_profile_mapping`. -/
def registerVnicProfileMapping (mapping : NetworkMapping) :
    Except PyException RegistrationVnicProfileMapping :=
  let registered := { from_ := mapping.from_.map Source.vnicProfile }
  match mapping.to_ with
  | none => .ok registered
  | some (.profile profile) => .ok { registered with to_ := some { id := profile.id } }
  | some (.name text) =>
    if text.isEmpty then .ok registered else .error (.attributeError "id".toList)

/-- The loop over the mappings. -/
def prepareMappings (register : Option RegistrationVnicProfileMappings) :
    List Nat → MappingDicts →
      Except PyException (Option RegistrationVnicProfileMappings) × MappingDicts
  | [], dicts => (.ok register, dicts)
  | reference :: rest, dicts =>
    match replaceTarget engine (dicts reference) with
    | .error e => (.error e, dicts)
    | .ok mapping =>
      let dicts := Function.update dicts reference mapping
      let mappings : RegistrationVnicProfileMappings := []
      match registerVnicProfileMapping mapping with
      | .error e => (.error e, dicts)
      | .ok registered => prepareMappings (some (mappings ++ [registered])) rest dicts

/-- The object that is returned, and the dictionaries afterwards. -/
def prepareVnicProfileMappingsObject (networkMappings : List Nat) (dicts : MappingDicts) :
    Except PyException (Option RegistrationVnicProfileMappings) × MappingDicts :=
  prepareMappings engine none networkMappings dicts

end

/-! ## Targets -/

/-- The mapping has a target. -/
def NetworkMapping.hasTarget (mapping : NetworkMapping) : Bool :=
  mapping.to_.any Target.truthy

section

variable {engine : ProfileEngine} {mapping mapping' mapping'' : NetworkMapping}

/-- A profile in place of a name is not found. -/
theorem getVnicProfileObj_profile (profile found : VnicProfile)
    (network cluster dataCenter : Option Text) :
    getVnicProfileObj engine (.profile profile) network cluster dataCenter ≠ .ok found := by
  have hnone : ∀ profiles : List VnicProfile,
      (profiles.filter fun other => other.hasName (.profile profile)) = [] := fun profiles =>
    List.filter_eq_nil_iff.mpr fun _ _ => Bool.false_ne_true
  unfold getVnicProfileObj
  cases getNetworkVnicProfiles engine network cluster dataCenter with
  | error e => exact fun h => by cases h
  | ok profiles =>
    simp only [bind, Except.bind, hnone]
    exact fun h => by cases h

/-- A mapping without a target is as it was; else the profile takes the place of its name. -/
theorem replaceTarget_ok (h : replaceTarget engine mapping = .ok mapping') :
    (mapping.hasTarget = false ∧ mapping' = mapping) ∨
      ∃ target profile, mapping.to_ = some target ∧ target.truthy = true ∧
        getVnicProfileObj engine target mapping.targetNetwork mapping.cluster
          mapping.datacenter = .ok profile ∧
        mapping' = { mapping with to_ := some (.profile profile) } := by
  unfold replaceTarget at h
  unfold NetworkMapping.hasTarget
  cases hto : mapping.to_ with
  | none =>
    rw [hto] at h
    exact Or.inl ⟨rfl, (Except.ok.inj h).symm⟩
  | some target =>
    simp only [hto] at h
    cases htruthy : target.truthy with
    | false =>
      rw [htruthy] at h
      exact Or.inl ⟨htruthy, (Except.ok.inj h).symm⟩
    | true =>
      rw [htruthy, if_pos rfl] at h
      cases hfound : getVnicProfileObj engine target mapping.targetNetwork mapping.cluster
          mapping.datacenter with
      | error e => simp [hfound, bind, Except.bind] at h
      | ok profile =>
        simp only [hfound, bind, Except.bind, Except.ok.injEq] at h
        exact Or.inr ⟨target, profile, rfl, htruthy, hfound, h.symm⟩

theorem replaceTarget_of_not_hasTarget (h : mapping.hasTarget = false) :
    replaceTarget engine mapping = .ok mapping := by
  unfold NetworkMapping.hasTarget at h
  unfold replaceTarget
  cases hto : mapping.to_ with
  | none => rfl
  | some target =>
    rw [hto] at h
    exact if_neg (Bool.eq_false_iff.mp h)

/-- Where a profile is put, no second round succeeds. -/
theorem replaceTarget_again (hfirst : replaceTarget engine mapping = .ok mapping')
    (hsecond : replaceTarget engine mapping' = .ok mapping'') :
    mapping.hasTarget = false ∧ mapping'' = mapping' := by
  rcases replaceTarget_ok hfirst with ⟨hnone, rfl⟩ | ⟨target, profile, _, _, _, rfl⟩
  · rcases replaceTarget_ok hsecond with ⟨_, rfl⟩ | ⟨target, profile, hto, htruthy, _, rfl⟩
    · exact ⟨hnone, rfl⟩
    · unfold NetworkMapping.hasTarget at hnone
      rw [hto] at hnone
      exact absurd (htruthy.symm.trans hnone) (by decide)
  · rcases replaceTarget_ok hsecond with ⟨hnone, _⟩ | ⟨_, found, hto, _, hfound, _⟩
    · cases hnone
    · obtain rfl := Option.some.inj hto
      exact absurd hfound (getVnicProfileObj_profile _ _ _ _ _)

/-- The mapping is as it was exactly if it has no target. -/
theorem replaceTarget_self_iff :
    replaceTarget engine mapping = .ok mapping ↔ mapping.hasTarget = false :=
  ⟨fun h => (replaceTarget_again h h).1, replaceTarget_of_not_hasTarget⟩

end

/-! ## The loop -/

section

variable {engine : ProfileEngine} {register : Option RegistrationVnicProfileMappings}
  {references : List Nat} {dicts dicts' : MappingDicts}
  {result : Option RegistrationVnicProfileMappings}

/-- A loop that ends has one round, and the loop over the rest. -/
theorem prepareMappings_cons {reference : Nat}
    (h : prepareMappings engine register (reference :: references) dicts =
      (.ok result, dicts')) :
    ∃ mapping registered, replaceTarget engine (dicts reference) = .ok mapping ∧
      registerVnicProfileMapping mapping = .ok registered ∧
      prepareMappings engine (some [registered]) references
        (Function.update dicts reference mapping) = (.ok result, dicts') := by
  unfold prepareMappings at h
  cases hmapping : replaceTarget engine (dicts reference) with
  | error e => simp [hmapping] at h
  | ok mapping =>
    simp only [hmapping] at h
    cases hregistered : registerVnicProfileMapping mapping with
    | error e => simp [hregistered] at h
    | ok registered =>
      simp only [hregistered, List.nil_append] at h
      exact ⟨mapping, registered, rfl, hregistered, h⟩

/-- The dictionaries of the list have their targets replaced, the others are as they were. -/
theorem dicts_of_ok (h : prepareMappings engine register references dicts =
      (.ok result, dicts')) :
    (∀ reference ∈ references, replaceTarget engine (dicts reference) = .ok (dicts' reference)) ∧
      ∀ reference ∉ references, dicts' reference = dicts reference := by
  induction references generalizing register dicts with
  | nil =>
    obtain ⟨_, rfl⟩ := Prod.mk.inj h
    exact ⟨fun _ hmem => absurd hmem List.not_mem_nil, fun _ _ => rfl⟩
  | cons reference references ih =>
    obtain ⟨mapping, _, hmapping, _, hrest⟩ := prepareMappings_cons h
    obtain ⟨hreplaced, hothers⟩ := ih hrest
    have hself : replaceTarget engine (dicts reference) = .ok (dicts' reference) := by
      by_cases hmem : reference ∈ references
      · have hagain := hreplaced reference hmem
        rw [Function.update_self] at hagain
        rw [(replaceTarget_again hmapping hagain).2]
        exact hmapping
      · rw [hothers reference hmem, Function.update_self]
        exact hmapping
    refine ⟨fun other hmem => ?_, fun other hout => ?_⟩
    · by_cases heq : other = reference
      · rw [heq]
        exact hself
      · have hother := hreplaced other (List.mem_of_ne_of_mem heq hmem)
        rwa [Function.update_of_ne heq] at hother
    · rw [List.mem_cons, not_or] at hout
      rw [hothers other hout.2, Function.update_of_ne hout.1]

/-- The container has the mapping of the last round only. -/
theorem container_of_ok {last : Nat}
    (h : prepareMappings engine register (references ++ [last]) dicts = (.ok result, dicts')) :
    ∃ registered, registerVnicProfileMapping (dicts' last) = .ok registered ∧
      result = some [registered] := by
  induction references generalizing register dicts with
  | nil =>
    obtain ⟨mapping, registered, _, hregistered, hend⟩ := prepareMappings_cons h
    obtain ⟨hresult, rfl⟩ := Prod.mk.inj hend
    refine ⟨registered, ?_, (Except.ok.inj hresult).symm⟩
    rw [Function.update_self]
    exact hregistered
  | cons reference references ih =>
    obtain ⟨_, _, _, _, hrest⟩ := prepareMappings_cons h
    exact ih hrest

/-- A call leaves the dictionaries of the list as they were exactly if none has a target. -/
theorem unchanged_iff (h : prepareMappings engine register references dicts =
      (.ok result, dicts')) :
    (∀ reference ∈ references, dicts' reference = dicts reference) ↔
      ∀ reference ∈ references, (dicts reference).hasTarget = false := by
  obtain ⟨hreplaced, _⟩ := dicts_of_ok h
  refine forall₂_congr fun reference hmem => ?_
  have hself := hreplaced reference hmem
  rw [← @replaceTarget_self_iff engine, hself, Except.ok.injEq]

/-- After a call that replaces a target, another call with the list raises. -/
theorem second_call_raises (h : prepareMappings engine register references dicts =
      (.ok result, dicts')) {reference : Nat} (hmem : reference ∈ references)
    (htarget : (dicts reference).hasTarget = true)
    (other : Option RegistrationVnicProfileMappings) :
    (prepareMappings engine register references dicts').1 ≠ .ok other := by
  intro hagain
  have hboth : prepareMappings engine register references dicts' =
      (.ok other, (prepareMappings engine register references dicts').2) := by
    rw [← hagain]
  have hsecond := (dicts_of_ok hboth).1 reference hmem
  have hfirst := (dicts_of_ok h).1 reference hmem
  exact absurd (htarget.symm.trans (replaceTarget_again hfirst hsecond).1) (by decide)

end

/-! ## What is asked for -/

/-- The mapping has the names of the source, and the id of the profile that is the target. -/
structure Maps (engine : ProfileEngine) (mapping : NetworkMapping)
    (registered : RegistrationVnicProfileMapping) : Prop where
  source : registered.from_ = mapping.from_.map Source.vnicProfile
  noTarget : mapping.hasTarget = false → registered.to_ = none
  target : ∀ target, mapping.to_ = some target → target.truthy = true →
    ∃ profile, getVnicProfileObj engine target mapping.targetNetwork mapping.cluster
        mapping.datacenter = .ok profile ∧
      registered.to_ = some { id := profile.id }

/-- The container has a mapping for each of the list in its order, the dictionaries of the list
are as they were, and another call gives the same. -/
structure AllMapped (engine : ProfileEngine) (networkMappings : List Nat)
    (dicts : MappingDicts) : Prop where
  container : ∃ registered,
    (prepareVnicProfileMappingsObject engine networkMappings dicts).1 = .ok (some registered) ∧
      List.Forall₂ (fun reference => Maps engine (dicts reference)) networkMappings registered
  unchanged : ∀ reference ∈ networkMappings,
    (prepareVnicProfileMappingsObject engine networkMappings dicts).2 reference =
      dicts reference
  again : (prepareVnicProfileMappingsObject engine networkMappings
      (prepareVnicProfileMappingsObject engine networkMappings dicts).2).1 =
    (prepareVnicProfileMappingsObject engine networkMappings dicts).1

/-- What is registered of a mapping without a target. -/
theorem registered_of_not_hasTarget {mapping : NetworkMapping}
    (h : mapping.hasTarget = false) :
    registerVnicProfileMapping mapping =
      .ok { from_ := mapping.from_.map Source.vnicProfile } := by
  unfold NetworkMapping.hasTarget at h
  unfold registerVnicProfileMapping
  cases hto : mapping.to_ with
  | none => rfl
  | some target =>
    rw [hto] at h
    cases target with
    | name text => exact if_pos (by simpa [Target.truthy] using h)
    | profile object => cases h

/-- A single mapping without a target. -/
theorem prepare_single {engine : ProfileEngine} {reference : Nat} {dicts : MappingDicts}
    (h : (dicts reference).hasTarget = false) :
    prepareVnicProfileMappingsObject engine [reference] dicts =
      (.ok (some [{ from_ := (dicts reference).from_.map Source.vnicProfile }]), dicts) := by
  unfold prepareVnicProfileMappingsObject prepareMappings
  simp only [replaceTarget_of_not_hasTarget h, registered_of_not_hasTarget h, List.nil_append,
    Function.update_eq_self]
  rfl

/-- All mappings of a list are in the container, with the list as it was and the same for
another call, exactly if the list is of one mapping, and this has no target. -/
theorem mappings_prepared_iff (engine : ProfileEngine) (networkMappings : List Nat)
    (dicts : MappingDicts) :
    AllMapped engine networkMappings dicts ↔
      ∃ reference, networkMappings = [reference] ∧ (dicts reference).hasTarget = false := by
  constructor
  · rintro ⟨⟨registered, hok, hmaps⟩, hunchanged, _⟩
    have hboth : prepareMappings engine none networkMappings dicts =
        (.ok (some registered),
          (prepareVnicProfileMappingsObject engine networkMappings dicts).2) := by
      rw [← hok]
      rfl
    have hnone := (unchanged_iff hboth).mp hunchanged
    rcases List.eq_nil_or_concat' networkMappings with rfl | ⟨before, last, rfl⟩
    · cases Except.ok.inj (Prod.mk.inj hboth).1
    · obtain ⟨one, _, hone⟩ := container_of_ok hboth
      obtain rfl := Option.some.inj hone
      have hlength := hmaps.length_eq
      simp only [List.length_append, List.length_cons, List.length_nil, Nat.zero_add,
        Nat.add_eq_right, List.length_eq_zero_iff] at hlength
      subst hlength
      exact ⟨last, rfl, hnone last List.mem_cons_self⟩
  · rintro ⟨reference, rfl, htarget⟩
    have hprepare := @prepare_single engine reference dicts htarget
    refine ⟨⟨_, congrArg Prod.fst hprepare, .cons ?_ .nil⟩, fun _ _ => ?_, ?_⟩
    · refine ⟨rfl, fun _ => rfl, fun target hto htruthy => ?_⟩
      unfold NetworkMapping.hasTarget at htarget
      rw [hto] at htarget
      exact absurd (htruthy.symm.trans htarget) (by decide)
    · rw [hprepare]
    · rw [hprepare, hprepare]

/-! ## Two mappings -/

/-- An engine with one network, which has one profile. -/
def oneProfileEngine : ProfileEngine where
  findNetwork := fun _ _ _ => .ok "net".toList
  vnicProfiles := fun _ => .ok [{ id := some "7".toList, name := some "target".toList }]

/-- Two mappings to that profile. -/
def twoMappings : MappingDicts := fun reference =>
  { from_ := some
      { name := some (if reference = 0 then "red".toList else "blue".toList)
        network := some "source".toList }
    to_ := some (.name "target".toList) }

/-- The second call with the list finds profiles in place of names. -/
theorem second_call_raises_two : ∃ dicts',
    (prepareMappings oneProfileEngine none [0, 1] dicts').1 ≠ .ok none := by
  have hfirst : prepareMappings oneProfileEngine none [0, 1] twoMappings = (.ok _, _) := rfl
  exact ⟨_, second_call_raises hfirst List.mem_cons_self rfl none⟩

/-- The mapping of the first is lost. -/
theorem first_mapping_lost :
    (prepareVnicProfileMappingsObject oneProfileEngine [0, 1] twoMappings).1 =
        .ok (some [
          { from_ := some
              { name := some "blue".toList
                network := some { name := some "source".toList } }
            to_ := some { id := some "7".toList } }]) ∧
      ¬ AllMapped oneProfileEngine [0, 1] twoMappings := by
  have hok : (prepareVnicProfileMappingsObject oneProfileEngine [0, 1] twoMappings).1 =
      .ok (some [
        { from_ := some
            { name := some "blue".toList
              network := some { name := some "source".toList } }
          to_ := some { id := some "7".toList } }]) := by decide
  refine ⟨hok, fun ⟨⟨registered, hregistered, hmaps⟩, _, _⟩ => ?_⟩
  obtain rfl := Option.some.inj (Except.ok.inj (hok.symm.trans hregistered))
  exact absurd hmaps.length_eq (by decide)

end OvirtArt.Networking
