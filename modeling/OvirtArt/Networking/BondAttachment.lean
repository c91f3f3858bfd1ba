import OvirtArt.Foundation.Toggling
import OvirtArt.Networking.HostNetwork

set_option autoImplicit false

/-!
# What `prepare_bond_attachment_obj` makes of a bond

An update toggles slaves: those that are there are taken out, other NICs are put in.  A mode and
a miimon are set in the options.  A value of 0 is not set, and names and ids of slaves are keys
of one dictionary; the results say exactly where this is no difference.

The request is built as the source builds it, by toggling and by setting options.  The engine is a
parameter that is asked for the bond, its slaves and the NICs of the host; what it then does with
the request is left out.
-/

namespace OvirtArt.Networking

open OvirtArt.CoreApi OvirtArt.Foundation

variable (engine : Engine)

/-! ## Slaves as they are meant to be -/

/-- How the slaves of an entry are looked up, and put in. -/
def slaveNames : Toggling.Names (Option Text) Slave Text where
  idOf := fun name => (getHostNic engine (some name)).map HostNic.id
  keyOf := some
  fresh := fun name => { id := none, name := name.strip }

local instance lawfulBEqOptionText : LawfulBEq (Option Text) := inferInstance

/-- The entry names a NIC that is not among these slaves. -/
def PutsIn (current : List Slave) (name : Text) : Prop :=
  ∀ id, (slaveNames engine).idOf name = some id → id ∉ current.map Slave.id

instance (current : List Slave) (name : Text) : Decidable (PutsIn engine current name) :=
  match h : (slaveNames engine).idOf name with
  | none => .isTrue (by simp [PutsIn, h])
  | some id =>
    if hin : id ∈ current.map Slave.id then .isFalse fun hadds => hadds id h hin
    else .isTrue (by
      intro id' hid'
      obtain rfl := Option.some.inj (h.symm.trans hid')
      exact hin)

/-- The ids of the NICs that are named. -/
def requestedIds (requested : List Text) : List (Option Text) :=
  requested.filterMap (slaveNames engine).idOf

/-- The slaves that are not requested, and the requested ones that are not there. -/
def symmetricDifference (current : List Slave) (requested : List Text) : List Slave :=
  current.filter (fun slave => slave.id ∉ requestedIds engine requested) ++
    (requested.filter (fun name => PutsIn engine current name)).map (slaveNames engine).fresh

/-- The slaves are toggled, and none is there twice. -/
structure Toggled (current : List Slave) (requested : List Text) (slaves : List Slave) :
    Prop where
  perm : slaves.Perm (symmetricDifference engine current requested)
  nodup : slaves.Nodup

/-- The names of the entry do not meet: those that are put in differ, none is that of the id of
a later one, or of a slave that is still there. -/
structure SlavesApart (current : List Slave) (requested : List Text) : Prop where
  names : ((requested.filter fun name => PutsIn engine current name).map Text.strip).Nodup
  apart : ∀ before name after, requested = before ++ name :: after →
    PutsIn engine current name →
      (∀ earlier ∈ before, PutsIn engine current earlier →
        (slaveNames engine).idOf name ≠ some (some earlier)) ∧
      (some name ∈ current.map Slave.id → some name ∈ requestedIds engine before)

/-- Slaves of a bond: each has an id, and no two have one. -/
structure WithIds (current : List Slave) : Prop where
  set : ∀ slave ∈ current, slave.id.isSome = true
  nodup : (current.map Slave.id).Nodup

/-! ## The dictionary of the slaves -/

/-- `dict((i.id, i) for i in host_slave_nics)`. -/
def slaveDict (current : List Slave) : SlaveDict :=
  current.foldl (fun dict slave => dict.insert slave.id slave) ∅

variable {engine} {current : List Slave} {requested : List Text}
  {before after : Option (List BondOption)} {value : Option Int} {hostNic : HostNic} {name : Text}
  {entry : Entry} {bonding : Bonding}

theorem lookup_slaveDict (h : (current.map Slave.id).Nodup) (id : Option Text) (slave : Slave) :
    (slaveDict current).lookup id = some slave ↔ slave ∈ current ∧ slave.id = id := by
  induction current using List.reverseRec generalizing id slave with
  | nil => simp [slaveDict]
  | append_singleton before last ih =>
    rw [List.map_append, List.nodup_append] at h
    have hnot : ∀ other ∈ before, other.id ≠ last.id := fun other hother =>
      h.2.2 _ (List.mem_map_of_mem hother) _ (List.mem_singleton_self _)
    have hsnoc : slaveDict (before ++ [last]) = (slaveDict before).insert last.id last := by
      simp [slaveDict]
    rw [hsnoc, List.mem_append, List.mem_singleton]
    by_cases hid : id = last.id
    · rw [hid, AList.lookup_insert]
      constructor
      · intro hsame
        obtain rfl := Option.some.inj hsame
        exact ⟨Or.inr rfl, rfl⟩
      · rintro ⟨hbefore | rfl, hlast⟩
        · exact absurd hlast (hnot slave hbefore)
        · rfl
    · rw [AList.lookup_insert_ne hid, ih h.1]
      constructor
      · rintro ⟨hbefore, hsame⟩
        exact ⟨Or.inl hbefore, hsame⟩
      · rintro ⟨hbefore | rfl, hsame⟩
        · exact ⟨hbefore, hsame⟩
        · exact absurd hsame.symm hid

theorem mem_slaveDict (h : (current.map Slave.id).Nodup) {id : Option Text} :
    id ∈ slaveDict current ↔ id ∈ current.map Slave.id := by
  rw [← AList.lookup_isSome, Option.isSome_iff_exists]
  simp only [lookup_slaveDict h, List.mem_map]

/-- Toggling is what the loop over the slaves does. -/
theorem toggleSlaves_eq (current : List Slave) (requested : List Text) :
    toggleSlaves engine current requested =
      (Toggling.toggleAll (slaveNames engine) (slaveDict current) requested).entries.map
        Sigma.snd := by
  have hstep : toggleSlave engine = Toggling.toggle (slaveNames engine) := by
    funext slaves slave
    unfold toggleSlave Toggling.toggle slaveNames
    dsimp only
    cases getHostNic engine (some slave) with
    | none => rfl
    | some hostNic => rfl
  unfold toggleSlaves Toggling.toggleAll
  rw [hstep]
  rfl

theorem mem_toggleSlaves {slave : Slave} :
    slave ∈ toggleSlaves engine current requested ↔
      ∃ key, (Toggling.toggleAll (slaveNames engine) (slaveDict current) requested).lookup key =
        some slave := by
  rw [toggleSlaves_eq, List.mem_map]
  constructor
  · rintro ⟨⟨key, found⟩, hentry, rfl⟩
    exact ⟨key, AList.mem_lookup_iff.mpr hentry⟩
  · rintro ⟨key, hlookup⟩
    exact ⟨⟨key, slave⟩, AList.mem_lookup_iff.mp hlookup, rfl⟩

/-! ## Names and ids of an entry -/

/-- A NIC is found under its name. -/
theorem getHostNic_name {nic : Option Text} (h : getHostNic engine nic = some hostNic) :
    hostNic ∈ engine.hostNics ∧ hostNic.name = nic := by
  unfold getHostNic at h
  split at h
  · cases h
  · rename_i found rest hfilter
    obtain rfl := Option.some.inj h
    have hmem : found ∈ engine.hostNics.filter fun x => x.name.isSome && nic == x.name := by
      rw [hfilter]
      exact List.mem_cons_self
    have hname := (List.mem_filter.mp hmem).2
    rw [Bool.and_eq_true, beq_iff_eq] at hname
    exact ⟨(List.mem_filter.mp hmem).1, hname.2.symm⟩

theorem distinct_slaveNames (hids : (engine.hostNics.map HostNic.id).Nodup)
    (hnodup : requested.Nodup) :
    Toggling.Distinct (slaveNames engine) requested where
  nodup := hnodup
  ids := by
    intro name _ name' _ id hid hid'
    obtain ⟨nic, hnic, rfl⟩ := Option.map_eq_some_iff.mp hid
    obtain ⟨nic', hnic', hsame⟩ := Option.map_eq_some_iff.mp hid'
    obtain ⟨hmem, hname⟩ := getHostNic_name hnic
    obtain ⟨hmem', hname'⟩ := getHostNic_name hnic'
    obtain rfl := List.inj_on_of_nodup_map hids hmem' hmem hsame
    exact Option.some.inj (hname.symm.trans hname')
  keys := fun _ _ _ _ hsame => Option.some.inj hsame

theorem not_isCurrent_iff (h : (current.map Slave.id).Nodup) (name : Text) :
    ¬ Toggling.IsCurrent (slaveNames engine) (slaveDict current) name ↔
      PutsIn engine current name := by
  unfold Toggling.IsCurrent PutsIn
  simp only [mem_slaveDict h, not_exists, not_and]

/-- No request meets another key, said of the lists. -/
theorem apart_iff (h : (current.map Slave.id).Nodup) (requested : List Text) :
    Toggling.Apart (slaveNames engine) (slaveDict current) requested ↔
      ∀ before name after, requested = before ++ name :: after →
        PutsIn engine current name →
          (∀ earlier ∈ before, PutsIn engine current earlier →
            (slaveNames engine).idOf name ≠ some (some earlier)) ∧
          (some name ∈ current.map Slave.id → some name ∈ requestedIds engine before) := by
  have hkey : ∀ name, (slaveNames engine).keyOf name = some name := fun _ => rfl
  unfold Toggling.Apart Toggling.ApartAt requestedIds
  simp only [not_isCurrent_iff h, List.mem_filterMap, mem_slaveDict h, hkey]

theorem strip_inj
    (hnames : ((requested.filter fun name => PutsIn engine current name).map Text.strip).Nodup)
    {name' : Text} (hname : name ∈ requested) (hname' : name' ∈ requested)
    (hadds : PutsIn engine current name) (hadds' : PutsIn engine current name')
    (hsame : name.strip = name'.strip) : name = name' := by
  refine List.inj_on_of_nodup_map hnames ?_ ?_ hsame
  · exact List.mem_filter.mpr ⟨hname, decide_eq_true hadds⟩
  · exact List.mem_filter.mpr ⟨hname', decide_eq_true hadds'⟩

theorem entries_slaveDict (hids : WithIds current)
    (hnames : ((requested.filter fun name => PutsIn engine current name).map Text.strip).Nodup) :
    Toggling.Entries (slaveNames engine) (slaveDict current) requested where
  keys := by
    intro key key' slave hkey hkey'
    rw [lookup_slaveDict hids.nodup] at hkey hkey'
    exact hkey.2.symm.trans hkey'.2
  fresh := by
    intro name _ key hkey
    rw [lookup_slaveDict hids.nodup] at hkey
    have hset := hids.set _ hkey.1
    cases hset
  requests := by
    intro name hname name' hname' hnot hnot' hsame
    rw [not_isCurrent_iff hids.nodup] at hnot hnot'
    exact strip_inj hnames hname hname' hnot hnot' (congrArg Slave.name hsame)

/-- What is meant to be in the dictionary is the symmetric difference. -/
theorem mem_symmetricDifference (h : (current.map Slave.id).Nodup) {slave : Slave} :
    slave ∈ symmetricDifference engine current requested ↔
      ∃ key, Toggling.Intended (slaveNames engine) (slaveDict current) requested key slave := by
  unfold symmetricDifference Toggling.Intended requestedIds
  rw [List.mem_append, List.mem_map]
  simp only [decide_eq_true_iff, List.mem_filterMap, not_exists, not_and, lookup_slaveDict h,
    not_isCurrent_iff h, List.mem_filter]
  constructor
  · rintro (⟨hmem, hnone⟩ | ⟨name, ⟨hname, hadds⟩, rfl⟩)
    · exact ⟨slave.id, Or.inl ⟨⟨hmem, rfl⟩, hnone⟩⟩
    · exact ⟨some name, Or.inr ⟨name, hname, hadds, rfl, rfl⟩⟩
  · rintro ⟨key, ⟨⟨hmem, rfl⟩, hnone⟩ | ⟨name, hname, hadds, -, rfl⟩⟩
    · exact Or.inl ⟨hmem, hnone⟩
    · exact Or.inr ⟨name, ⟨hname, hadds⟩, rfl⟩

theorem nodup_symmetricDifference (hids : WithIds current)
    (hnames : ((requested.filter fun name => PutsIn engine current name).map Text.strip).Nodup) :
    (symmetricDifference engine current requested).Nodup := by
  refine List.nodup_append.mpr ⟨hids.nodup.of_map.filter _, ?_, ?_⟩
  · refine List.Nodup.of_map Slave.name ?_
    rw [List.map_map]
    exact hnames
  · rintro slave hslave _ hfresh rfl
    obtain ⟨name, -, rfl⟩ := List.mem_map.mp hfresh
    have hset := hids.set _ (List.mem_filter.mp hslave).1
    cases hset

/-- Names that are put in are distinct where the slaves are. -/
theorem names_of_nodup (h : (symmetricDifference engine current requested).Nodup) :
    ((requested.filter fun name => PutsIn engine current name).map Text.strip).Nodup := by
  have hfresh := (List.nodup_append.mp h).2.1
  have hnames := hfresh.map_on (f := Slave.name) (by
    intro slave hslave slave' hslave' hsame
    obtain ⟨name, -, rfl⟩ := List.mem_map.mp hslave
    obtain ⟨name', -, rfl⟩ := List.mem_map.mp hslave'
    exact congrArg (Slave.mk none) hsame)
  rw [List.map_map] at hnames
  exact hnames

/-- The slaves are toggled exactly if the names of the entry do not meet. -/
theorem toggled_iff_apart (hids : (engine.hostNics.map HostNic.id).Nodup)
    (hcurrent : WithIds current) (hnodup : requested.Nodup) :
    Toggled engine current requested (toggleSlaves engine current requested) ↔
      SlavesApart engine current requested := by
  have hdistinct := distinct_slaveNames hids hnodup
  constructor
  · rintro ⟨hperm, hslaves⟩
    have hnames := names_of_nodup (hperm.nodup_iff.mp hslaves)
    refine ⟨hnames, (apart_iff hcurrent.nodup requested).mp ?_⟩
    refine (Toggling.kept_iff_apart hdistinct (entries_slaveDict hcurrent hnames)).mp ?_
    intro key slave hintended
    rw [← mem_toggleSlaves, hperm.mem_iff, mem_symmetricDifference hcurrent.nodup]
    exact ⟨key, hintended⟩
  · rintro ⟨hnames, hapart⟩
    have hentries := entries_slaveDict hcurrent hnames
    have hlookup := Toggling.lookup_iff_intended hdistinct
      ((apart_iff hcurrent.nodup requested).mpr hapart)
    have hslaves : (toggleSlaves engine current requested).Nodup := by
      rw [toggleSlaves_eq]
      refine List.Nodup.map_on ?_ (AList.nodupKeys _).nodup
      rintro ⟨key, slave⟩ hentry ⟨key', slave'⟩ hentry' rfl
      rw [← AList.mem_lookup_iff, Option.mem_def, hlookup] at hentry hentry'
      dsimp only at hentry hentry'
      refine Sigma.ext ?_ HEq.rfl
      rcases hentry with ⟨hkey, -⟩ | ⟨name, hname, hadds, hkey, hfresh⟩
      · rcases hentry' with ⟨hkey', -⟩ | ⟨name', hname', -, -, hfresh'⟩
        · exact hentries.keys _ _ _ hkey hkey'
        · exact absurd (hfresh' ▸ hkey) (hentries.fresh name' hname' _)
      · rcases hentry' with ⟨hkey', -⟩ | ⟨name', hname', hadds', hkey', hfresh'⟩
        · exact absurd (hfresh ▸ hkey') (hentries.fresh name hname _)
        · obtain rfl := hentries.requests name hname name' hname' hadds hadds'
            (hfresh.symm.trans hfresh')
          exact hkey.trans hkey'.symm
    refine ⟨?_, hslaves⟩
    refine (List.perm_ext_iff_of_nodup hslaves
      (nodup_symmetricDifference hcurrent hnames)).mpr fun slave => ?_
    rw [mem_toggleSlaves, mem_symmetricDifference hcurrent.nodup]
    simp only [hlookup]

/-! ## Options as they are meant to be -/

/-- The value of an option shows this number. -/
def Shows (value : Prim) (number : Int) : Prop :=
  value = .int number ∨ value = .str (toString number).toList

instance (value : Prim) (number : Int) : Decidable (Shows value number) :=
  inferInstanceAs (Decidable (_ ∨ _))

/-- The options of this name. -/
def named (name : Text) (options : Option (List BondOption)) : List BondOption :=
  (options.getD []).filter fun option => option.name = name

/-- The option of this name, the first one, shows the number that is given. -/
def OptionIs (name : Text) (value : Option Int) (options : Option (List BondOption)) : Prop :=
  ∀ number, value = some number →
    ∃ option, (named name options).head? = some option ∧ Shows option.value number

/-- A mode and a miimon that are given are set, and all other options are as before. -/
structure OptionsUpdated (entry : Entry) (before after : Option (List BondOption)) : Prop where
  mode : OptionIs mode entry.mode after
  miimon : OptionIs miimon entry.miimon after
  names : (after.getD []).map BondOption.name = (before.getD []).map BondOption.name
  others : ∀ name, (name = Networking.mode → entry.mode = none) →
    (name = Networking.miimon → entry.miimon = none) → named name after = named name before

/-- There is an option of this name to set, and it is 0 already if 0 is to be set. -/
def Settable (name : Text) (value : Option Int) (options : Option (List BondOption)) : Prop :=
  ∀ number, value = some number →
    ∃ option, (named name options).head? = some option ∧
      (number = 0 → Shows option.value number)

/-! ## Setting an option -/

theorem setOption_of_named {name : Text} {value : Prim} {options : List BondOption}
    (h : ∃ option ∈ options, option.name = name) :
    ∃ after, setOption name value options = .ok after ∧
      after.map BondOption.name = options.map BondOption.name ∧
      (named name (some after)).head? = some ⟨name, value⟩ ∧
      ∀ other, other ≠ name → named other (some after) = named other (some options) := by
  induction options with
  | nil => simp at h
  | cons option rest ih =>
    by_cases hname : option.name = name
    · refine ⟨⟨option.name, value⟩ :: rest, by simp [setOption, hname], rfl, ?_, ?_⟩
      · simp [named, hname]
      · intro other hother
        have hnot : ¬ option.name = other := fun hsame => hother (hsame.symm.trans hname)
        simp [named, hnot]
    · have hrest : ∃ found ∈ rest, found.name = name := by
        obtain ⟨found, hfound, hsame⟩ := h
        rcases List.mem_cons.mp hfound with rfl | hin
        · exact absurd hsame hname
        · exact ⟨found, hin, hsame⟩
      obtain ⟨after, hset, hnames, hhead, hothers⟩ := ih hrest
      refine ⟨option :: after, ?_, ?_, ?_, ?_⟩
      · simp [setOption, hname, hset, bind, Except.bind]
      · simp [hnames]
      · simpa [named, hname] using hhead
      · intro other hother
        have hafter := hothers other hother
        simp only [named, Option.getD_some] at hafter ⊢
        rw [List.filter_cons, List.filter_cons, hafter]

theorem setOption_of_not_named {value : Prim} {options : List BondOption}
    (h : ¬ ∃ option ∈ options, option.name = name) :
    setOption name value options = .error .indexError := by
  induction options with
  | nil => rfl
  | cons option rest ih =>
    have hname : option.name ≠ name := fun hsame => h ⟨option, List.mem_cons_self, hsame⟩
    have hrest := ih fun ⟨found, hfound, hsame⟩ =>
      h ⟨found, List.mem_cons_of_mem _ hfound, hsame⟩
    simp [setOption, hname, hrest, bind, Except.bind]

theorem exists_named_iff {options : List BondOption} :
    (∃ option, (named name (some options)).head? = some option) ↔
      ∃ option ∈ options, option.name = name := by
  rw [← Option.isSome_iff_exists, List.isSome_head?]
  simp [named, List.filter_eq_nil_iff]

/-- What the update of an option keeps. -/
structure Updates (name : Text) (value : Option Int) (before after : Option (List BondOption)) :
    Prop where
  names : (after.getD []).map BondOption.name = (before.getD []).map BondOption.name
  others : ∀ other, other ≠ name → named other after = named other before
  unset : value = none → after = before
  same : value = some 0 → after = before
  sets : ∀ number, value = some number → number ≠ 0 →
    (named name after).head? = some ⟨name, .int number⟩

/-- A number other than 0 is set where there is an option of this name. -/
theorem updateOption_ok {name : Text} {value : Option Int} {before : Option (List BondOption)}
    (h : ∀ number, value = some number → number ≠ 0 →
      ∃ option, (named name before).head? = some option) :
    ∃ after, updateOption name value before = .ok after ∧ Updates name value before after := by
  cases value with
  | none =>
    exact ⟨before, rfl, rfl, fun _ _ => rfl, fun _ => rfl, fun _ => rfl,
      fun _ hsome => by cases hsome⟩
  | some number =>
    by_cases hzero : number = 0
    · refine ⟨before, by simp [updateOption, hzero], rfl, fun _ _ => rfl, fun _ => rfl,
        fun _ => rfl, fun other hsome hne => ?_⟩
      obtain rfl := Option.some.inj hsome
      exact absurd hzero hne
    · obtain ⟨option, hoption⟩ := h number rfl hzero
      cases before with
      | none => simp [named] at hoption
      | some options =>
        obtain ⟨after, hset, hnames, hhead, hothers⟩ := @setOption_of_named name (.int number)
          options (exists_named_iff.mp ⟨option, hoption⟩)
        refine ⟨some after, ?_, hnames, hothers, ?_, ?_, ?_⟩
        · simp [updateOption, hzero, hset, Functor.map, Except.map]
        · intro hnone
          cases hnone
        · intro hsome
          exact absurd (Option.some.inj hsome) hzero
        · intro other hsome _
          obtain rfl := Option.some.inj hsome
          exact hhead

/-- Where there is no option of this name, a number other than 0 cannot be set. -/
theorem named_of_updateOption (h : updateOption name value before = .ok after) {number : Int}
    (hvalue : value = some number) (hne : number ≠ 0) :
    ∃ option, (named name before).head? = some option := by
  subst hvalue
  cases before with
  | none => simp [updateOption, hne] at h
  | some options =>
    by_contra hnone
    rw [exists_named_iff] at hnone
    simp [updateOption, hne, setOption_of_not_named hnone, Functor.map, Except.map] at h

theorem updates_of_ok (h : updateOption name value before = .ok after) :
    Updates name value before after := by
  obtain ⟨after', hok, hupdates⟩ := @updateOption_ok name value before
    fun number hvalue hne => named_of_updateOption h hvalue hne
  obtain rfl := Except.ok.inj (h.symm.trans hok)
  exact hupdates

/-- What is not this option, or is not given, is kept. -/
theorem Updates.named_eq (h : Updates name value before after) {other : Text}
    (hother : other = name → value = none) : named other after = named other before := by
  by_cases hname : other = name
  · rw [h.unset (hother hname)]
  · exact h.others other hname

/-- The option is set exactly if it can be. -/
theorem Updates.optionIs_iff (h : Updates name value before after)
    (hok : updateOption name value before = .ok after) :
    OptionIs name value after ↔ Settable name value before := by
  constructor
  · intro his number hvalue
    by_cases hzero : number = 0
    · obtain ⟨option, hoption, hshows⟩ := his number hvalue
      rw [h.same (hzero ▸ hvalue)] at hoption
      exact ⟨option, hoption, fun _ => hshows⟩
    · obtain ⟨option, hoption⟩ := named_of_updateOption hok hvalue hzero
      exact ⟨option, hoption, fun hsame => absurd hsame hzero⟩
  · intro hsettable number hvalue
    by_cases hzero : number = 0
    · obtain ⟨option, hoption, hshows⟩ := hsettable number hvalue
      rw [h.same (hzero ▸ hvalue)]
      exact ⟨option, hoption, hshows hzero⟩
    · exact ⟨_, h.sets number hvalue hzero, Or.inl rfl⟩

theorem mode_ne_miimon : mode ≠ miimon := by decide

/-- The options are updated exactly if the mode and the miimon that are given can be set. -/
theorem optionsUpdated_iff :
    (∃ middle after, updateOption mode entry.mode before = .ok middle ∧
        updateOption miimon entry.miimon middle = .ok after ∧ OptionsUpdated entry before after) ↔
      Settable mode entry.mode before ∧ Settable miimon entry.miimon before := by
  have hsettable : ∀ {middle}, Updates mode entry.mode before middle →
      (Settable miimon entry.miimon middle ↔ Settable miimon entry.miimon before) := by
    intro middle hupdates
    unfold Settable
    rw [hupdates.others miimon mode_ne_miimon.symm]
  have hmode : ∀ {middle after}, Updates miimon entry.miimon middle after →
      (OptionIs mode entry.mode after ↔ OptionIs mode entry.mode middle) := by
    intro middle after hupdates
    unfold OptionIs
    rw [hupdates.others mode mode_ne_miimon]
  constructor
  · rintro ⟨middle, after, hmiddle, hafter, hupdated⟩
    have hfirst := updates_of_ok hmiddle
    have hsecond := updates_of_ok hafter
    refine ⟨(hfirst.optionIs_iff hmiddle).mp ((hmode hsecond).mp hupdated.mode), ?_⟩
    exact (hsettable hfirst).mp ((hsecond.optionIs_iff hafter).mp hupdated.miimon)
  · rintro ⟨hmodeSet, hmiimonSet⟩
    obtain ⟨middle, hmiddle, hfirst⟩ := @updateOption_ok mode entry.mode before
      fun number hvalue _ => (hmodeSet number hvalue).imp fun _ h => h.1
    rw [← hsettable hfirst] at hmiimonSet
    obtain ⟨after, hafter, hsecond⟩ := @updateOption_ok miimon entry.miimon middle
      fun number hvalue _ => (hmiimonSet number hvalue).imp fun _ h => h.1
    refine ⟨middle, after, hmiddle, hafter, ?_, ?_, ?_, ?_⟩
    · exact (hmode hsecond).mpr ((hfirst.optionIs_iff hmiddle).mpr hmodeSet)
    · exact (hsecond.optionIs_iff hafter).mpr hmiimonSet
    · exact hsecond.names.trans hfirst.names
    · intro name hnameMode hnameMiimon
      exact (hsecond.named_eq hnameMiimon).trans (hfirst.named_eq hnameMode)

/-! ## Bonds as they are meant to be -/

/-- The bond that is there, with the slaves toggled and the options updated. -/
def UpdatedAsRequested (engine : Engine) (entry : Entry) (hostNic : HostNic) (bonding : Bonding) :
    Prop :=
  ∃ updated, prepareBondAttachmentObj engine entry =
      .ok { hostNic with bonding := some updated } ∧
    OptionsUpdated entry bonding.options updated.options ∧
    Toggled engine (bonding.slaves.getD []) entry.slaves (updated.slaves.getD [])

/-- The mode and the miimon can be set, the bond has slaves to toggle, and their names do not
meet. -/
structure UpdateClear (engine : Engine) (entry : Entry) (bonding : Bonding) : Prop where
  mode : Settable mode entry.mode bonding.options
  miimon : Settable miimon entry.miimon bonding.options
  slaves : entry.slaves = [] ∨ bonding.slaves.isSome = true
  apart : SlavesApart engine (bonding.slaves.getD []) entry.slaves

/-- The options that an entry gives. -/
def requestedOptions (entry : Entry) : List (Text × Int) :=
  (entry.mode.map fun number => (mode, number)).toList ++
    (entry.miimon.map fun number => (miimon, number)).toList

/-- A new bond with exactly the slaves and the options of the entry. -/
def CreatedAsRequested (engine : Engine) (entry : Entry) : Prop :=
  ∃ created, prepareBondAttachmentObj engine entry =
      .ok { name := if Text.truthy entry.nic then entry.nic else none, bonding := some created } ∧
    List.Forall₂ (fun requested option => BondOption.name option = Prod.fst requested ∧
      Shows option.value requested.2) (requestedOptions entry) (created.options.getD []) ∧
    Toggled engine [] entry.slaves (created.slaves.getD [])

/-- The miimon is not 0, and the names of the slaves do not meet. -/
structure CreateClear (engine : Engine) (entry : Entry) : Prop where
  miimon : entry.miimon ≠ some 0
  apart : SlavesApart engine [] entry.slaves

/-- Nothing is toggled where nothing is requested. -/
theorem toggled_nil (h : WithIds current) : Toggled engine current [] current := by
  refine ⟨?_, h.nodup.of_map⟩
  simp [symmetricDifference, requestedIds]

theorem slavesApart_nil (current : List Slave) : SlavesApart engine current [] where
  names := List.nodup_nil
  apart := by
    intro before name after hsplit
    simp at hsplit

/-- The update of a bond that is there. -/
theorem prepareBondAttachmentObj_update (hupdate : entry.update = true)
    (hnic : getHostNic engine entry.nic = some hostNic) (hbonding : hostNic.bonding = some bonding)
    :
    prepareBondAttachmentObj engine entry = (do
      let middle ← updateOption mode entry.mode bonding.options
      let options ← updateOption miimon entry.miimon middle
      if entry.slaves.isEmpty then
        .ok { hostNic with bonding := some { bonding with options := options } }
      else
        match bonding.slaves with
        | none => .error (.attributeError "get_host_nic".toList)
        | some current =>
          .ok { hostNic with
            bonding := some
              { slaves := some (toggleSlaves engine current entry.slaves)
                options := options } }) := by
  have hname : (if Text.truthy entry.nic = true then { hostNic with name := entry.nic }
      else hostNic) = hostNic := by
    rw [← (getHostNic_name hnic).2]
    exact ite_self hostNic
  unfold prepareBondAttachmentObj
  simp only [hupdate, if_true, hnic, hbonding]
  cases updateOption mode entry.mode bonding.options with
  | error e => rfl
  | ok middle =>
    cases hoptions : updateOption miimon entry.miimon middle with
    | error e => simp [bind, Except.bind, hoptions]
    | ok options =>
      cases bonding.slaves with
      | none => simp only [bind, Except.bind, hoptions, hname]
      | some current => simp only [bind, Except.bind, hoptions, hname]

/-- What an update returns: the options set one after the other, and the slaves toggled if any
are requested. -/
theorem prepareBondAttachmentObj_eq_ok_iff {updated : Bonding} (hupdate : entry.update = true)
    (hnic : getHostNic engine entry.nic = some hostNic) (hbonding : hostNic.bonding = some bonding)
    :
    prepareBondAttachmentObj engine entry = .ok { hostNic with bonding := some updated } ↔
      (∃ middle, updateOption mode entry.mode bonding.options = .ok middle ∧
        updateOption miimon entry.miimon middle = .ok updated.options) ∧
      (entry.slaves = [] ∧ updated.slaves = bonding.slaves ∨
        entry.slaves ≠ [] ∧ ∃ current, bonding.slaves = some current ∧
          updated.slaves = some (toggleSlaves engine current entry.slaves)) := by
  rw [prepareBondAttachmentObj_update hupdate hnic hbonding]
  cases updateOption mode entry.mode bonding.options with
  | error e => simp [bind, Except.bind]
  | ok middle =>
    cases hafter : updateOption miimon entry.miimon middle with
    | error e => simp [hafter, bind, Except.bind]
    | ok after =>
      simp only [hafter, bind, Except.bind, Except.ok.injEq, exists_eq_left', ne_eq]
      cases updated with
      | mk slaves options =>
        have hswap : ∀ found : Option (List Slave),
            found = slaves ∧ after = options ↔ after = options ∧ slaves = found :=
          fun _ => and_comm.trans (and_congr_right' eq_comm)
        by_cases hslaves : entry.slaves = []
        · simpa [hslaves] using hswap bonding.slaves
        · cases bonding.slaves with
          | none => simp [hslaves]
          | some current =>
            simpa [hslaves] using hswap (some (toggleSlaves engine current entry.slaves))

/-- A bond is updated as requested exactly if everything can be set and no names meet. -/
theorem updatedAsRequested_iff (hids : (engine.hostNics.map HostNic.id).Nodup)
    (hnodup : entry.slaves.Nodup) (hupdate : entry.update = true)
    (hnic : getHostNic engine entry.nic = some hostNic) (hbonding : hostNic.bonding = some bonding)
    (hcurrent : WithIds (bonding.slaves.getD [])) :
    UpdatedAsRequested engine entry hostNic bonding ↔ UpdateClear engine entry bonding := by
  unfold UpdatedAsRequested
  simp only [prepareBondAttachmentObj_eq_ok_iff hupdate hnic hbonding]
  constructor
  · rintro ⟨updated, ⟨⟨middle, hmiddle, hafter⟩, hslaves⟩, hoptions, htoggled⟩
    obtain ⟨hmode, hmiimon⟩ :=
      optionsUpdated_iff.mp ⟨middle, updated.options, hmiddle, hafter, hoptions⟩
    rcases hslaves with ⟨hempty, -⟩ | ⟨-, current, hsome, htoggle⟩
    · exact ⟨hmode, hmiimon, Or.inl hempty, hempty ▸ slavesApart_nil _⟩
    · refine ⟨hmode, hmiimon, Or.inr (by rw [hsome]; rfl), ?_⟩
      rw [hsome] at hcurrent htoggled ⊢
      rw [htoggle] at htoggled
      exact (toggled_iff_apart hids hcurrent hnodup).mp htoggled
  · rintro ⟨hmode, hmiimon, hslaves, hapart⟩
    obtain ⟨middle, after, hmiddle, hafter, hoptions⟩ := optionsUpdated_iff.mpr ⟨hmode, hmiimon⟩
    by_cases hempty : entry.slaves = []
    · refine ⟨{ bonding with options := after }, ⟨⟨middle, hmiddle, hafter⟩, ?_⟩, hoptions, ?_⟩
      · exact Or.inl ⟨hempty, rfl⟩
      · rw [hempty]
        exact toggled_nil hcurrent
    · obtain ⟨current, hsome⟩ := Option.isSome_iff_exists.mp (hslaves.resolve_left hempty)
      rw [hsome] at hcurrent hapart ⊢
      refine ⟨⟨some (toggleSlaves engine current entry.slaves), after⟩,
        ⟨⟨middle, hmiddle, hafter⟩, ?_⟩, hoptions, ?_⟩
      · exact Or.inr ⟨hempty, current, rfl, rfl⟩
      · exact (toggled_iff_apart hids hcurrent hnodup).mpr hapart

/-- The options of a new bond are those of the entry exactly if the miimon is not 0. -/
theorem newOptions_iff (entry : Entry) :
    List.Forall₂ (fun requested option => BondOption.name option = Prod.fst requested ∧
        Shows option.value requested.2) (requestedOptions entry) (newOptions entry) ↔
      entry.miimon ≠ some 0 := by
  unfold requestedOptions newOptions
  cases entry.mode with
  | none =>
    cases entry.miimon with
    | none => simp
    | some number =>
      by_cases hzero : number = 0
      · simp [hzero]
      · simp [hzero, Shows]
  | some value =>
    cases entry.miimon with
    | none => simp [Shows]
    | some number =>
      by_cases hzero : number = 0
      · simp [hzero]
      · simp [hzero, Shows]

/-- A new bond. -/
theorem prepareBondAttachmentObj_create {entry : Entry} (hcreate : entry.update = false) :
    prepareBondAttachmentObj engine entry =
      .ok { name := if Text.truthy entry.nic then entry.nic else none
            bonding := some
              { slaves := if entry.slaves = [] then none
                  else some (toggleSlaves engine [] entry.slaves)
                options := some (newOptions entry) } } := by
  have hname : (if Text.truthy entry.nic = true then { ({} : HostNic) with name := entry.nic }
      else {}) = { name := if Text.truthy entry.nic then entry.nic else none } := by
    split
    · rfl
    · rfl
  unfold prepareBondAttachmentObj
  simp only [hcreate, Bool.false_eq_true, if_false, bind, Except.bind]
  cases hslaves : entry.slaves with
  | nil =>
    rw [hname]
    rfl
  | cons first rest =>
    rw [hname]
    rfl

/-- A bond is created as requested exactly if the miimon is not 0 and no names meet. -/
theorem createdAsRequested_iff (hids : (engine.hostNics.map HostNic.id).Nodup)
    (hnodup : entry.slaves.Nodup) (hcreate : entry.update = false) :
    CreatedAsRequested engine entry ↔ CreateClear engine entry := by
  have hempty : WithIds [] := ⟨by simp, List.nodup_nil⟩
  have hbond := @prepareBondAttachmentObj_create engine entry hcreate
  have htoggled : Toggled engine [] entry.slaves
      ((if entry.slaves = [] then none
        else some (toggleSlaves engine [] entry.slaves)).getD []) ↔
      SlavesApart engine [] entry.slaves := by
    by_cases hslaves : entry.slaves = []
    · rw [hslaves]
      exact iff_of_true (toggled_nil hempty) (slavesApart_nil [])
    · rw [if_neg hslaves]
      exact toggled_iff_apart hids hempty hnodup
  unfold CreatedAsRequested
  rw [hbond]
  constructor
  · rintro ⟨created, hok, hoptions, hslaves⟩
    obtain rfl := Option.some.inj (HostNic.mk.inj (Except.ok.inj hok)).2.2
    exact ⟨(newOptions_iff entry).mp hoptions, htoggled.mp hslaves⟩
  · rintro ⟨hmiimon, hapart⟩
    exact ⟨_, rfl, (newOptions_iff entry).mpr hmiimon, htoggled.mpr hapart⟩

/-- Of a host whose NICs have distinct ids and an entry without a slave twice: an update gives
the bond that is there, its slaves toggled and the options of the entry set, exactly if the mode
and the miimon have an option to set and are not 0 (or it is 0 already), the bond has slaves to
toggle, and no name meets an id; a new bond has exactly the slaves and the options of the entry
exactly if the miimon is not 0 and no name meets an id. -/
theorem bond_as_requested_iff (engine : Engine) (entry : Entry)
    (hids : (engine.hostNics.map HostNic.id).Nodup) (hnodup : entry.slaves.Nodup) :
    (entry.update = true → ∀ hostNic bonding, getHostNic engine entry.nic = some hostNic →
      hostNic.bonding = some bonding → WithIds (bonding.slaves.getD []) →
        (UpdatedAsRequested engine entry hostNic bonding ↔ UpdateClear engine entry bonding)) ∧
    (entry.update = false → (CreatedAsRequested engine entry ↔ CreateClear engine entry)) := by
  refine ⟨?_, fun hcreate => createdAsRequested_iff hids hnodup hcreate⟩
  intro hupdate hostNic bonding hnic hbonding hcurrent
  exact updatedAsRequested_iff hids hnodup hupdate hnic hbonding hcurrent

/-- Names that are the id of no slave and of no NIC of the entry do not meet. -/
theorem SlavesApart.of_disjoint (hnames : (requested.map Text.strip).Nodup)
    (hcurrent : ∀ name ∈ requested, some name ∉ current.map Slave.id)
    (hrequested : ∀ name ∈ requested, ∀ other ∈ requested,
      (slaveNames engine).idOf name ≠ some (some other)) :
    SlavesApart engine current requested where
  names := (List.filter_sublist.map Text.strip).nodup hnames
  apart := by
    rintro before name after rfl _
    refine ⟨fun earlier hearlier _ => ?_, fun hin => ?_⟩
    · exact hrequested name (by simp) earlier (by simp [hearlier])
    · exact absurd hin (hcurrent name (by simp))

/-- A host with three NICs and a bond of two of them. -/
def twoSlavesHost : Engine where
  hostNics := [
    { id := some "1".toList, name := some "eth0".toList },
    { id := some "2".toList, name := some "eth1".toList },
    { id := some "3".toList, name := some "eth2".toList },
    { id := some "9".toList, name := some "bond0".toList, bonding := some bondOfTwo }]
  attachments := []
  networkName := fun name => .ok name
  findNetwork := fun _ _ _ => .ok none
  hostNicLabels := fun _ => []
  hasQosAttribute := fun _ => false
where
  /-- The slaves `eth0` and `eth1`, and mode 1. -/
  bondOfTwo : Bonding := {
    slaves := some [⟨some "1".toList, []⟩, ⟨some "2".toList, []⟩]
    options := some [⟨mode, .str "1".toList⟩, ⟨miimon, .str "100".toList⟩] }

/-- The bond of the host. -/
def bondNic : HostNic :=
  { id := some "9".toList, name := some "bond0".toList, bonding := some twoSlavesHost.bondOfTwo }

theorem withIds_bondOfTwo : WithIds (twoSlavesHost.bondOfTwo.slaves.getD []) :=
  ⟨by decide, by decide⟩

/-- Take `eth1` out, put `eth2` in, and set the mode to 4. -/
def toggleEntry : Entry :=
  { nic := some "bond0".toList, slaves := ["eth1".toList, "eth2".toList], mode := some 4
    update := true }

theorem bond_toggled :
    UpdatedAsRequested twoSlavesHost toggleEntry bondNic twoSlavesHost.bondOfTwo := by
  have hids : (twoSlavesHost.hostNics.map HostNic.id).Nodup := by decide
  have hnodup : toggleEntry.slaves.Nodup := by decide
  refine ((bond_as_requested_iff twoSlavesHost toggleEntry hids hnodup).1 rfl bondNic
    twoSlavesHost.bondOfTwo (by decide) rfl withIds_bondOfTwo).mpr ⟨?_, ?_, Or.inr rfl, ?_⟩
  · intro number hnumber
    obtain rfl := Option.some.inj hnumber
    exact ⟨⟨mode, .str "1".toList⟩, by decide, by decide⟩
  · intro number hnumber
    cases hnumber
  · exact .of_disjoint (by decide) (by decide) (by decide)

/-- Set the mode to 0. -/
def modeZeroEntry : Entry := { nic := some "bond0".toList, mode := some 0, update := true }

/-- A mode of 0 is not set. -/
theorem mode_zero_not_set :
    (twoSlavesHost.hostNics.map HostNic.id).Nodup ∧ modeZeroEntry.slaves.Nodup ∧
      getHostNic twoSlavesHost modeZeroEntry.nic = some bondNic ∧
      WithIds (twoSlavesHost.bondOfTwo.slaves.getD []) ∧
      prepareBondAttachmentObj twoSlavesHost modeZeroEntry = .ok bondNic ∧
      ¬ UpdatedAsRequested twoSlavesHost modeZeroEntry bondNic twoSlavesHost.bondOfTwo := by
  have hids : (twoSlavesHost.hostNics.map HostNic.id).Nodup := by decide
  have hnodup : modeZeroEntry.slaves.Nodup := List.nodup_nil
  have hnic : getHostNic twoSlavesHost modeZeroEntry.nic = some bondNic := by decide
  refine ⟨hids, hnodup, hnic, withIds_bondOfTwo, by decide, fun hupdated => ?_⟩
  have hclear := (updatedAsRequested_iff hids hnodup rfl hnic rfl withIds_bondOfTwo).mp hupdated
  obtain ⟨option, hoption, hshows⟩ := hclear.mode 0 rfl
  have hone : (named mode twoSlavesHost.bondOfTwo.options).head? =
      some ⟨mode, .str "1".toList⟩ := by decide
  obtain rfl := Option.some.inj (hone.symm.trans hoption)
  exact absurd (hshows rfl) (by decide)

end OvirtArt.Networking
