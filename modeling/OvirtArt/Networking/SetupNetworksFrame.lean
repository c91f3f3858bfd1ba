import OvirtArt.Networking.SetupNetworks

set_option autoImplicit false

/-!
# What `setup_networks` leaves in the dictionaries of its caller

The phase for `update` stores its flag in the entries themselves, one entry after
the other, each before anything is prepared for it.  This file follows the two
dictionaries through a call, whether it returns or raises, and says when they are
as they were before.

The entries are part of the state that the phases pass on.  Only the flag can differ, and only
where an entry is prepared for the second phase.
-/

namespace OvirtArt.Networking

open OvirtArt.CoreApi OvirtArt.Foundation

/-! ## The dictionaries after a call -/

section

variable (engine : Engine)

/-- The loop of `prepare_add_for_setupnetworks`, with the dictionary that it
leaves: `v[UPDATE] = True` comes first. -/
def prepareEntries (update : Bool) :
    Prepared → List (Text × Entry) → List (Text × Entry) × Except PyException Prepared
  | prepared, [] => ([], .ok prepared)
  | prepared, (key, entry) :: rest =>
    let entry := entry.flagged update
    match prepareEntry engine prepared entry with
    | .error e => ((key, entry) :: rest, .error e)
    | .ok next =>
      let (left, result) := prepareEntries update next rest
      ((key, entry) :: left, result)

/-- The phase of `setup_networks` for one of its dictionaries, with what it leaves
of it. -/
def preparePhase (prepared : Prepared) (dict : List (Text × Entry)) (update : Bool) :
    List (Text × Entry) × Except PyException Prepared :=
  if dict.isEmpty then (dict, .ok prepared)
  else prepareEntries engine update { prepared with bonds := [] } dict

/-- `setup_networks` up to its request, with the arguments as it leaves them. -/
def runSetupNetworks (kwargs : Kwargs) : Kwargs × Except PyException SnParams :=
  match prepareRemoveForSetupnetworks engine kwargs.remove with
  | .error e => (kwargs, .error e)
  | .ok (removedBonds, removedNetworkAttachments, removedLabels) =>
    match preparePhase engine {} kwargs.add false with
    | (add, .error e) => ({ kwargs with add := add }, .error e)
    | (add, .ok prepared) =>
      match preparePhase engine prepared kwargs.update true with
      | (update, .error e) => ({ kwargs with add := add, update := update }, .error e)
      | (update, .ok prepared) =>
        ({ kwargs with add := add, update := update }, do
          let synchronized ←
            (if kwargs.sync.isEmpty then .ok []
            else getNetworksAttachments engine (kwargs.sync.map some))
          .ok
            { modifiedNetworkAttachments := prepared.networkAttachments
              removedNetworkAttachments := removedNetworkAttachments
              modifiedBonds := prepared.bonds
              removedBonds := removedBonds
              modifiedLabels := prepared.labels
              removedLabels := removedLabels
              synchronizedNetworkAttachments := synchronized
              connectivityTimeout := kwargs.checkConnectivityTimeout
              checkConnectivity := kwargs.checkConnectivity })

end

/-! ## The request is the one of the model without dictionaries -/

section

variable {engine : Engine}

theorem prepareEntries_snd (update : Bool) (dict : List (Text × Entry)) (prepared : Prepared) :
    (prepareEntries engine update prepared dict).2 =
      (flaggedEntries dict update).foldlM (prepareEntry engine) prepared := by
  induction dict generalizing prepared with
  | nil => rfl
  | cons item rest ih =>
    obtain ⟨key, entry⟩ := item
    simp only [prepareEntries, flaggedEntries, List.map_cons, List.foldlM_cons]
    cases hprepare : prepareEntry engine prepared (entry.flagged update) with
    | error e => rfl
    | ok next => exact ih next

theorem preparePhase_snd (prepared : Prepared) (dict : List (Text × Entry)) (update : Bool) :
    (preparePhase engine prepared dict update).2 = prepareAdd engine prepared dict update := by
  unfold preparePhase prepareAdd
  cases dict.isEmpty with
  | true => rfl
  | false => exact prepareEntries_snd update dict _

/-! ## When the dictionaries are left as they were -/

theorem Entry.flagged_true_eq_iff (entry : Entry) :
    entry.flagged true = entry ↔ entry.update = true := by
  constructor
  · intro h
    rw [← h]
    rfl
  · intro h
    unfold Entry.flagged
    rw [if_pos rfl, ← h]

/-- The phase for `add` changes no entry, whatever comes of it. -/
theorem prepareEntries_false (dict : List (Text × Entry)) (prepared : Prepared) :
    (prepareEntries engine false prepared dict).1 = dict := by
  induction dict generalizing prepared with
  | nil => rfl
  | cons item rest ih =>
    obtain ⟨key, entry⟩ := item
    simp only [prepareEntries]
    cases prepareEntry engine prepared (entry.flagged false) with
    | error e => rfl
    | ok next => exact congrArg (List.cons (key, entry)) (ih next)

/-- The phase for `update` changes no entry exactly if those that it comes to have
the flag already. -/
theorem prepareEntries_true_eq_iff (dict : List (Text × Entry)) (prepared : Prepared) :
    (prepareEntries engine true prepared dict).1 = dict ↔
      ∀ before item after, dict = before ++ item :: after →
        (∃ next, (flaggedEntries before true).foldlM (prepareEntry engine) prepared = .ok next) →
          item.2.update = true := by
  induction dict generalizing prepared with
  | nil => simp [prepareEntries]
  | cons first rest ih =>
    obtain ⟨key, entry⟩ := first
    have hfirst : ∀ left, (key, entry.flagged true) :: left = (key, entry) :: rest ↔
        entry.update = true ∧ left = rest := by
      intro left
      simp only [List.cons.injEq, Prod.mk.injEq, true_and, Entry.flagged_true_eq_iff]
    simp only [prepareEntries]
    cases hprepare : prepareEntry engine prepared (entry.flagged true) with
    | error e =>
      simp only [hfirst, and_true]
      constructor
      · rintro hflag before item after hdict ⟨next, hnext⟩
        cases before with
        | nil =>
          obtain ⟨rfl, rfl⟩ := List.cons.inj hdict
          exact hflag
        | cons head before =>
          obtain ⟨rfl, _⟩ := List.cons.inj hdict
          simp [flaggedEntries, hprepare, bind, Except.bind] at hnext
      · intro hall
        exact hall [] (key, entry) rest rfl ⟨prepared, rfl⟩
    | ok middle =>
      simp only [hfirst, ih middle]
      constructor
      · rintro ⟨hflag, hrest⟩ before item after hdict ⟨next, hnext⟩
        cases before with
        | nil =>
          obtain ⟨rfl, rfl⟩ := List.cons.inj hdict
          exact hflag
        | cons head before =>
          obtain ⟨rfl, htail⟩ := List.cons.inj hdict
          refine hrest before item after htail ⟨next, ?_⟩
          simpa [flaggedEntries, hprepare, bind, Except.bind] using hnext
      · intro hall
        refine ⟨hall [] (key, entry) rest rfl ⟨prepared, rfl⟩, ?_⟩
        rintro before item after rfl ⟨next, hnext⟩
        refine hall ((key, entry) :: before) item after rfl ⟨next, ?_⟩
        simpa [flaggedEntries, hprepare, bind, Except.bind] using hnext

end

/-! ## Two calls -/

/-- The call comes to what follows `before` in `update`: nothing is raised before. -/
def Comes (engine : Engine) (kwargs : Kwargs) (before : List (Text × Entry)) : Prop :=
  ∃ removed added prepared,
    prepareRemoveForSetupnetworks engine kwargs.remove = .ok removed ∧
      prepareAdd engine {} kwargs.add false = .ok added ∧
      prepareAddForSetupnetworks engine added.networkAttachments added.labels before true =
        .ok prepared

/-- A call leaves its dictionaries as they are, so that a later call, with one of
them under `add`, is not affected: it comes to the same end, on every host. -/
structure FrameKept (engine : Engine) (kwargs : Kwargs) : Prop where
  unchanged : (runSetupNetworks engine kwargs).1 = kwargs
  laterAdd : ∀ (host : Engine) (other : Kwargs),
    setupNetworks host { other with add := (runSetupNetworks engine kwargs).1.add } =
      setupNetworks host { other with add := kwargs.add }
  laterUpdate : ∀ (host : Engine) (other : Kwargs),
    setupNetworks host { other with add := (runSetupNetworks engine kwargs).1.update } =
      setupNetworks host { other with add := kwargs.update }

section

variable {engine : Engine}

/-- What a call leaves differs in `update` only. -/
theorem runSetupNetworks_fst (kwargs : Kwargs) :
    (runSetupNetworks engine kwargs).1 = kwargs ↔
      ∀ removed added, prepareRemoveForSetupnetworks engine kwargs.remove = .ok removed →
        prepareAdd engine {} kwargs.add false = .ok added →
          (preparePhase engine added kwargs.update true).1 = kwargs.update := by
  have hadd : (preparePhase engine {} kwargs.add false).1 = kwargs.add := by
    unfold preparePhase
    split
    · rfl
    · exact prepareEntries_false _ _
  have hupdate : ∀ update, { kwargs with add := kwargs.add, update := update } = kwargs ↔
      update = kwargs.update :=
    fun update => ⟨congrArg Kwargs.update, fun h => by rw [h]⟩
  unfold runSetupNetworks
  rw [← preparePhase_snd]
  cases prepareRemoveForSetupnetworks engine kwargs.remove with
  | error e => simp
  | ok removed =>
    rcases hfirst : preparePhase engine {} kwargs.add false with ⟨add, e | added⟩
    · obtain rfl : add = kwargs.add := by rw [← hadd, hfirst]
      simp
    · obtain rfl : add = kwargs.add := by rw [← hadd, hfirst]
      rcases hsecond : preparePhase engine added kwargs.update true with ⟨update, e | prepared⟩
      all_goals
        simp only [hsecond]
        refine (hupdate update).trans ⟨?_, fun h => ?_⟩
        · rintro h _ _ _ hadded
          rw [← Except.ok.inj hadded, hsecond, h]
        · rw [← h removed added rfl rfl, hsecond]

/-- The frame law of a call holds exactly if all entries of `update` that it comes
to have the flag already. -/
theorem frame_kept_iff (engine : Engine) (kwargs : Kwargs) :
    FrameKept engine kwargs ↔
      ∀ before item after, kwargs.update = before ++ item :: after →
        Comes engine kwargs before → item.2.update = true := by
  have hframe : FrameKept engine kwargs ↔ (runSetupNetworks engine kwargs).1 = kwargs := by
    constructor
    · exact FrameKept.unchanged
    · intro h
      exact ⟨h, fun host other => by rw [h], fun host other => by rw [h]⟩
  rw [hframe, runSetupNetworks_fst]
  have hphase : ∀ added, (preparePhase engine added kwargs.update true).1 = kwargs.update ↔
      ∀ before item after, kwargs.update = before ++ item :: after →
        (∃ next, prepareAddForSetupnetworks engine added.networkAttachments added.labels before
          true = .ok next) → item.2.update = true := by
    intro added
    unfold preparePhase
    cases hempty : kwargs.update.isEmpty with
    | true =>
      have hnil : kwargs.update = [] := List.isEmpty_iff.mp hempty
      simp [hnil]
    | false => exact prepareEntries_true_eq_iff _ _
  simp only [hphase]
  constructor
  · rintro h before item after hdict ⟨removed, added, prepared, hremoved, hadded, hprepared⟩
    exact h removed added hremoved hadded before item after hdict ⟨prepared, hprepared⟩
  · rintro h removed added hremoved hadded before item after hdict ⟨prepared, hprepared⟩
    exact h before item after hdict ⟨removed, added, prepared, hremoved, hadded, hprepared⟩

/-- After an update of a network, adding it with the same dictionary looks for an
attachment instead of making one. -/
theorem update_leaks_into_add :
    ¬ ∀ (engine : Engine) (kwargs : Kwargs), FrameKept engine kwargs := by
  intro hall
  have hlater := (hall smallEngine { update := [("0".toList, { network := some "net1".toList })] })
    |>.laterUpdate smallEngine {}
  have hsame := congrArg (Except.map SnParams.modifiedNetworkAttachments) hlater
  revert hsame
  decide

end

end OvirtArt.Networking
