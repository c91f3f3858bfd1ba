import OvirtArt.Foundation.Trees

set_option autoImplicit false

/-!
# The deep merge of trees

One tree is merged into another: mappings are merged key by key, everything else
is replaced.  The merge is defined where the first one has no entries below a plain
value of the second, and what its paths lead to is told by the two trees.

The order of the entries is kept: those that are there stay in place, and new ones come at the
end.  The law of the merge is stated for paths, since an entry is found by its path only.
-/

namespace OvirtArt.Foundation

variable {κ α : Type} [DecidableEq κ]

mutual

/-- What a key is mapped to after the merge, by what it was mapped to before. -/
def Tree.mergeOver : Tree κ α → Option (Tree κ α) → Option (Tree κ α)
  | .value a, _ => some (.value a)
  | .mapping entries, master => entries.mergeInto (master.getD (.mapping .nil))

/-- The entries are merged one after the other. -/
def Forest.mergeInto : Forest κ α → Tree κ α → Option (Tree κ α)
  | .nil, master => some master
  | .cons _ _ _, .value _ => none
  | .cons key tree rest, .mapping entries =>
    (tree.mergeOver (entries.lookup key)).bind fun merged =>
      rest.mergeInto (.mapping (entries.insert key merged))

end

/-- At no path the update has an entry below a plain value of the master. -/
def NoClash (update master : Tree κ α) : Prop :=
  ∀ path key, master.IsLeaf path → update.follow (path ++ [key]) = none

/-- The law of the merge: the leaves of the update are there; what the master has beside,
below and above no leaf of the update is as it was; and there is nothing else. -/
structure Merged (update master merged : Tree κ α) : Prop where
  updated : ∀ path a, update.follow path = some (.value a) →
    merged.follow path = some (.value a)
  kept : ∀ path node, master.follow path = some node →
    (∀ leaf, update.IsLeaf leaf → ¬ leaf <+: path ∧ ¬ path <+: leaf) →
      merged.follow path = some node
  nothing_else : ∀ path node, merged.follow path = some node →
    update.follow path = some node ∨
      master.follow path = some node ∧ ∀ leaf, update.IsLeaf leaf → ¬ leaf <+: path

/-! ## Merging key by key -/

/-- Entries are merged into a mapping each by itself. -/
theorem mergeInto_mapping :
    ∀ {entries master : Forest κ α} {merged : Tree κ α}, entries.Distinct →
      entries.mergeInto (.mapping master) = some merged →
        ∃ result : Forest κ α, merged = .mapping result ∧
          (∀ key tree, entries.lookup key = some tree →
            ∃ c, tree.mergeOver (master.lookup key) = some c ∧ result.lookup key = some c) ∧
          ∀ key, entries.lookup key = none → result.lookup key = master.lookup key
  | .nil, master, merged, _, h => by
      obtain rfl := Option.some.inj h
      exact ⟨master, rfl, (fun key tree h => by cases h), fun key _ => rfl⟩
  | .cons first tree rest, master, merged, hdistinct, h => by
      obtain ⟨hfirst, _, hrest⟩ := hdistinct
      rw [Forest.mergeInto] at h
      obtain ⟨c, hc, hmerged⟩ := Option.bind_eq_some_iff.mp h
      obtain ⟨result, rfl, hin, hout⟩ := mergeInto_mapping hrest hmerged
      refine ⟨result, rfl, ?_, fun key hkey => ?_⟩
      · rw [Forest.forall_lookup_cons_iff hfirst]
        refine ⟨⟨c, hc, ?_⟩, fun key entry hentry => ?_⟩
        · rw [hout first (Forest.lookup_eq_none_iff.mpr hfirst), Forest.lookup_insert_self]
        · rw [← Forest.lookup_insert_of_ne (Forest.ne_of_lookup hfirst hentry) c master]
          exact hin key entry hentry
      · rw [Forest.lookup_eq_none_iff, Forest.keys, List.mem_cons, not_or] at hkey
        rw [hout key (Forest.lookup_eq_none_iff.mpr hkey.2), Forest.lookup_insert_of_ne hkey.1]

/-- The merge into a mapping is defined exactly if it is for each key. -/
theorem mergeInto_mapping_isSome_iff :
    ∀ {entries master : Forest κ α}, entries.Distinct →
      ((entries.mergeInto (.mapping master)).isSome ↔
        ∀ key tree, entries.lookup key = some tree →
          (tree.mergeOver (master.lookup key)).isSome)
  | .nil, master, _ => iff_of_true rfl fun key tree h => by cases h
  | .cons first tree rest, master, hdistinct => by
      obtain ⟨hfirst, _, hrest⟩ := hdistinct
      rw [Forest.mergeInto, Forest.forall_lookup_cons_iff hfirst]
      cases hc : tree.mergeOver (master.lookup first) with
      | none => exact iff_of_false (by simp) fun h => by cases h.1
      | some c =>
        rw [Option.bind_some, mergeInto_mapping_isSome_iff hrest,
          and_iff_right Option.isSome_some]
        refine forall_congr' fun key => forall_congr' fun entry => forall_congr' fun hentry => ?_
        rw [Forest.lookup_insert_of_ne (Forest.ne_of_lookup hfirst hentry)]

/-- Entries whose merge changes nothing. -/
theorem mergeInto_of_fixed :
    ∀ {entries result : Forest κ α}, entries.Distinct →
      (∀ key tree, entries.lookup key = some tree →
        ∃ c, result.lookup key = some c ∧ tree.mergeOver (some c) = some c) →
      entries.mergeInto (.mapping result) = some (.mapping result)
  | .nil, result, _, _ => rfl
  | .cons first tree rest, result, hdistinct, h => by
      obtain ⟨hfirst, _, hrest⟩ := hdistinct
      rw [Forest.forall_lookup_cons_iff hfirst] at h
      obtain ⟨⟨c, hlookup, hc⟩, hothers⟩ := h
      rw [Forest.mergeInto, hlookup, hc, Option.bind_some, Forest.insert_of_lookup hlookup]
      exact mergeInto_of_fixed hrest hothers

/-- The entries that a mapping is merged into, where they are not a plain value. -/
theorem mergeOver_cases (entries : Forest κ α) (master : Option (Tree κ α)) :
    (∃ b, master = some (.value b)) ∨
      ∃ old : Forest κ α, (Tree.mapping entries).mergeOver master =
          entries.mergeInto (.mapping old) ∧
        (∀ key path, master.bind (·.follow (key :: path)) =
          (old.lookup key).bind (·.follow path)) ∧
        ∀ b, master.bind (·.follow []) ≠ some (.value b) := by
  cases master with
  | none => exact Or.inr ⟨.nil, rfl, fun _ _ => rfl, fun b h => by cases h⟩
  | some tree =>
    cases tree with
    | value b => exact Or.inl ⟨b, rfl⟩
    | mapping old => exact Or.inr ⟨old, rfl, fun _ _ => rfl, fun b h => by cases h⟩

/-- What each path leads to after a merge, by what it leads to in the update. -/
structure MergedOver (update : Tree κ α) (master : Option (Tree κ α)) (merged : Tree κ α) :
    Prop where
  leaf : ∀ path a, update.follow path = some (.value a) → merged.follow path = some (.value a)
  inner : ∀ path, update.follow path = some .mapping →
    (∃ b, master.bind (·.follow path) = some (.value b) ∧ merged.follow path = some (.value b)) ∨
      (∀ b, master.bind (·.follow path) ≠ some (.value b)) ∧ merged.follow path = some .mapping
  outside : ∀ path, update.follow path = none →
    (∀ leaf, update.IsLeaf leaf → ¬ leaf <+: path) →
      merged.follow path = master.bind (·.follow path)
  below : ∀ path leaf, update.follow path = none → update.IsLeaf leaf → leaf <+: path →
    merged.follow path = none

theorem mergedOver_value (b : α) :
    MergedOver (.mapping .nil) (some (.value b) : Option (Tree κ α)) (.value b) := by
  refine ⟨fun path a h => ?_, fun path h => ?_, fun path h _ => ?_, fun path leaf _ hleaf _ => ?_⟩
  · cases path <;> cases h
  · cases path with
    | nil => exact Or.inl ⟨b, rfl, rfl⟩
    | cons key path => cases h
  · cases path with
    | nil => cases h
    | cons key path => rfl
  · obtain ⟨a, ha⟩ := hleaf
    cases leaf <;> cases ha

variable {master : Option (Tree κ α)} {entries : Forest κ α} {update merged : Tree κ α}

theorem isLeaf_cons {key : κ} {tree : Tree κ α} {leaf : List κ}
    (htree : entries.lookup key = some tree) :
    (Tree.mapping entries).IsLeaf (key :: leaf) ↔ tree.IsLeaf leaf := by
  unfold Tree.IsLeaf
  simp only [Tree.follow_mapping_cons, htree, Option.bind_some]

/-- Where each key is merged, so is the mapping. -/
theorem mergedOver_mapping {old result : Forest κ α}
    (hold : ∀ key path, master.bind (·.follow (key :: path)) =
      (old.lookup key).bind (·.follow path))
    (hroot : ∀ b, master.bind (·.follow []) ≠ some (.value b))
    (hin : ∀ key tree, entries.lookup key = some tree →
      ∃ c, result.lookup key = some c ∧ MergedOver tree (old.lookup key) c)
    (hout : ∀ key, entries.lookup key = none → result.lookup key = old.lookup key) :
    MergedOver (.mapping entries) master (.mapping result) := by
  refine ⟨fun path a h => ?_, fun path h => ?_, fun path h hnone => ?_,
    fun path leaf h hleaf hprefix => ?_⟩
  · cases path with
    | nil => cases h
    | cons key path =>
      obtain ⟨tree, htree, ha⟩ := Option.bind_eq_some_iff.mp h
      obtain ⟨c, hc, hmerged⟩ := hin key tree htree
      rw [Tree.follow_mapping_cons, hc]
      exact hmerged.leaf path a ha
  · cases path with
    | nil => exact Or.inr ⟨hroot, rfl⟩
    | cons key path =>
      obtain ⟨tree, htree, ha⟩ := Option.bind_eq_some_iff.mp h
      obtain ⟨c, hc, hmerged⟩ := hin key tree htree
      rw [Tree.follow_mapping_cons, hc, hold]
      exact hmerged.inner path ha
  · cases path with
    | nil => cases h
    | cons key path =>
      rw [Tree.follow_mapping_cons, hold]
      cases htree : entries.lookup key with
      | none => rw [hout key htree]
      | some tree =>
        obtain ⟨c, hc, hmerged⟩ := hin key tree htree
        rw [Tree.follow_mapping_cons, htree] at h
        rw [hc]
        refine hmerged.outside path h fun leaf hleaf hprefix => ?_
        exact hnone (key :: leaf) ((isLeaf_cons htree).mpr hleaf)
          (List.cons_prefix_cons.mpr ⟨rfl, hprefix⟩)
  · cases leaf with
    | nil =>
      obtain ⟨a, ha⟩ := hleaf
      cases ha
    | cons key leaf =>
      obtain ⟨rest, rfl⟩ := hprefix
      obtain ⟨a, ha⟩ := hleaf
      obtain ⟨tree, htree, ha⟩ := Option.bind_eq_some_iff.mp ha
      obtain ⟨c, hc, hmerged⟩ := hin key tree htree
      rw [List.cons_append, Tree.follow_mapping_cons] at h ⊢
      rw [htree] at h
      rw [hc]
      exact hmerged.below (leaf ++ rest) leaf h ⟨a, ha⟩ ⟨rest, rfl⟩

theorem mergedOver_of_mergeOver (hdistinct : update.Distinct)
    (h : update.mergeOver master = some merged) : MergedOver update master merged := by
  induction update using Tree.lookup_induction generalizing master merged with
  | value a =>
    obtain rfl := Option.some.inj h
    refine ⟨fun _ _ h => h, fun path hpath => ?_, fun path _ hnone => ?_, fun _ _ h _ _ => h⟩
    · cases path <;> cases hpath
    · exact absurd (List.nil_prefix) (hnone [] ⟨a, rfl⟩)
  | mapping entries ih =>
    have hentries : entries.Distinct := hdistinct
    rcases mergeOver_cases entries master with ⟨b, rfl⟩ | ⟨old, heq, hold, hroot⟩
    · cases entries with
      | cons key tree rest => cases h
      | nil =>
        obtain rfl := Option.some.inj h
        exact mergedOver_value b
    · rw [heq] at h
      obtain ⟨result, rfl, hin, hout⟩ := mergeInto_mapping hentries h
      refine mergedOver_mapping hold hroot (fun key tree htree => ?_) hout
      obtain ⟨c, hc, hresult⟩ := hin key tree htree
      exact ⟨c, hresult, ih key tree htree (hentries.of_lookup htree) hc⟩

/-! ## The law -/

theorem mergeInto_eq_mergeOver (entries : Forest κ α) (master : Tree κ α) :
    entries.mergeInto master = (Tree.mapping entries).mergeOver (some master) := rfl

/-- Where it is defined, the merge obeys its law. -/
theorem merged_of_mergeInto (hdistinct : entries.Distinct) {master : Tree κ α}
    (h : entries.mergeInto master = some merged) : Merged (.mapping entries) master merged := by
  have hupdate : (Tree.mapping entries).Distinct := hdistinct
  have hmerged : MergedOver (.mapping entries) (some master) merged :=
    mergedOver_of_mergeOver hupdate h
  refine ⟨hmerged.leaf, fun path node hnode hapart => ?_, fun path node hnode => ?_⟩
  · cases hupdate : (Tree.mapping entries).follow path with
    | none =>
      rw [hmerged.outside path hupdate fun leaf hleaf => (hapart leaf hleaf).1]
      exact hnode
    | some found =>
      cases found with
      | value a => exact absurd List.prefix_rfl (hapart path ⟨a, hupdate⟩).1
      | mapping =>
        rcases hmerged.inner path hupdate with ⟨b, hb, hvalue⟩ | ⟨hno, hmapping⟩
        · rw [hvalue, ← hb]
          exact hnode
        · cases node with
          | value b => exact absurd hnode (hno b)
          | mapping => exact hmapping
  · cases hupdate : (Tree.mapping entries).follow path with
    | none =>
      by_cases hbelow : ∃ leaf, (Tree.mapping entries).IsLeaf leaf ∧ leaf <+: path
      · obtain ⟨leaf, hleaf, hprefix⟩ := hbelow
        rw [hmerged.below path leaf hupdate hleaf hprefix] at hnode
        cases hnode
      · have hnone : ∀ leaf, (Tree.mapping entries).IsLeaf leaf → ¬ leaf <+: path :=
          fun leaf hleaf hprefix => hbelow ⟨leaf, hleaf, hprefix⟩
        rw [hmerged.outside path hupdate hnone] at hnode
        exact Or.inr ⟨hnode, hnone⟩
    | some found =>
      cases found with
      | value a =>
        rw [hmerged.leaf path a hupdate] at hnode
        exact Or.inl hnode
      | mapping =>
        rcases hmerged.inner path hupdate with ⟨b, hb, hvalue⟩ | ⟨hno, hmapping⟩
        · rw [hvalue] at hnode
          refine Or.inr ⟨hnode ▸ hb, fun leaf hleaf hprefix => ?_⟩
          obtain rfl := Tree.eq_of_isLeaf_prefix hleaf hupdate hprefix
          obtain ⟨a, ha⟩ := hleaf
          rw [hupdate] at ha
          cases ha
        · rw [hmapping] at hnode
          exact Or.inl hnode

/-! ## Where the merge is defined -/

theorem forest_eq_nil_of_lookup (h : ∀ key, entries.lookup key = none) : entries = .nil := by
  cases entries with
  | nil => rfl
  | cons key tree rest =>
    have hkey := h key
    rw [Forest.lookup_cons_self] at hkey
    cases hkey

/-- The merge is defined exactly where the update has no entry below a plain value. -/
theorem mergeOver_isSome_iff (hdistinct : update.Distinct) :
    (update.mergeOver master).isSome ↔
      ∀ path key b, master.bind (·.follow path) = some (.value b) →
        update.follow (path ++ [key]) = none := by
  induction update using Tree.lookup_induction generalizing master with
  | value a =>
    refine iff_of_true rfl fun path key b _ => ?_
    cases path <;> rfl
  | mapping entries ih =>
    have hentries : entries.Distinct := hdistinct
    rcases mergeOver_cases entries master with ⟨b, rfl⟩ | ⟨old, heq, hold, hroot⟩
    · constructor
      · intro h path key c hc
        cases entries with
        | nil => cases path <;> rfl
        | cons first tree rest => cases h
      · intro h
        have hnil : entries = .nil := by
          refine forest_eq_nil_of_lookup fun key => ?_
          have hkey := h [] key b rfl
          cases htree : entries.lookup key with
          | none => rfl
          | some tree =>
            obtain ⟨node, hnode⟩ := tree.exists_follow_nil
            rw [List.nil_append, Tree.follow_mapping_cons, htree, Option.bind_some, hnode]
              at hkey
            cases hkey
        rw [hnil]
        rfl
    · rw [heq, mergeInto_mapping_isSome_iff hentries]
      constructor
      · intro h path key b hb
        cases path with
        | nil => exact absurd hb (hroot b)
        | cons first path =>
          rw [hold] at hb
          rw [List.cons_append, Tree.follow_mapping_cons]
          cases htree : entries.lookup first with
          | none => rfl
          | some tree =>
            have hsome := h first tree htree
            rw [ih first tree htree (hentries.of_lookup htree)] at hsome
            exact hsome path key b hb
      · intro h first tree htree
        rw [ih first tree htree (hentries.of_lookup htree)]
        intro path key b hb
        have hnone := h (first :: path) key b (by rw [hold]; exact hb)
        rwa [List.cons_append, Tree.follow_mapping_cons, htree, Option.bind_some] at hnone

theorem mergeInto_isSome_iff (hdistinct : entries.Distinct) {master : Tree κ α} :
    (entries.mergeInto master).isSome ↔ NoClash (.mapping entries) master := by
  have hupdate : (Tree.mapping entries).Distinct := hdistinct
  have h : ((Tree.mapping entries).mergeOver (some master)).isSome ↔ _ :=
    mergeOver_isSome_iff hupdate
  refine h.trans ⟨?_, ?_⟩
  · rintro h path key ⟨b, hb⟩
    exact h path key b hb
  · intro h path key b hb
    exact h path key ⟨b, hb⟩

/-! ## Merging again -/

/-- Merging the same update once more changes nothing. -/
theorem mergeOver_again (hdistinct : update.Distinct) (h : update.mergeOver master = some merged) :
    update.mergeOver (some merged) = some merged := by
  induction update using Tree.lookup_induction generalizing master merged with
  | value a => exact h
  | mapping entries ih =>
    have hentries : entries.Distinct := hdistinct
    rcases mergeOver_cases entries master with ⟨b, rfl⟩ | ⟨old, heq, _, _⟩
    · cases entries with
      | cons key tree rest => cases h
      | nil => rfl
    · rw [heq] at h
      obtain ⟨result, rfl, hin, _⟩ := mergeInto_mapping hentries h
      refine mergeInto_of_fixed hentries fun key tree htree => ?_
      obtain ⟨c, hc, hresult⟩ := hin key tree htree
      exact ⟨c, hresult, ih key tree htree (hentries.of_lookup htree) hc⟩

/-! ## Merging into nothing -/

mutual

/-- Merging into nothing copies. -/
theorem mergeOver_none :
    ∀ {update : Tree κ α}, update.Distinct → update.mergeOver none = some update
  | .value _, _ => rfl
  | .mapping entries, hdistinct => by
      have hentries : entries.Distinct := hdistinct
      exact mergeInto_append hentries fun _ _ => List.not_mem_nil

theorem mergeInto_append : ∀ {entries before : Forest κ α}, entries.Distinct →
    (∀ key ∈ entries.keys, key ∉ before.keys) →
      entries.mergeInto (.mapping before) = some (.mapping (before.append entries))
  | .nil, before, _, _ => by rw [Forest.mergeInto, Forest.append_nil]
  | .cons key tree rest, before, hdistinct, hnew => by
      obtain ⟨hkey, htree, hrest⟩ := hdistinct
      have hnotin : key ∉ before.keys := hnew key List.mem_cons_self
      rw [Forest.mergeInto, Forest.lookup_eq_none_iff.mpr hnotin, mergeOver_none htree,
        Option.bind_some, Forest.insert_of_not_mem hnotin, mergeInto_append hrest,
        Forest.append_assoc, Forest.append, Forest.append]
      intro other hother hmem
      rw [Forest.keys_append, List.mem_append] at hmem
      rcases hmem with h | h
      · exact hnew other (List.mem_cons_of_mem _ hother) h
      · rcases List.mem_singleton.mp h with rfl
        exact hkey hother

end

/-! ## Distinct keys -/

mutual

theorem distinct_mergeOver : ∀ {update : Tree κ α} {master : Option (Tree κ α)}
    {merged : Tree κ α}, update.Distinct → (∀ tree, master = some tree → tree.Distinct) →
      update.mergeOver master = some merged → merged.Distinct
  | .value a, _, _, _, _, h => by
      obtain rfl := Option.some.inj h
      trivial
  | .mapping entries, master, _, hdistinct, hmaster, h => by
      refine distinct_mergeInto hdistinct ?_ h
      cases master with
      | none => trivial
      | some tree => exact hmaster tree rfl

theorem distinct_mergeInto : ∀ {entries : Forest κ α} {master merged : Tree κ α},
    entries.Distinct → master.Distinct → entries.mergeInto master = some merged → merged.Distinct
  | .nil, _, _, _, hmaster, h => by
      obtain rfl := Option.some.inj h
      exact hmaster
  | .cons _ _ _, .value _, _, _, _, h => by cases h
  | .cons key tree rest, .mapping old, merged, hdistinct, hmaster, h => by
      obtain ⟨_, htree, hrest⟩ := hdistinct
      have hold : old.Distinct := hmaster
      obtain ⟨c, hc, hmerged⟩ := Option.bind_eq_some_iff.mp h
      have hdistinctC : c.Distinct :=
        distinct_mergeOver htree (fun _ hlookup => hold.of_lookup hlookup) hc
      have hinsert : (old.insert key c).Distinct := Forest.Distinct.insert hdistinctC hold
      exact distinct_mergeInto hrest (show (Tree.mapping (old.insert key c)).Distinct from hinsert)
        hmerged

end

end OvirtArt.Foundation
