import OvirtArt.Foundation.DeepMerge
import OvirtArt.Foundation.Effects
import OvirtArt.Foundation.ObjectHeap

set_option autoImplicit false

/-!
# `test_handler/settings.py`: `update_dict`

The function as it works on dictionaries that are objects: it goes down the update
and writes into the objects of the master.  It refines the deep merge of trees.

The limit of recursion is a parameter.  Two dictionaries that share an object are not stored
apart, and the refinement says nothing of them; the condition on clashes is on the two trees.
-/

namespace OvirtArt.TestHandler

open OvirtArt.Foundation

variable {α : Type}

/-- The exceptions of `update_dict`. -/
inductive PyError where
  | attributeError
  | typeError
  /-- `maximum recursion depth exceeded`. -/
  | runtimeError
  deriving DecidableEq

/-- A function on mutable dictionaries, which may raise. -/
abbrev Dicts (α : Type) := EStateM PyError (Heap String α)

/-- `{}`. -/
def newDict : Dicts α Nat := do
  let heap ← get
  set heap.alloc
  pure heap.next

/-- `master.get(k, {})`. -/
def getDefault (master : Slot α) (k : String) : Dicts α (Slot α) :=
  match master with
  | .value _ => throw .attributeError
  | .ref r => do
      let default ← newDict
      let heap ← get
      pure (((heap.cells r).get k).getD (.ref default))

/-- `master[k] = v`. -/
def setItem (master : Slot α) (k : String) (v : Slot α) : Dicts α Unit :=
  match master with
  | .value _ => throw .typeError
  | .ref r => modify fun heap => heap.write r ((heap.cells r).put k v)

/-- One turn of the loop of `update_dict`, which calls itself for a mapping. -/
def updateItem (recurse : Slot α → Nat → Dicts α (Slot α)) (master : Slot α) :
    String × Slot α → Dicts α Unit
  | (k, .value a) => setItem master k (.value a)
  | (k, .ref v) => do
      let sub ← getDefault master k
      let r ← recurse sub v
      setItem master k r

/-- The loop of `update_dict`. -/
def updateItems (recurse : Slot α → Nat → Dicts α (Slot α)) (master : Slot α) :
    Items String α → Dicts α Unit
  | [] => pure ()
  | item :: items => do
      updateItem recurse master item
      updateItems recurse master items

/-- `update_dict`, with so many calls that the interpreter allows inside each other.  The
items of the update are read once: nothing that is done on the way changes them. -/
def updateDict : Nat → Slot α → Nat → Dicts α (Slot α)
  | 0, _, _ => throw .runtimeError
  | calls + 1, master, update => do
      let heap ← get
      updateItems (updateDict calls) master (heap.cells update)
      pure master

/-! ## Against the deep merge -/

/-- The computation changes the region of the master only, and leaves the expected tree
there; where there is none, it raises. -/
def Reaches {β : Type} (m : Dicts α β) (heap : Heap String α) (master : Slot α)
    (region : Set Nat) (expected : Option (Tree String α)) : Prop :=
  match m.run heap with
  | .ok _ heap' => Heap.Kept region heap heap' ∧ ∃ tree, expected = some tree ∧
      tree.StoredAt heap' master (Heap.grown region heap heap')
  | .error _ heap' => Heap.Kept region heap heap' ∧ expected = none

/-- What `update_dict` does with an update of this depth at most, wherever it and the
master are stored: it returns the master, and that is the merge of the two. -/
structure Updates (recurse : Slot α → Nat → Dicts α (Slot α)) (depth : Nat) : Prop where
  returns : ∀ {master : Slot α} {update : Nat} {heap heap' : Heap String α} {slot : Slot α},
    (recurse master update).run heap = .ok slot heap' → slot = master
  reaches : ∀ {entries : Forest String α} {tree : Tree String α} {heap : Heap String α}
    {master : Slot α} {update : Nat} {region others : Set Nat},
      (Tree.mapping entries).depth ≤ depth →
        (Tree.mapping entries).StoredAt heap (.ref update) others →
          tree.StoredAt heap master region → Disjoint region others →
            (∀ r ∈ region ∪ others, r < heap.next) →
              Reaches (recurse master update) heap master region (entries.mergeInto tree)

section

variable {heap : Heap String α} {master : Forest String α} {region others : Set Nat}

theorem run_getDefault (r : Nat) (k : String) (heap : Heap String α) :
    (getDefault (.ref r) k).run heap =
      .ok (((heap.alloc.cells r).get k).getD (.ref heap.next)) heap.alloc := rfl

variable {recurse : Slot α → Nat → Dicts α (Slot α)} {r : Nat}

/-- Writing what the key is to hold, after a change of what it held. -/
theorem stored_write {heap' : Heap String α} {k : String} {slot : Slot α} {tree : Tree String α}
    {inner part new : Set Nat} (hr : r ∈ region) (hout : r ∉ inner) (hinner : inner ⊆ region)
    (hbound : ∀ x ∈ region, x < heap.next) (hfocus : Focus heap master (heap.cells r) inner k part)
    (hkept : Heap.Kept part heap heap') (htree : tree.StoredAt heap' slot new)
    (hnew : new ⊆ Heap.grown part heap heap') :
    Heap.Kept region heap (heap'.write r ((heap'.cells r).put k slot)) ∧
      (Tree.mapping (master.insert k tree)).StoredAt
        (heap'.write r ((heap'.cells r).put k slot)) (.ref r)
        (Heap.grown region heap (heap'.write r ((heap'.cells r).put k slot))) := by
  have hpart : r ∉ part := fun h => hout (hfocus.sub h)
  have hsame : heap'.cells r = heap.cells r := hkept.cells r (hbound r hr) hpart
  have hnot : ∀ x ∈ inner, x ∉ part → x ∉ new := by
    intro x hx hxpart hxnew
    rcases hnew hxnew with h | h
    · exact hxpart h
    · exact absurd (hbound x (hinner hx)) (Nat.not_lt.mpr h.1)
  have hrnew : r ∉ new := by
    intro h
    rcases hnew h with h | h
    · exact hpart h
    · exact absurd (hbound r hr) (Nat.not_lt.mpr h.1)
  have hstored : (master.insert k tree).StoredIn
      (heap'.write r ((heap'.cells r).put k slot)) ((heap.cells r).put k slot)
      (new ∪ inner \ part) := by
    refine hfocus.put (fun x hx => ?_) (htree.transport (fun x hx => ?_) subset_rfl) ?_
      Set.subset_union_left Set.subset_union_right
    · have hne : x ≠ r := fun h => hout (h ▸ hx.1)
      rw [Heap.cells_write_of_ne _ hne, hkept.cells x (hbound x (hinner hx.1)) hx.2]
    · refine Heap.cells_write_of_ne _ ?_ _
      rintro rfl
      exact hrnew hx
    · exact Set.disjoint_right.mpr fun x hx => hnot x hx.1 hx.2
  constructor
  · refine ⟨hkept.next, fun x hx hxout => ?_⟩
    have hne : x ≠ r := fun h => hxout (h ▸ hr)
    rw [Heap.cells_write_of_ne _ hne]
    exact hkept.cells x hx fun h => hxout (hinner (hfocus.sub h))
  · refine ⟨r, new ∪ inner \ part, rfl, Or.inl hr, ?_, ?_, ?_⟩
    · rintro (h | h)
      · exact hrnew h
      · exact hout h.1
    · rintro x (h | h)
      · rcases hnew h with h | h
        · exact Or.inl (hinner (hfocus.sub h))
        · exact Or.inr h
      · exact Or.inl (hinner h.1)
    · have hitems : (heap'.write r ((heap'.cells r).put k slot)).cells r =
          (heap.cells r).put k slot := by rw [Heap.cells_write_self, hsame]
      rw [hitems]
      exact hstored

theorem reaches_updateItem_value (recurse : Slot α → Nat → Dicts α (Slot α)) (k : String) (a : α)
    (hmaster : (Tree.mapping master).StoredAt heap (.ref r) region)
    (hbound : ∀ x ∈ region, x < heap.next) :
    Reaches (updateItem recurse (.ref r) (k, .value a)) heap (.ref r) region
      (some (.mapping (master.insert k (.value a)))) := by
  obtain ⟨_, inner, hslot, hr, hout, hinner, hentries⟩ := hmaster
  obtain rfl := Slot.ref.inj hslot
  obtain ⟨part, hfocus⟩ := exists_focus k hentries
  have hvalue : (Tree.value a : Tree String α).StoredAt heap (.value a) ∅ := rfl
  have hwrite := stored_write hr hout hinner hbound hfocus (Heap.Kept.refl part heap) hvalue
    (Set.empty_subset _)
  exact ⟨hwrite.1, _, rfl, hwrite.2⟩

/-- One computation after the other on the same master. -/
theorem Reaches.bind {β γ : Type} {m : Dicts α β} {rest : β → Dicts α γ} {slot : Slot α}
    {expected : Option (Tree String α)} {next : Tree String α → Option (Tree String α)}
    (hm : Reaches m heap slot region expected)
    (hrest : ∀ b heap' tree, Heap.Kept region heap heap' →
      tree.StoredAt heap' slot (Heap.grown region heap heap') →
        Reaches (rest b) heap' slot (Heap.grown region heap heap') (next tree)) :
    Reaches (m >>= rest) heap slot region (expected.bind next) := by
  unfold Reaches at hm
  unfold Reaches at hrest ⊢
  rw [EStateM.run_bind]
  cases hrun : m.run heap with
  | error e heap' =>
    simp only [hrun] at hm ⊢
    obtain ⟨hkept, rfl⟩ := hm
    exact ⟨hkept, rfl⟩
  | ok b heap' =>
    simp only [hrun] at hm ⊢
    obtain ⟨hkept, tree, rfl, hstored⟩ := hm
    have hlast := hrest b heap' tree hkept hstored
    cases hnext : (rest b).run heap' with
    | error e heap'' =>
      simp only [hnext] at hlast ⊢
      exact ⟨hkept.trans hlast.1, hlast.2⟩
    | ok c heap'' =>
      simp only [hnext] at hlast ⊢
      obtain ⟨hkept', merged, hmerged, hstored'⟩ := hlast
      refine ⟨hkept.trans hkept', merged, hmerged, ?_⟩
      rwa [Heap.grown_grown hkept.next hkept'.next] at hstored'

/-- What is at the key, or a new dictionary: stored in a part that belongs to the key. -/
theorem stored_getDefault {k : String} {inner part : Set Nat} (hr : r < heap.next)
    (hbound : ∀ x ∈ inner, x < heap.next) (hfocus : Focus heap master (heap.cells r) inner k part) :
    ∃ region', ((master.lookup k).getD (.mapping .nil)).StoredAt heap.alloc
        (((heap.alloc.cells r).get k).getD (.ref heap.next)) region' ∧
      region' ⊆ Heap.grown part heap heap.alloc := by
  rw [Heap.cells_alloc_of_lt heap hr]
  cases hlookup : master.lookup k with
  | none =>
    rw [hfocus.absent hlookup]
    refine ⟨{heap.next}, ⟨heap.next, ∅, rfl, rfl, Set.notMem_empty _, Set.empty_subset _,
      Heap.cells_alloc_self heap⟩, ?_⟩
    rintro x rfl
    exact Or.inr ⟨Nat.le_refl _, Nat.lt_succ_self _⟩
  | some tree =>
    obtain ⟨slot, hget, htree⟩ := hfocus.present tree hlookup
    rw [hget]
    refine ⟨part, htree.transport (fun x hx => ?_) subset_rfl, Heap.subset_grown _ _ _⟩
    exact Heap.cells_alloc_of_lt heap (hbound x (hfocus.sub hx))

theorem reaches_updateItem_ref {depth : Nat} (hrecurse : Updates recurse depth) {v : Nat}
    (k : String) {entries : Forest String α} (hdepth : (Tree.mapping entries).depth ≤ depth)
    (hupdate : (Tree.mapping entries).StoredAt heap (.ref v) others)
    (hmaster : (Tree.mapping master).StoredAt heap (.ref r) region) (hdisj : Disjoint region others)
    (hbound : ∀ x ∈ region ∪ others, x < heap.next) :
    Reaches (updateItem recurse (.ref r) (k, .ref v)) heap (.ref r) region
      (((Tree.mapping entries).mergeOver (master.lookup k)).map fun merged =>
        .mapping (master.insert k merged)) := by
  have hregion : ∀ x ∈ region, x < heap.next := fun x hx => hbound x (Or.inl hx)
  have hothers : ∀ x ∈ others, x < heap.next := fun x hx => hbound x (Or.inr hx)
  obtain ⟨_, inner, hslot, hr, hout, hinner, hentries⟩ := hmaster
  obtain rfl := Slot.ref.inj hslot
  obtain ⟨part, hfocus⟩ := exists_focus k hentries
  obtain ⟨region', hsub, hgrown⟩ := stored_getDefault (hregion r hr)
    (fun x hx => hregion x (hinner hx)) hfocus
  have hpart : part ⊆ region := hfocus.sub.trans hinner
  have halloc : Heap.Kept part heap heap.alloc := Heap.kept_alloc part heap
  have hupdate' : (Tree.mapping entries).StoredAt heap.alloc (.ref v) others :=
    hupdate.transport (fun x hx => Heap.cells_alloc_of_lt heap (hothers x hx)) subset_rfl
  have hdisj' : Disjoint region' others := by
    refine Set.disjoint_left.mpr fun x hx hxothers => ?_
    rcases hgrown hx with h | h
    · exact Set.disjoint_left.mp hdisj (hpart h) hxothers
    · exact absurd (hothers x hxothers) (Nat.not_lt.mpr h.1)
  have hbound' : ∀ x ∈ region' ∪ others, x < heap.alloc.next := by
    rintro x (hx | hx)
    · rcases hgrown hx with h | h
      · exact Nat.lt_succ_of_lt (hregion x (hpart h))
      · exact h.2
    · exact Nat.lt_succ_of_lt (hothers x hx)
  have hreaches := hrecurse.reaches hdepth hupdate' hsub hdisj' hbound'
  unfold Reaches at hreaches ⊢
  rw [updateItem, EStateM.run_bind, run_getDefault]
  simp only
  rw [EStateM.run_bind, Tree.mergeOver]
  cases hrun : (recurse (((heap.alloc.cells r).get k).getD (.ref heap.next)) v).run heap.alloc with
  | error e heap' =>
    simp only [hrun] at hreaches ⊢
    obtain ⟨hkept, hnone⟩ := hreaches
    rw [hnone]
    exact ⟨(halloc.trans (hkept.mono hgrown)).mono hpart, rfl⟩
  | ok slot heap' =>
    simp only [hrun] at hreaches ⊢
    obtain ⟨hkept, merged, hmerged, hstored⟩ := hreaches
    obtain rfl := hrecurse.returns hrun
    rw [hmerged]
    have hwrite := stored_write hr hout hinner hregion hfocus (halloc.trans (hkept.mono hgrown))
      hstored (Heap.grown_subset hgrown halloc.next hkept.next)
    exact ⟨hwrite.1, _, rfl, hwrite.2⟩

/-- A plain value has no items to be set. -/
theorem reaches_updateItem_of_value (recurse : Slot α → Nat → Dicts α (Slot α)) (b : α)
    (item : String × Slot α) :
    Reaches (updateItem recurse (.value b) item) heap (.value b) region none := by
  obtain ⟨k, slot⟩ := item
  cases slot with
  | value a => exact ⟨Heap.Kept.refl _ _, rfl⟩
  | ref v => exact ⟨Heap.Kept.refl _ _, rfl⟩

theorem reaches_item {recurse : Slot α → Nat → Dicts α (Slot α)} {depth : Nat}
    (hrecurse : Updates recurse depth) {k : String} {v slot : Slot α} {first tree : Tree String α}
    (hdepth : first.depth ≤ depth) (hfirst : first.StoredAt heap v others)
    (htree : tree.StoredAt heap slot region) (hdisj : Disjoint region others)
    (hbound : ∀ x ∈ region ∪ others, x < heap.next) :
    Reaches (updateItem recurse slot (k, v)) heap slot region
      (match tree with
        | .value _ => none
        | .mapping master => (first.mergeOver (master.lookup k)).map fun merged =>
          .mapping (master.insert k merged)) := by
  cases tree with
  | value b =>
    obtain rfl : slot = .value b := htree
    exact reaches_updateItem_of_value recurse b (k, v)
  | mapping master =>
    obtain ⟨r, hr⟩ : ∃ r, slot = .ref r := by
      obtain ⟨r, _, hslot, _⟩ := htree
      exact ⟨r, hslot⟩
    subst hr
    cases first with
    | value a =>
      obtain rfl : v = .value a := hfirst
      exact reaches_updateItem_value recurse k a htree fun x hx => hbound x (Or.inl hx)
    | mapping entries =>
      obtain ⟨w, hw⟩ : ∃ w, v = .ref w := by
        obtain ⟨w, _, hslot, _⟩ := hfirst
        exact ⟨w, hslot⟩
      subst hw
      exact reaches_updateItem_ref hrecurse k hdepth hfirst htree hdisj hbound

/-- The loop over the items, by recursion on the entries that they store. -/
theorem reaches_updateItems {depth : Nat} (hrecurse : Updates recurse depth) :
    ∀ {entries : Forest String α} {items : Items String α} {tree : Tree String α}
      {heap : Heap String α} {slot : Slot α} {region others : Set Nat}, entries.depth ≤ depth →
        entries.StoredIn heap items others → tree.StoredAt heap slot region →
          Disjoint region others → (∀ r ∈ region ∪ others, r < heap.next) →
            Reaches (updateItems recurse slot items) heap slot region (entries.mergeInto tree)
  | .nil, items, tree, heap, slot, region, others, _, hitems, htree, _, _ => by
      obtain rfl : items = [] := hitems
      exact ⟨Heap.Kept.refl _ _, tree, rfl,
        htree.transport (fun _ _ => rfl) (Heap.subset_grown _ _ _)⟩
  | .cons k first rest, items, tree, heap, slot, region, others, hdepth, hitems, htree, hdisj,
      hbound => by
      obtain ⟨v, more, part, parts, rfl, _, hfirst, hrest, _, hpart, hparts⟩ := hitems
      obtain ⟨hdepthFirst, hdepthRest⟩ := Nat.max_le.mp hdepth
      have hregion : ∀ x ∈ region, x < heap.next := fun x hx => hbound x (Or.inl hx)
      have hpartsBound : ∀ x ∈ parts, x < heap.next := fun x hx => hbound x (Or.inr (hparts hx))
      have hitem := @reaches_item α heap region part recurse depth hrecurse k v slot first tree
        hdepthFirst hfirst htree (hdisj.mono_right hpart) fun x hx =>
          hbound x (hx.imp_right fun h => hpart h)
      have hloop := hitem.bind fun u heap' tree' hkept hstored => by
        have hrest' : rest.StoredIn heap' more parts := by
          refine hrest.transport (fun x hx => hkept.cells x (hpartsBound x hx) ?_) subset_rfl
          exact fun h => Set.disjoint_left.mp hdisj h (hparts hx)
        have hdisj' : Disjoint (Heap.grown region heap heap') parts := by
          refine Set.disjoint_left.mpr fun x hx hxparts => ?_
          rcases hx with h | h
          · exact Set.disjoint_left.mp hdisj h (hparts hxparts)
          · exact absurd (hpartsBound x hxparts) (Nat.not_lt.mpr h.1)
        have hbound' : ∀ x ∈ Heap.grown region heap heap' ∪ parts, x < heap'.next := by
          rintro x ((hx | hx) | hx)
          · exact Nat.lt_of_lt_of_le (hregion x hx) hkept.next
          · exact hx.2
          · exact Nat.lt_of_lt_of_le (hpartsBound x hx) hkept.next
        exact reaches_updateItems hrecurse hdepthRest hrest' hstored hdisj' hbound'
      cases tree with
      | value b => exact hloop
      | mapping master =>
        rw [Option.bind_map] at hloop
        exact hloop

theorem updates_updateDict : ∀ calls, Updates (updateDict calls : Slot α → Nat → _) calls
  | 0 => by
      refine ⟨(fun h => by cases h), fun hdepth => ?_⟩
      exact absurd hdepth (Nat.not_succ_le_zero _)
  | calls + 1 => by
      constructor
      · intro master update heap heap' slot hrun
        rw [updateDict, EStateM.run_bind, EStateM.run_get] at hrun
        simp only at hrun
        rw [EStateM.run_bind] at hrun
        cases hloop : (updateItems (updateDict calls) master (heap.cells update)).run heap with
        | error e heap'' =>
          simp only [hloop] at hrun
          cases hrun
        | ok u heap'' =>
          simp only [hloop] at hrun
          exact (EStateM.Result.ok.inj hrun).1.symm
      · intro entries tree heap master update region others hdepth hupdate htree hdisj hbound
        obtain ⟨_, inner, hslot, _, _, hinner, hentries⟩ := hupdate
        obtain rfl := Slot.ref.inj hslot
        have hloop := reaches_updateItems (updates_updateDict calls) (Nat.le_of_succ_le_succ hdepth)
          hentries htree (hdisj.mono_right hinner) fun x hx =>
            hbound x (hx.imp_right fun h => hinner h)
        have hend : ∀ (_ : Unit) heap' tree', Heap.Kept region heap heap' →
            tree'.StoredAt heap' master (Heap.grown region heap heap') →
              Reaches (pure master : Dicts α (Slot α)) heap' master
                (Heap.grown region heap heap') (some tree') :=
          fun _ heap' tree' _ hstored => ⟨Heap.Kept.refl _ _, tree', rfl,
            hstored.transport (fun _ _ => rfl) (Heap.subset_grown _ _ _)⟩
        have hall := hloop.bind hend
        rw [Option.bind_fun_some] at hall
        exact hall

end

/-! ## The law of `update_dict` -/

/-- The master and the update are these two trees, with no object in common. -/
def Apart (heap : Heap String α) (master update : Nat) (before entries : Forest String α) :
    Prop :=
  ∃ region others, (Tree.mapping before).StoredAt heap (.ref master) region ∧
    (Tree.mapping entries).StoredAt heap (.ref update) others ∧ Disjoint region others ∧
      ∀ r ∈ region ∪ others, r < heap.next

/-- The call returns the master, which is then the merge of the two by the law, and the
update is as it was; the same call once more changes nothing. -/
def UpdateRight (calls : Nat) (heap : Heap String α) (master update : Nat)
    (before entries : Forest String α) : Prop :=
  ∃ heap' merged, (updateDict calls (.ref master) update).run heap = .ok (.ref master) heap' ∧
    Apart heap' master update merged entries ∧
    Merged (.mapping entries) (.mapping before) (.mapping merged) ∧
    ∃ heap'', (updateDict calls (.ref master) update).run heap' = .ok (.ref master) heap'' ∧
      Apart heap'' master update merged entries

section

variable {calls : Nat} {heap : Heap String α} {master update : Nat}
  {before entries : Forest String α}

/-- What a call that returns has done. -/
theorem apart_of_run_ok (h : Apart heap master update before entries)
    (hcalls : (Tree.mapping entries).depth ≤ calls) {slot : Slot α} {heap' : Heap String α}
    (hrun : (updateDict calls (.ref master) update).run heap = .ok slot heap') :
    slot = .ref master ∧ ∃ merged, entries.mergeInto (.mapping before) = some (.mapping merged) ∧
      Apart heap' master update merged entries := by
  obtain ⟨region, others, hmaster, hupdate, hdisj, hbound⟩ := h
  have hreaches := (updates_updateDict calls).reaches hcalls hupdate hmaster hdisj hbound
  unfold Reaches at hreaches
  simp only [hrun] at hreaches
  obtain ⟨hkept, tree, htree, hstored⟩ := hreaches
  refine ⟨(updates_updateDict calls).returns hrun, ?_⟩
  cases tree with
  | value a => cases hstored
  | mapping merged =>
    refine ⟨merged, htree, Heap.grown region heap heap', others, hstored, ?_, ?_, ?_⟩
    · refine hupdate.transport (fun x hx => hkept.cells x (hbound x (Or.inr hx)) ?_) subset_rfl
      exact fun h => Set.disjoint_left.mp hdisj h hx
    · refine Set.disjoint_left.mpr fun x hx hxothers => ?_
      rcases hx with h | h
      · exact Set.disjoint_left.mp hdisj h hxothers
      · exact absurd (hbound x (Or.inr hxothers)) (Nat.not_lt.mpr h.1)
    · rintro x ((hx | hx) | hx)
      · exact Nat.lt_of_lt_of_le (hbound x (Or.inl hx)) hkept.next
      · exact hx.2
      · exact Nat.lt_of_lt_of_le (hbound x (Or.inr hx)) hkept.next

/-- The call returns where the merge is defined. -/
theorem run_ok_of_isSome (h : Apart heap master update before entries)
    (hcalls : (Tree.mapping entries).depth ≤ calls)
    (hsome : (entries.mergeInto (.mapping before)).isSome) :
    ∃ slot heap', (updateDict calls (.ref master) update).run heap = .ok slot heap' := by
  obtain ⟨region, others, hmaster, hupdate, hdisj, hbound⟩ := h
  have hreaches := (updates_updateDict calls).reaches hcalls hupdate hmaster hdisj hbound
  unfold Reaches at hreaches
  cases hrun : (updateDict calls (.ref master) update).run heap with
  | ok slot heap' => exact ⟨slot, heap', rfl⟩
  | error e heap' =>
    simp only [hrun] at hreaches
    rw [hreaches.2] at hsome
    cases hsome

theorem distinct_of_apart (h : Apart heap master update before entries) : entries.Distinct := by
  obtain ⟨_, _, _, hupdate, _⟩ := h
  exact hupdate.distinct

/-- `update_dict` obeys the law of the deep merge exactly where the update has no entry
below a plain value of the master. -/
theorem update_right_iff_no_clash (h : Apart heap master update before entries)
    (hcalls : (Tree.mapping entries).depth ≤ calls) :
    UpdateRight calls heap master update before entries ↔
      NoClash (.mapping entries) (.mapping before) := by
  have hdistinct := distinct_of_apart h
  rw [← mergeInto_isSome_iff hdistinct]
  constructor
  · rintro ⟨heap', merged, hrun, _⟩
    obtain ⟨_, merged, hmerged, _⟩ := apart_of_run_ok h hcalls hrun
    rw [hmerged]
    rfl
  · intro hsome
    obtain ⟨slot, heap', hrun⟩ := run_ok_of_isSome h hcalls hsome
    obtain ⟨rfl, merged, hmerged, hapart⟩ := apart_of_run_ok h hcalls hrun
    have hagain : entries.mergeInto (.mapping merged) = some (.mapping merged) := by
      rw [mergeInto_eq_mergeOver] at hmerged ⊢
      have hupdate : (Tree.mapping entries).Distinct := hdistinct
      exact mergeOver_again hupdate hmerged
    obtain ⟨slot, heap'', hrun'⟩ := run_ok_of_isSome hapart hcalls (by rw [hagain]; rfl)
    obtain ⟨rfl, merged', hmerged', hapart'⟩ := apart_of_run_ok hapart hcalls hrun'
    obtain rfl : merged = merged' := by
      rw [hagain] at hmerged'
      exact Tree.mapping.inj (Option.some.inj hmerged')
    exact ⟨heap', merged, hrun, hapart, merged_of_mergeInto hdistinct hmerged, heap'', hrun',
      hapart'⟩

end

/-- A dictionary of one plain value. -/
theorem storedAt_oneVar {heap : Heap String α} {r : Nat} {var : String} {a : α}
    (h : heap.cells r = [(var, .value a)]) :
    (Tree.mapping (.cons var (.value a) .nil)).StoredAt heap (.ref r) {r} :=
  ⟨r, ∅, rfl, rfl, Set.notMem_empty _, Set.empty_subset _, _, _, ∅, ∅, h, List.not_mem_nil, rfl,
    rfl, Set.disjoint_empty _, subset_rfl, subset_rfl⟩

/-- A dictionary of one section. -/
theorem storedAt_oneSection {heap : Heap String α} {r inner : Nat} {name : String}
    {vars : Forest String α} (h : heap.cells r = [(name, .ref inner)])
    (hvars : (Tree.mapping vars).StoredAt heap (.ref inner) {inner}) (hne : r ≠ inner) :
    (Tree.mapping (.cons name (.mapping vars) .nil)).StoredAt heap (.ref r) {r, inner} :=
  ⟨r, {inner}, rfl, Or.inl rfl, hne, Set.subset_insert _ _, _, _, {inner}, ∅, h,
    List.not_mem_nil, hvars, rfl, Set.disjoint_empty _, subset_rfl, Set.empty_subset _⟩

/-- Two dictionaries: the first one has these items, and the second one a section with a
variable in it. -/
def twoDicts (items : Items String (Option Nat)) : Heap String (Option Nat) where
  next := 3
  cells r :=
    match r with
    | 0 => items
    | 1 => [("section", .ref 2)]
    | 2 => [("var", .value (some 1))]
    | _ => []

/-- The entries of the second of them. -/
def oneSection : Forest String (Option Nat) :=
  .cons "section" (.mapping (.cons "var" (.value (some 1)) .nil)) .nil

theorem apart_twoDicts {items : Items String (Option Nat)} {before : Forest String (Option Nat)}
    (hbefore : before.StoredIn (twoDicts items) items ∅) :
    Apart (twoDicts items) 0 1 before oneSection := by
  exact ⟨{0}, {1, 2}, ⟨0, ∅, rfl, rfl, Set.notMem_empty _, Set.empty_subset _, hbefore⟩,
    storedAt_oneSection rfl (storedAt_oneVar rfl) (by decide), by simp, by simp [twoDicts]⟩

/-- A section that the master does not have yet. -/
theorem update_right_iff_no_clash_new_section :
    UpdateRight 2 (twoDicts []) 0 1 .nil oneSection ↔
      NoClash (.mapping oneSection) (.mapping .nil) :=
  update_right_iff_no_clash (apart_twoDicts rfl) (by decide)

/-- A section without content, which the master has as `None`. -/
theorem empty_section_clashes :
    ¬ ∀ (calls : Nat) (heap : Heap String (Option Nat)) (master update : Nat)
      (before entries : Forest String (Option Nat)),
        Apart heap master update before entries → (Tree.mapping entries).depth ≤ calls →
          UpdateRight calls heap master update before entries := by
  intro hall
  have hbefore : (Forest.cons "section" (.value none) .nil).StoredIn
      (twoDicts [("section", .value none)]) [("section", .value none)] ∅ :=
    ⟨_, _, ∅, ∅, rfl, List.not_mem_nil, rfl, rfl, Set.disjoint_empty _, subset_rfl, subset_rfl⟩
  obtain ⟨heap', merged, hrun, _⟩ := hall 2 _ 0 1 _ _ (apart_twoDicts hbefore) (by decide)
  cases hrun

end OvirtArt.TestHandler
