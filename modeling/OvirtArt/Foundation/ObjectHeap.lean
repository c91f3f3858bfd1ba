import Mathlib.Data.Set.BooleanAlgebra
import Mathlib.Order.CompletePartialOrder
import OvirtArt.Foundation.Trees

set_option autoImplicit false

/-!
# Mappings as objects

A heap of mappings that refer to each other.  A tree is stored in a region of the
heap when its mappings are distinct objects of that region; a change outside the
region leaves it as it is, and a change at one key is a change of the tree at that key.

Objects are numbers and are never freed.  Two trees that are stored apart do not see each other's
changes, which is the frame rule of these heaps; trees that share an object are left out.
-/

namespace OvirtArt.Foundation

/-- What a key of an object holds. -/
inductive Slot (α : Type) where
  | value (a : α)
  | ref (r : Nat)
  deriving DecidableEq

/-- The items of an object. -/
abbrev Items (κ α : Type) := List (κ × Slot α)

namespace Items

variable {κ α : Type} [DecidableEq κ]

/-- The slot of a key. -/
def get (key : κ) : Items κ α → Option (Slot α)
  | [] => none
  | (other, slot) :: items => if key = other then some slot else get key items

/-- Writes a key: in its place if it is there, at the end otherwise. -/
def put (key : κ) (slot : Slot α) : Items κ α → Items κ α
  | [] => [(key, slot)]
  | (other, old) :: items =>
    if key = other then (other, slot) :: items else (other, old) :: put key slot items

theorem get_put_self (key : κ) (slot : Slot α) (items : Items κ α) :
    (items.put key slot).get key = some slot := by
  induction items with
  | nil => exact if_pos rfl
  | cons item items ih =>
    rw [put]
    split
    case isTrue h => exact if_pos h
    case isFalse h => rwa [get, if_neg h]

theorem get_put_of_ne {key other : κ} (slot : Slot α) (items : Items κ α) (h : other ≠ key) :
    (items.put key slot).get other = items.get other := by
  induction items with
  | nil => exact if_neg h
  | cons item items ih =>
    rw [put]
    split
    case isTrue hkey => rw [get, get, if_neg (hkey ▸ h), if_neg (hkey ▸ h)]
    case isFalse => rw [get, get, ih]

end Items

/-- The objects, numbered in the order in which they were made. -/
structure Heap (κ α : Type) where
  next : Nat
  cells : Nat → Items κ α

namespace Heap

variable {κ α : Type}

/-- A new object without items. -/
def alloc (heap : Heap κ α) : Heap κ α where
  next := heap.next + 1
  cells r := if r = heap.next then [] else heap.cells r

/-- The object with these items. -/
def write (heap : Heap κ α) (r : Nat) (items : Items κ α) : Heap κ α where
  next := heap.next
  cells other := if other = r then items else heap.cells other

@[simp] theorem next_alloc (heap : Heap κ α) : heap.alloc.next = heap.next + 1 := rfl

@[simp] theorem cells_alloc_self (heap : Heap κ α) : heap.alloc.cells heap.next = [] :=
  if_pos rfl

theorem cells_alloc_of_lt (heap : Heap κ α) {r : Nat} (h : r < heap.next) :
    heap.alloc.cells r = heap.cells r := if_neg (Nat.ne_of_lt h)

@[simp] theorem cells_write_self (heap : Heap κ α) (r : Nat) (items : Items κ α) :
    (heap.write r items).cells r = items := if_pos rfl

theorem cells_write_of_ne (heap : Heap κ α) {r other : Nat} (h : other ≠ r)
    (items : Items κ α) : (heap.write r items).cells other = heap.cells other := if_neg h

/-- Nothing has changed but the objects of the region, and new ones. -/
structure Kept (region : Set Nat) (before after : Heap κ α) : Prop where
  next : before.next ≤ after.next
  cells : ∀ r, r < before.next → r ∉ region → after.cells r = before.cells r

theorem Kept.refl (region : Set Nat) (heap : Heap κ α) : Kept region heap heap :=
  ⟨Nat.le_refl _, fun _ _ _ => rfl⟩

theorem Kept.mono {small large : Set Nat} {before after : Heap κ α} (hsub : small ⊆ large)
    (h : Kept small before after) : Kept large before after :=
  ⟨h.next, fun r hr hout => h.cells r hr fun hin => hout (hsub hin)⟩

/-- The region, with what was made since. -/
def grown (region : Set Nat) (before after : Heap κ α) : Set Nat :=
  region ∪ Set.Ico before.next after.next

theorem subset_grown (region : Set Nat) (before after : Heap κ α) :
    region ⊆ grown region before after := Set.subset_union_left

variable {second first third : Heap κ α} {region : Set Nat}

theorem Kept.trans (h : Kept region first second)
    (h' : Kept (grown region first second) second third) : Kept region first third := by
  refine ⟨Nat.le_trans h.next h'.next, fun r hr hout => ?_⟩
  have hgrown : r ∉ grown region first second := by
    rintro (hin | hnew)
    · exact hout hin
    · exact absurd hr (Nat.not_lt.mpr hnew.1)
  rw [h'.cells r (Nat.lt_of_lt_of_le hr h.next) hgrown, h.cells r hr hout]

theorem grown_grown (h : first.next ≤ second.next) (h' : second.next ≤ third.next) :
    grown (grown region first second) second third = grown region first third := by
  unfold grown
  rw [Set.union_assoc]
  congr 1
  ext r
  simp only [Set.mem_union, Set.mem_Ico]
  omega

/-- What was there, or made on the way, is in the region at the end. -/
theorem grown_subset {region' : Set Nat} (hsub : region' ⊆ grown region first second)
    (h : first.next ≤ second.next) (h' : second.next ≤ third.next) :
    grown region' second third ⊆ grown region first third := by
  rw [← grown_grown h h']
  exact Set.union_subset_union_left _ hsub

theorem kept_alloc (region : Set Nat) (heap : Heap κ α) : Kept region heap heap.alloc :=
  ⟨Nat.le_succ _, fun _ hr _ => cells_alloc_of_lt heap hr⟩

/-- What the object holds under the key. -/
def getItem [DecidableEq κ] (heap : Heap κ α) (r : Nat) (key : κ) : Option (Slot α) :=
  (heap.cells r).get key

/-- The object, with this under the key. -/
def setItem [DecidableEq κ] (heap : Heap κ α) (r : Nat) (key : κ) (slot : Slot α) : Heap κ α :=
  heap.write r ((heap.cells r).put key slot)

section

variable [DecidableEq κ] (heap : Heap κ α) (r : Nat) (key : κ) (slot : Slot α)

theorem getItem_alloc_of_lt {r : Nat} (h : r < heap.next) :
    heap.alloc.getItem r key = heap.getItem r key := by
  unfold getItem
  rw [cells_alloc_of_lt heap h]

theorem getItem_setItem_self : (heap.setItem r key slot).getItem r key = some slot := by
  unfold getItem setItem
  rw [cells_write_self, Items.get_put_self]

theorem getItem_setItem_of_key_ne {other : κ} (h : other ≠ key) :
    (heap.setItem r key slot).getItem r other = heap.getItem r other := by
  unfold getItem setItem
  rw [cells_write_self, Items.get_put_of_ne _ _ h]

theorem getItem_setItem_of_ne {r' : Nat} (h : r' ≠ r) (other : κ) :
    (heap.setItem r key slot).getItem r' other = heap.getItem r' other := by
  unfold getItem setItem
  rw [cells_write_of_ne _ h]

end

end Heap

/-! ## Trees in the heap -/

variable {κ α : Type}

mutual

/-- The tree is stored in the region: its mappings are distinct objects there. -/
def Tree.StoredAt (heap : Heap κ α) : Tree κ α → Slot α → Set Nat → Prop
  | .value a, slot, _ => slot = .value a
  | .mapping entries, slot, region => ∃ r inner, slot = .ref r ∧ r ∈ region ∧ r ∉ inner ∧
      inner ⊆ region ∧ entries.StoredIn heap (heap.cells r) inner

/-- The entries are the items of an object, each stored in a part of the region. -/
def Forest.StoredIn (heap : Heap κ α) : Forest κ α → Items κ α → Set Nat → Prop
  | .nil, items, _ => items = []
  | .cons key tree rest, items, region => ∃ slot more first others,
      items = (key, slot) :: more ∧ key ∉ rest.keys ∧ tree.StoredAt heap slot first ∧
        rest.StoredIn heap more others ∧ Disjoint first others ∧ first ⊆ region ∧
        others ⊆ region

end

mutual

/-- What is stored stays stored where its region is left alone. -/
theorem Tree.StoredAt.transport {heap heap' : Heap κ α} :
    ∀ {tree : Tree κ α} {slot : Slot α} {region region' : Set Nat},
      tree.StoredAt heap slot region → (∀ r ∈ region, heap'.cells r = heap.cells r) →
        region ⊆ region' → tree.StoredAt heap' slot region'
  | .value _, _, _, _, h, _, _ => h
  | .mapping entries, slot, region, region', h, hcells, hsub => by
      obtain ⟨r, inner, hslot, hr, hout, hinner, hentries⟩ := h
      refine ⟨r, inner, hslot, hsub hr, hout, hinner.trans hsub, ?_⟩
      rw [hcells r hr]
      exact hentries.transport (fun other hother => hcells other (hinner hother)) subset_rfl

theorem Forest.StoredIn.transport {heap heap' : Heap κ α} :
    ∀ {entries : Forest κ α} {items : Items κ α} {region region' : Set Nat},
      entries.StoredIn heap items region → (∀ r ∈ region, heap'.cells r = heap.cells r) →
        region ⊆ region' → entries.StoredIn heap' items region'
  | .nil, _, _, _, h, _, _ => h
  | .cons key tree rest, items, region, region', h, hcells, hsub => by
      obtain ⟨slot, more, first, others, hitems, hkey, htree, hrest, hdisj, hfirst, hothers⟩ := h
      refine ⟨slot, more, first, others, hitems, hkey, ?_, ?_, hdisj, hfirst.trans hsub,
        hothers.trans hsub⟩
      · exact htree.transport (fun r hr => hcells r (hfirst hr)) subset_rfl
      · exact hrest.transport (fun r hr => hcells r (hothers hr)) subset_rfl

end

mutual

theorem Tree.StoredAt.distinct {heap : Heap κ α} :
    ∀ {tree : Tree κ α} {slot : Slot α} {region : Set Nat},
      tree.StoredAt heap slot region → tree.Distinct
  | .value _, _, _, _ => trivial
  | .mapping _, _, _, h => by
      obtain ⟨r, inner, _, _, _, _, hentries⟩ := h
      exact hentries.distinct

theorem Forest.StoredIn.distinct {heap : Heap κ α} :
    ∀ {entries : Forest κ α} {items : Items κ α} {region : Set Nat},
      entries.StoredIn heap items region → entries.Distinct
  | .nil, _, _, _ => trivial
  | .cons key tree rest, _, _, h => by
      obtain ⟨_, _, _, _, _, hkey, htree, hrest, _, _, _⟩ := h
      exact ⟨hkey, htree.distinct, hrest.distinct⟩

end

/-! ## One key of an object -/

/-- The part of the region that belongs to what the key holds: the rest stays as it is
when the key is given something else. -/
structure Focus [DecidableEq κ] (heap : Heap κ α) (entries : Forest κ α) (items : Items κ α)
    (region : Set Nat) (key : κ) (part : Set Nat) : Prop where
  sub : part ⊆ region
  absent : entries.lookup key = none → items.get key = none
  present : ∀ tree, entries.lookup key = some tree →
    ∃ slot, items.get key = some slot ∧ tree.StoredAt heap slot part
  put : ∀ {heap' : Heap κ α} {tree : Tree κ α} {slot : Slot α} {new region' : Set Nat},
    (∀ r ∈ region \ part, heap'.cells r = heap.cells r) → tree.StoredAt heap' slot new →
      Disjoint new (region \ part) → new ⊆ region' → region \ part ⊆ region' →
        (entries.insert key tree).StoredIn heap' (items.put key slot) region'

theorem focus_nil [DecidableEq κ] (heap : Heap κ α) (region : Set Nat) (key : κ) :
    Focus heap .nil [] region key ∅ where
  sub := Set.empty_subset _
  absent _ := rfl
  present _ h := by cases h
  put _ htree _ hnew _ :=
    ⟨_, [], _, ∅, rfl, List.not_mem_nil, htree, rfl, Set.disjoint_empty _, hnew,
      Set.empty_subset _⟩

variable {heap : Heap κ α}

theorem focus_first [DecidableEq κ] {key : κ} {tree : Tree κ α} {rest : Forest κ α} {slot : Slot α}
    {more : Items κ α} {first others region : Set Nat} (hkey : key ∉ rest.keys)
    (htree : tree.StoredAt heap slot first) (hrest : rest.StoredIn heap more others)
    (hdisj : Disjoint first others) (hfirst : first ⊆ region) (hothers : others ⊆ region) :
    Focus heap (.cons key tree rest) ((key, slot) :: more) region key first := by
  have hout : others ⊆ region \ first := fun r hr =>
    ⟨hothers hr, fun hin => Set.disjoint_left.mp hdisj hin hr⟩
  refine ⟨hfirst, fun h => ?_, fun found hfound => ?_, ?_⟩
  · rw [Forest.lookup_cons_self] at h
    cases h
  · rw [Forest.lookup_cons_self] at hfound
    exact ⟨slot, if_pos rfl, Option.some.inj hfound ▸ htree⟩
  · intro heap' tree' slot' new region' hcells htree' hapart hnew hsub
    rw [Forest.insert, if_pos rfl, Items.put, if_pos rfl]
    refine ⟨slot', more, new, others, rfl, hkey, htree', ?_, ?_, hnew, hout.trans hsub⟩
    · exact hrest.transport (fun r hr => hcells r (hout hr)) subset_rfl
    · exact hapart.mono_right hout

theorem focus_later [DecidableEq κ] {key other : κ} {tree : Tree κ α} {rest : Forest κ α}
    {slot : Slot α} {more : Items κ α} {first others region part : Set Nat} (hne : key ≠ other)
    (hkey : other ∉ rest.keys) (htree : tree.StoredAt heap slot first)
    (hdisj : Disjoint first others) (hfirst : first ⊆ region) (hothers : others ⊆ region)
    (hfocus : Focus heap rest more others key part) :
    Focus heap (.cons other tree rest) ((other, slot) :: more) region key part := by
  have hout : first ⊆ region \ part := fun r hr =>
    ⟨hfirst hr, fun hin => Set.disjoint_left.mp hdisj hr (hfocus.sub hin)⟩
  have hrest : others \ part ⊆ region \ part := Set.sdiff_subset_sdiff_left hothers
  refine ⟨hfocus.sub.trans hothers, fun h => ?_, fun found hfound => ?_, ?_⟩
  · rw [Forest.lookup_cons_of_ne hne] at h
    rw [Items.get, if_neg hne]
    exact hfocus.absent h
  · rw [Forest.lookup_cons_of_ne hne] at hfound
    rw [Items.get, if_neg hne]
    exact hfocus.present found hfound
  · intro heap' tree' slot' new region' hcells htree' hapart hnew hsub
    rw [Forest.insert, if_neg hne, Items.put, if_neg hne]
    refine ⟨slot, more.put key slot', first, new ∪ others \ part, rfl, ?_, ?_, ?_, ?_,
      hout.trans hsub, Set.union_subset hnew (hrest.trans hsub)⟩
    · rw [Forest.mem_keys_insert, not_or]
      exact ⟨Ne.symm hne, hkey⟩
    · exact htree.transport (fun r hr => hcells r (hout hr)) subset_rfl
    · exact hfocus.put (fun r hr => hcells r (hrest hr)) htree' (hapart.mono_right hrest)
        Set.subset_union_left Set.subset_union_right
    · refine Set.disjoint_union_right.mpr ⟨hapart.symm.mono_left hout, ?_⟩
      exact hdisj.mono_right Set.sdiff_subset

theorem exists_focus [DecidableEq κ] (key : κ) :
    ∀ {entries : Forest κ α} {items : Items κ α} {region : Set Nat},
      entries.StoredIn heap items region → ∃ part, Focus heap entries items region key part
  | .nil, items, region, h => by
      obtain rfl : items = [] := h
      exact ⟨∅, focus_nil heap region key⟩
  | .cons other tree rest, items, region, h => by
      obtain ⟨slot, more, first, others, rfl, hkey, htree, hrest, hdisj, hfirst, hothers⟩ := h
      by_cases heq : key = other
      · subst heq
        exact ⟨first, focus_first hkey htree hrest hdisj hfirst hothers⟩
      · obtain ⟨part, hfocus⟩ := exists_focus key hrest
        exact ⟨part, focus_later heq hkey htree hdisj hfirst hothers hfocus⟩

end OvirtArt.Foundation
