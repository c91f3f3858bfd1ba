import Mathlib.Data.List.Infix

set_option autoImplicit false

/-!
# Trees of mappings

Values that are either plain or mappings from keys to values, what a path leads to
in such a tree, and the deep merge of one tree into another.

A mapping is an association list, so that it has an order; that no key is there twice is a
predicate of its own, which the merge keeps.
-/

namespace OvirtArt.Foundation

mutual

/-- A plain value, or a mapping. -/
inductive Tree (κ α : Type) where
  | value (a : α)
  | mapping (entries : Forest κ α)

/-- The entries of a mapping. -/
inductive Forest (κ α : Type) where
  | nil
  | cons (key : κ) (tree : Tree κ α) (rest : Forest κ α)

end

/-- What stands at the end of a path. -/
inductive Node (α : Type) where
  | value (a : α)
  | mapping
  deriving DecidableEq

variable {κ α : Type}

namespace Forest

/-- The keys of a mapping, in order. -/
def keys : Forest κ α → List κ
  | nil => []
  | cons key _ rest => key :: rest.keys

variable [DecidableEq κ]

/-- What the key is mapped to. -/
def lookup (key : κ) : Forest κ α → Option (Tree κ α)
  | nil => none
  | cons other tree rest => if key = other then some tree else rest.lookup key

/-- The mapping with the key mapped to this tree. -/
def insert (key : κ) (tree : Tree κ α) : Forest κ α → Forest κ α
  | nil => cons key tree nil
  | cons other old rest =>
    if key = other then cons other tree rest else cons other old (rest.insert key tree)

@[simp] theorem lookup_nil (key : κ) : (nil : Forest κ α).lookup key = none := rfl

theorem lookup_cons_self (key : κ) (tree : Tree κ α) (rest : Forest κ α) :
    (cons key tree rest).lookup key = some tree := by simp [lookup]

variable {tree : Tree κ α} {key other : κ}

theorem lookup_cons_of_ne (h : key ≠ other) (tree : Tree κ α) (rest : Forest κ α) :
    (cons other tree rest).lookup key = rest.lookup key := by
  simp [lookup, h]

theorem lookup_insert_self (key : κ) (tree : Tree κ α) :
    ∀ entries : Forest κ α, (entries.insert key tree).lookup key = some tree
  | nil => by simp [insert, lookup]
  | cons other old rest => by
      unfold insert
      split
      case isTrue h => simp [lookup, h]
      case isFalse h => rw [lookup_cons_of_ne h, lookup_insert_self key tree rest]

theorem lookup_insert_of_ne (h : other ≠ key) (tree : Tree κ α) :
    ∀ entries : Forest κ α, (entries.insert key tree).lookup other = entries.lookup other
  | nil => by simp [insert, lookup, h]
  | cons first old rest => by
      unfold insert
      by_cases hkey : key = first
      · subst hkey
        rw [if_pos rfl, lookup_cons_of_ne h, lookup_cons_of_ne h]
      · rw [if_neg hkey]
        unfold lookup
        rw [lookup_insert_of_ne h tree rest]

/-- Mapping a key to what it is mapped to changes nothing. -/
theorem insert_of_lookup :
    ∀ {entries : Forest κ α}, entries.lookup key = some tree → entries.insert key tree = entries
  | nil, h => by cases h
  | cons other old rest, h => by
      unfold lookup at h
      unfold insert
      split at h
      case isTrue hkey =>
        obtain rfl := Option.some.inj h
        rw [if_pos hkey]
      case isFalse hkey => rw [if_neg hkey, insert_of_lookup h]

theorem mem_keys_insert :
    ∀ {entries : Forest κ α},
      other ∈ (entries.insert key tree).keys ↔ other = key ∨ other ∈ entries.keys
  | nil => by simp [insert, keys]
  | cons first old rest => by
      unfold insert
      split
      case isTrue h =>
        subst h
        simp [keys]
      case isFalse h =>
        unfold keys
        rw [List.mem_cons, mem_keys_insert, List.mem_cons, or_left_comm]

theorem lookup_eq_none_iff :
    ∀ {entries : Forest κ α}, entries.lookup key = none ↔ key ∉ entries.keys
  | nil => by simp [lookup, keys]
  | cons other tree rest => by
      unfold lookup keys
      split
      case isTrue h => simp [h]
      case isFalse h =>
        rw [lookup_eq_none_iff, List.mem_cons, not_or, and_iff_right h]

theorem ne_of_lookup {first : κ} {rest : Forest κ α} (hfirst : first ∉ rest.keys)
    (h : rest.lookup key = some tree) : key ≠ first := by
  rintro rfl
  rw [lookup_eq_none_iff.mpr hfirst] at h
  cases h

/-- A property of all entries, by the first one and the others. -/
theorem forall_lookup_cons_iff {first : κ} {rest : Forest κ α} {property : κ → Tree κ α → Prop}
    (hfirst : first ∉ rest.keys) :
    (∀ key entry, (cons first tree rest).lookup key = some entry → property key entry) ↔
      property first tree ∧ ∀ key entry, rest.lookup key = some entry → property key entry := by
  constructor
  · intro h
    refine ⟨h first tree (lookup_cons_self _ _ _), fun key entry hentry => h key entry ?_⟩
    rw [lookup_cons_of_ne (ne_of_lookup hfirst hentry), hentry]
  · rintro ⟨htree, hrest⟩ key entry hentry
    by_cases hkey : key = first
    · subst hkey
      rw [lookup_cons_self] at hentry
      obtain rfl := Option.some.inj hentry
      exact htree
    · rw [lookup_cons_of_ne hkey] at hentry
      exact hrest key entry hentry

end Forest

/-! ## Paths -/

namespace Tree

variable [DecidableEq κ]

/-- What a path leads to. -/
def follow : Tree κ α → List κ → Option (Node α)
  | value a, [] => some (.value a)
  | mapping _, [] => some .mapping
  | value _, _ :: _ => none
  | mapping entries, key :: path => (entries.lookup key).bind fun tree => tree.follow path

/-- The plain values are the leaves. -/
def IsLeaf (tree : Tree κ α) (path : List κ) : Prop := ∃ a, tree.follow path = some (.value a)

@[simp] theorem follow_mapping_cons (entries : Forest κ α) (key : κ) (path : List κ) :
    (mapping entries).follow (key :: path) =
      (entries.lookup key).bind fun tree => tree.follow path := rfl

end Tree

/-- Induction over a tree: a mapping after everything that its keys are mapped to. -/
@[elab_as_elim] theorem Tree.lookup_induction [DecidableEq κ] {motive : Tree κ α → Prop}
    (value : ∀ a, motive (.value a))
    (mapping : ∀ entries : Forest κ α,
      (∀ key tree, entries.lookup key = some tree → motive tree) → motive (.mapping entries)) :
    ∀ tree, motive tree := by
  intro tree
  refine Tree.rec (motive_1 := motive)
    (motive_2 := fun entries => ∀ key tree, entries.lookup key = some tree → motive tree)
    value mapping ?_ ?_ tree
  · intro key tree h
    cases h
  · intro other first rest hfirst hrest key tree h
    unfold Forest.lookup at h
    split at h
    case isTrue => exact Option.some.inj h ▸ hfirst
    case isFalse => exact hrest key tree h

namespace Tree

variable [DecidableEq κ]

theorem exists_follow_nil (tree : Tree κ α) : ∃ node, tree.follow [] = some node := by
  cases tree with
  | value a => exact ⟨.value a, rfl⟩
  | mapping entries => exact ⟨.mapping, rfl⟩

/-- Nothing stands below a leaf. -/
theorem eq_of_isLeaf_prefix {tree : Tree κ α} {leaf path : List κ} {node : Node α}
    (hleaf : tree.IsLeaf leaf) (hpath : tree.follow path = some node) (h : leaf <+: path) :
    leaf = path := by
  induction tree using Tree.lookup_induction generalizing leaf path with
  | value a =>
    cases path with
    | nil => exact List.prefix_nil.mp h
    | cons key path => cases hpath
  | mapping entries ih =>
    cases leaf with
    | nil =>
      obtain ⟨a, ha⟩ := hleaf
      cases ha
    | cons key leaf =>
      obtain ⟨rest, rfl⟩ := h
      obtain ⟨a, ha⟩ := hleaf
      obtain ⟨tree, htree, ha⟩ := Option.bind_eq_some_iff.mp ha
      obtain ⟨other, hother, hpath⟩ := Option.bind_eq_some_iff.mp hpath
      obtain rfl : tree = other := Option.some.inj (htree.symm.trans hother)
      exact congrArg (key :: ·) (ih key tree htree ⟨a, ha⟩ hpath ⟨rest, rfl⟩)

end Tree

/-! ## Distinct keys -/

mutual

/-- No mapping in the tree has a key twice. -/
def Tree.Distinct : Tree κ α → Prop
  | .value _ => True
  | .mapping entries => entries.Distinct

/-- No mapping of the forest has a key twice. -/
def Forest.Distinct : Forest κ α → Prop
  | .nil => True
  | .cons key tree rest => key ∉ rest.keys ∧ tree.Distinct ∧ rest.Distinct

end

variable {tree : Tree κ α}

theorem Forest.Distinct.of_lookup [DecidableEq κ] {key : κ} :
    ∀ {entries : Forest κ α}, entries.Distinct → entries.lookup key = some tree → tree.Distinct
  | .nil, _, h => by cases h
  | .cons other first rest, hdistinct, h => by
      obtain ⟨_, hfirst, hrest⟩ := hdistinct
      unfold Forest.lookup at h
      split at h
      case isTrue => exact Option.some.inj h ▸ hfirst
      case isFalse => exact Forest.Distinct.of_lookup hrest h

theorem Forest.Distinct.insert [DecidableEq κ] {key : κ} (htree : tree.Distinct) :
    ∀ {entries : Forest κ α}, entries.Distinct → (entries.insert key tree).Distinct
  | .nil, _ => ⟨List.not_mem_nil, htree, trivial⟩
  | .cons other first rest, hdistinct => by
      obtain ⟨hother, hfirst, hrest⟩ := hdistinct
      unfold Forest.insert
      split
      case isTrue => exact ⟨hother, htree, hrest⟩
      case isFalse h =>
        refine ⟨?_, hfirst, Forest.Distinct.insert htree hrest⟩
        rw [Forest.mem_keys_insert, not_or]
        exact ⟨Ne.symm h, hother⟩

/-! ## One mapping after another -/

/-- The entries of the one, then those of the other. -/
def Forest.append : Forest κ α → Forest κ α → Forest κ α
  | .nil, other => other
  | .cons key tree rest, other => .cons key tree (rest.append other)

theorem Forest.append_nil : ∀ entries : Forest κ α, entries.append .nil = entries
  | .nil => rfl
  | .cons key tree rest => congrArg (Forest.cons key tree) rest.append_nil

theorem Forest.append_assoc (second third : Forest κ α) :
    ∀ first : Forest κ α, (first.append second).append third = first.append (second.append third)
  | .nil => rfl
  | .cons key tree rest => congrArg (Forest.cons key tree) (Forest.append_assoc second third rest)

theorem Forest.keys_append (second : Forest κ α) :
    ∀ first : Forest κ α, (first.append second).keys = first.keys ++ second.keys
  | .nil => rfl
  | .cons key _ rest => congrArg (key :: ·) (Forest.keys_append second rest)

/-- A new key comes last. -/
theorem Forest.insert_of_not_mem [DecidableEq κ] {key : κ} :
    ∀ {entries : Forest κ α}, key ∉ entries.keys →
      entries.insert key tree = entries.append (.cons key tree .nil)
  | .nil, _ => rfl
  | .cons other first rest, h => by
      rw [Forest.keys, List.mem_cons, not_or] at h
      rw [Forest.insert, if_neg h.1, Forest.insert_of_not_mem h.2, Forest.append]

/-! ## Depth -/

mutual

/-- How many mappings stand above each other at most. -/
def Tree.depth : Tree κ α → Nat
  | .value _ => 0
  | .mapping entries => entries.depth + 1

/-- How deep the forest is nested. -/
def Forest.depth : Forest κ α → Nat
  | .nil => 0
  | .cons _ tree rest => max tree.depth rest.depth

end

end OvirtArt.Foundation
