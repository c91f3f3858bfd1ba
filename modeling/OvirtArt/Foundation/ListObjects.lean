import Mathlib.Data.List.Infix

set_option autoImplicit false

/-!
# Lists as objects

Lists that are shared: who holds the number of one sees what others put at its end.  The objects
that there were are kept by what only makes new ones, and they have grown where something was
put at their end.

Objects are numbered in the order in which they are made, and none is ever given back.
-/

namespace OvirtArt.Foundation

/-- The lists, numbered in the order in which they were made. -/
structure ListObjects (α : Type) where
  next : Nat
  items : Nat → List α

namespace ListObjects

variable {α : Type}

/-- A new list without elements, under the number `objects.next`. -/
def alloc (objects : ListObjects α) : ListObjects α where
  next := objects.next + 1
  items r := if r = objects.next then [] else objects.items r

/-- `list.append(a)`. -/
def push (objects : ListObjects α) (r : Nat) (a : α) : ListObjects α where
  next := objects.next
  items other := if other = r then objects.items r ++ [a] else objects.items other

variable {objects first second third : ListObjects α} {r other : Nat} {a : α}

@[simp] theorem items_alloc_self : objects.alloc.items objects.next = [] := if_pos rfl

theorem items_alloc_of_lt (h : r < objects.next) : objects.alloc.items r = objects.items r :=
  if_neg (Nat.ne_of_lt h)

@[simp] theorem items_push_self : (objects.push r a).items r = objects.items r ++ [a] :=
  if_pos rfl

theorem items_push_of_ne (h : other ≠ r) : (objects.push r a).items other = objects.items other :=
  if_neg h

/-! ## Objects that are kept -/

/-- The objects that there were are as they were. -/
structure Kept (first second : ListObjects α) : Prop where
  next : first.next ≤ second.next
  items : ∀ r, r < first.next → second.items r = first.items r

theorem Kept.refl (objects : ListObjects α) : Kept objects objects :=
  ⟨Nat.le_refl _, fun _ _ => rfl⟩

theorem Kept.trans (h : Kept first second) (h' : Kept second third) : Kept first third where
  next := h.next.trans h'.next
  items r hr := (h'.items r (hr.trans_le h.next)).trans (h.items r hr)

theorem kept_alloc (objects : ListObjects α) : Kept objects objects.alloc :=
  ⟨Nat.le_succ _, fun _ hr => items_alloc_of_lt hr⟩

/-- What is put at the end of a new object does not change those there were. -/
theorem Kept.push (h : Kept first second) (hnew : first.next ≤ r) :
    Kept first (second.push r a) where
  next := h.next
  items other hother := by
    rw [items_push_of_ne (Nat.ne_of_lt (hother.trans_le hnew)), h.items other hother]

/-! ## Objects that have grown -/

/-- The objects that there were have what they had, with more at the end. -/
structure Grown (first second : ListObjects α) : Prop where
  next : first.next ≤ second.next
  items : ∀ r, r < first.next → first.items r <+: second.items r

theorem Kept.grown (h : Kept first second) : Grown first second where
  next := h.next
  items r hr := by rw [h.items r hr]

theorem Grown.refl (objects : ListObjects α) : Grown objects objects := (Kept.refl objects).grown

theorem Grown.trans (h : Grown first second) (h' : Grown second third) : Grown first third where
  next := h.next.trans h'.next
  items r hr := (h.items r hr).trans (h'.items r (hr.trans_le h.next))

theorem grown_push (objects : ListObjects α) (r : Nat) (a : α) :
    Grown objects (objects.push r a) where
  next := Nat.le_refl _
  items other _ := by
    by_cases h : other = r
    · rw [h, items_push_self]
      exact List.prefix_append _ _
    · rw [items_push_of_ne h]

end ListObjects

end OvirtArt.Foundation
