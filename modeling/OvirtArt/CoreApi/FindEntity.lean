import Mathlib.Data.List.Nodup
import OvirtArt.CoreApi.PyValue

set_option autoImplicit false

/-!
# `find` on a collection that has been read

The part of `find` of `rest_utils.py` that looks for an attribute in the collection.

It is generic in the entities, and each model that looks one up uses it at its own type.  Of the
messages only the value that was looked for is kept.
-/

namespace OvirtArt.CoreApi

/-- What a lookup by attribute raises. -/
inductive FindFault where
  | entityNotFound (value : Text)
  | moreThanOneEntitiesFound (value : Text)
  deriving DecidableEq, Repr

/-- `find(value, attribute)`. -/
def findEntity {α : Type} (attr : α → Text) (value : Text) (collection : List α) :
    Except FindFault α :=
  match collection.filter (attr · == value) with
  | [] => .error (.entityNotFound value)
  | [found] => .ok found
  | _ => .error (.moreThanOneEntitiesFound value)

variable {α : Type} {attr : α → Text} {collection : List α} {entity : α}

/-- Where no two entities have one value, each of them is the one that is found by its own. -/
theorem findEntity_of_mem (hnodup : (collection.map attr).Nodup) (h : entity ∈ collection) :
    findEntity attr (attr entity) collection = .ok entity := by
  have hfilter : collection.filter (attr · == attr entity) = [entity] := by
    induction collection with
    | nil => exact absurd h List.not_mem_nil
    | cons first rest ih =>
      rw [List.map_cons, List.nodup_cons] at hnodup
      obtain ⟨hfirst, hrest⟩ := hnodup
      rcases List.mem_cons.mp h with rfl | hmem
      · have hnone : rest.filter (attr · == attr entity) = [] :=
          List.filter_eq_nil_iff.mpr fun other hother hsame =>
            hfirst (List.mem_map.mpr ⟨other, hother, eq_of_beq hsame⟩)
        rw [List.filter_cons, if_pos (beq_self_eq_true _), hnone]
      · have hne : ¬ (attr first == attr entity) = true := by
          intro hsame
          exact hfirst (List.mem_map.mpr ⟨entity, hmem, (eq_of_beq hsame).symm⟩)
        rw [List.filter_cons, if_neg hne]
        exact ih hrest hmem
  unfold findEntity
  rw [hfilter]

end OvirtArt.CoreApi
