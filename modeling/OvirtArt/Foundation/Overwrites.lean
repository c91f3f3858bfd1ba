import Mathlib.Logic.Function.Basic

set_option autoImplicit false

/-!
# Tables that are written over

A write puts a value under a key, over what was there.  When several sources write into one
table, every source finds its own writes there, and no others, exactly if all write alike.

Sources and keys are any types, and the writes of a source are a list in which the last one of a
key counts.
-/

namespace OvirtArt.Foundation

variable {β κ : Type} [DecidableEq κ]

/-- The table after the writes. -/
def overwrite (table : κ → Option β) (writes : List (κ × β)) : κ → Option β :=
  writes.foldl (fun table write => Function.update table write.1 (some write.2)) table

/-- The table of these writes alone. -/
def tableOf (writes : List (κ × β)) : κ → Option β := overwrite (fun _ => none) writes

theorem overwrite_append (table : κ → Option β) (first second : List (κ × β)) :
    overwrite table (first ++ second) = overwrite (overwrite table first) second := by
  exact List.foldl_append

theorem overwrite_cons (table : κ → Option β) (write : κ × β) (writes : List (κ × β)) :
    overwrite table (write :: writes) =
      overwrite (Function.update table write.1 (some write.2)) writes := rfl

/-- What the writes leave alone is what was there. -/
theorem overwrite_apply (table : κ → Option β) (writes : List (κ × β)) (key : κ) :
    overwrite table writes key = (tableOf writes key).or (table key) := by
  induction writes generalizing table with
  | nil => rfl
  | cons write writes ih =>
    unfold tableOf
    rw [overwrite_cons, overwrite_cons, ih, ih (Function.update _ _ _), Option.or_assoc]
    congr 1
    by_cases hkey : key = write.1
    · rw [hkey, Function.update_self, Function.update_self, Option.some_or]
    · rw [Function.update_of_ne hkey, Function.update_of_ne hkey, Option.none_or]

theorem tableOf_append (first second : List (κ × β)) (key : κ) :
    tableOf (first ++ second) key = (tableOf second key).or (tableOf first key) := by
  unfold tableOf
  rw [overwrite_append, overwrite_apply]
  rfl

theorem tableOf_concat (writes : List (κ × β)) (write : κ × β) :
    tableOf (writes ++ [write]) = Function.update (tableOf writes) write.1 (some write.2) := by
  unfold tableOf
  rw [overwrite_append]
  rfl

/-- Among the elements with a property there is a last one. -/
theorem exists_last_of_mem {α : Type} {P : α → Prop} {xs : List α} (h : ∃ x ∈ xs, P x) :
    ∃ before last after, xs = before ++ last :: after ∧ P last ∧ ∀ other ∈ after, ¬ P other := by
  induction xs with
  | nil =>
    obtain ⟨x, hx, -⟩ := h
    exact nomatch hx
  | cons first rest ih =>
    by_cases hlater : ∃ x ∈ rest, P x
    · obtain ⟨before, last, after, hrest, hlast, hafter⟩ := ih hlater
      exact ⟨first :: before, last, after, congrArg (first :: ·) hrest, hlast, hafter⟩
    · have hfirst : P first := by
        obtain ⟨x, hx, hP⟩ := h
        rcases List.mem_cons.mp hx with rfl | hin
        · exact hP
        · exact absurd ⟨x, hin, hP⟩ hlater
      exact ⟨[], first, rest, rfl, hfirst, fun other hother hP => hlater ⟨other, hother, hP⟩⟩

variable {writes : List (κ × β)}

theorem tableOf_eq_none {key : κ} (h : ∀ write ∈ writes, write.1 ≠ key) :
    tableOf writes key = none := by
  induction writes with
  | nil => rfl
  | cons write writes ih =>
    obtain ⟨hfirst, hrest⟩ := List.forall_mem_cons.mp h
    unfold tableOf
    rw [overwrite_cons, overwrite_apply, ih hrest, Option.none_or,
      Function.update_of_ne hfirst.symm]

/-- The last write under a key is what is found there. -/
theorem tableOf_last {before after : List (κ × β)} {write : κ × β}
    (h : ∀ other ∈ after, other.1 ≠ write.1) :
    tableOf (before ++ write :: after) write.1 = some write.2 := by
  rw [tableOf_append]
  unfold tableOf
  rw [overwrite_cons, overwrite_apply, tableOf_eq_none h, Option.none_or, Function.update_self,
    Option.some_or]

/-- What is found under a key was written there. -/
theorem mem_of_tableOf {key : κ} {value : β} (h : tableOf writes key = some value) :
    (key, value) ∈ writes := by
  induction writes with
  | nil => exact nomatch h
  | cons write writes ih =>
    unfold tableOf at h
    rw [overwrite_cons, overwrite_apply] at h
    cases hlater : tableOf writes key with
    | some found =>
      rw [hlater] at h
      exact List.mem_cons_of_mem _ (ih (hlater.trans h))
    | none =>
      rw [hlater] at h
      by_cases hkey : key = write.1
      · subst hkey
        rw [Function.update_self] at h
        rw [← Option.some.inj h]
        exact List.mem_cons_self
      · rw [Function.update_of_ne hkey] at h
        exact nomatch h

/-- Under keys that differ, every write is found. -/
theorem tableOf_of_mem {write : κ × β} (hkeys : (writes.map Prod.fst).Nodup) (hmem : write ∈ writes)
    :
    tableOf writes write.1 = some write.2 := by
  obtain ⟨before, after, rfl⟩ := List.append_of_mem hmem
  rw [List.map_append] at hkeys
  have hafter := (List.nodup_cons.mp (List.nodup_append.mp hkeys).2.1).1
  exact tableOf_last fun other hother heq => hafter (heq ▸ List.mem_map_of_mem hother)

/-! ## One table for several sources -/

section

variable {sources : List (List (κ × β))} {table : κ → Option β}

/-- Sources that write alike leave the table of each of them. -/
theorem tableOf_flatten (h : ∀ writes ∈ sources, tableOf writes = table) (hne : sources ≠ []) :
    tableOf sources.flatten = table := by
  induction sources with
  | nil => exact absurd rfl hne
  | cons writes sources ih =>
    obtain ⟨hfirst, hrest⟩ := List.forall_mem_cons.mp h
    rw [List.flatten_cons]
    funext key
    rw [tableOf_append, hfirst]
    by_cases hlast : sources = []
    · rw [hlast]
      exact Option.none_or
    · rw [ih hrest hlast]
      exact Option.or_self

/-- Each source finds its own table exactly if all sources write alike. -/
theorem tableOf_flatten_iff :
    (∀ writes ∈ sources, tableOf sources.flatten = tableOf writes) ↔
      ∀ writes ∈ sources, ∀ others ∈ sources, tableOf writes = tableOf others := by
  constructor
  · intro hown writes hwrites others hothers
    exact (hown writes hwrites).symm.trans (hown others hothers)
  · intro halike writes hwrites
    exact tableOf_flatten (fun others hothers => halike others hothers writes hwrites)
      (List.ne_nil_of_mem hwrites)

end

end OvirtArt.Foundation
