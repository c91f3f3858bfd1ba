import Mathlib.Algebra.GroupWithZero.Nat
import Mathlib.Algebra.Order.BigOperators.Group.List
import Mathlib.Algebra.Order.Group.Nat
import OvirtArt.Foundation.Delimited

set_option autoImplicit false

/-!
# What is lost when a text is cut into pieces

A text of parts with separators between them is read up to where it stops, cut at the separators,
and each piece is read up to where it ends.  The pieces weigh at most as much as the parts, and as
much only if no part has a sign at which it is cut.

Weights are natural numbers given for each element.  Counting is what makes the converse of a
round trip provable without going through every way to go wrong.
-/

namespace OvirtArt.Foundation

variable {α : Type*} [DecidableEq α]

/-- What stands before the first sign that ends a text. -/
def cutBefore (ends : α → Bool) (text : List α) : List α := text.takeWhile fun c => !ends c

/-- The pieces of a text up to where it stops, each up to where it ends. -/
def pieces (sep : α) (stops ends : α → Bool) (text : List α) : List (List α) :=
  ((cutBefore stops text).splitOn sep).map (cutBefore ends)

/-- The weight of a text. -/
def weight (w : α → Nat) (text : List α) : Nat := (text.map w).sum

/-- What all texts of a list weigh. -/
def totalWeight (w : α → Nat) (texts : List (List α)) : Nat := (texts.map (weight w)).sum

variable {w : α → Nat} {sep : α} {stops ends : α → Bool} {a b text : List α}

omit [DecidableEq α] in
@[simp] theorem weight_nil (w : α → Nat) : weight w [] = 0 := rfl

omit [DecidableEq α] in
@[simp] theorem weight_cons (w : α → Nat) (c : α) (rest : List α) :
    weight w (c :: rest) = w c + weight w rest := by simp [weight]

omit [DecidableEq α] in
@[simp] theorem weight_append (w : α → Nat) (a b : List α) :
    weight w (a ++ b) = weight w a + weight w b := by simp [weight]

omit [DecidableEq α] in
theorem weight_perm (w : α → Nat) (h : a.Perm b) : weight w a = weight w b :=
  (h.map w).sum_eq

omit [DecidableEq α] in
@[simp] theorem totalWeight_nil (w : α → Nat) : totalWeight w [] = 0 := rfl

omit [DecidableEq α] in
@[simp] theorem totalWeight_cons (w : α → Nat) (part : List α) (rest : List (List α)) :
    totalWeight w (part :: rest) = weight w part + totalWeight w rest := by simp [totalWeight]

omit [DecidableEq α] in
@[simp] theorem totalWeight_append (w : α → Nat) (first second : List (List α)) :
    totalWeight w (first ++ second) = totalWeight w first + totalWeight w second := by
  simp [totalWeight]

omit [DecidableEq α] in
theorem weight_flatMap {ι : Type*} (w : α → Nat) (f : ι → List α) (items : List ι) :
    weight w (items.flatMap f) = totalWeight w (items.map f) := by
  induction items with
  | nil => rfl
  | cons item rest ih => rw [List.flatMap_cons, weight_append, ih, List.map_cons, totalWeight_cons]

section

variable {ι β : Type*} {v : β → Nat} {f : ι → List α} {g : ι → List β} {items : List ι}

omit [DecidableEq α] in
theorem totalWeight_map_le (h : ∀ item ∈ items, weight w (f item) ≤ weight v (g item)) :
    totalWeight w (items.map f) ≤ totalWeight v (items.map g) := by
  unfold totalWeight
  rw [List.map_map, List.map_map]
  exact List.sum_le_sum h

omit [DecidableEq α] in
theorem totalWeight_map_lt (h : ∀ item ∈ items, weight w (f item) ≤ weight v (g item)) {item : ι}
    (hitem : item ∈ items) (hlt : weight w (f item) < weight v (g item)) :
    totalWeight w (items.map f) < totalWeight v (items.map g) := by
  unfold totalWeight
  rw [List.map_map, List.map_map]
  exact List.sum_lt_sum _ _ h ⟨item, hitem, hlt⟩

end

/-! ## Cutting once -/

omit [DecidableEq α] in
theorem cutBefore_cons (ends : α → Bool) (c : α) (rest : List α) :
    cutBefore ends (c :: rest) = if ends c then [] else c :: cutBefore ends rest := by
  unfold cutBefore
  rw [List.takeWhile_cons]
  cases ends c <;> rfl

theorem upTo_eq_cutBefore (sep : α) (text : List α) :
    upTo sep text = cutBefore (fun c => decide (c = sep)) text := by
  unfold upTo cutBefore
  congr 1
  funext c
  exact decide_not

omit [DecidableEq α] in
theorem cutBefore_of_forall (h : ∀ c ∈ text, ends c = false) : cutBefore ends text = text :=
  List.takeWhile_eq_self_iff.mpr fun c hc => by simp [h c hc]

omit [DecidableEq α] in
theorem cutBefore_append (h : ∀ c ∈ a, ends c = false) (b : List α) :
    cutBefore ends (a ++ b) = a ++ cutBefore ends b :=
  List.takeWhile_append_of_pos fun c hc => by simp [h c hc]

omit [DecidableEq α] in
/-- What comes after the end does not count. -/
theorem cutBefore_append_of_mem {c : α} (hc : c ∈ a) (hend : ends c) (b : List α) :
    cutBefore ends (a ++ b) = cutBefore ends a := by
  induction a with
  | nil => exact nomatch hc
  | cons first rest ih =>
    rw [List.cons_append, cutBefore_cons, cutBefore_cons]
    split
    case isTrue => rfl
    case isFalse hfirst =>
      rcases List.mem_cons.mp hc with rfl | hmem
      · exact absurd hend hfirst
      · rw [ih hmem]

omit [DecidableEq α] in
theorem cutBefore_append_cons {c : α} (hend : ends c) (a b : List α) :
    cutBefore ends (a ++ c :: b) = cutBefore ends a := by
  induction a with
  | nil => rw [List.nil_append, cutBefore_cons, if_pos hend]; rfl
  | cons first rest ih => rw [List.cons_append, cutBefore_cons, cutBefore_cons, ih]

omit [DecidableEq α] in
theorem weight_cutBefore_lt (hpos : ∀ c, 0 < w c) {c : α} (hc : c ∈ text) (hend : ends c) :
    weight w (cutBefore ends text) < weight w text := by
  induction text with
  | nil => exact nomatch hc
  | cons first rest ih =>
    have hfirst := hpos first
    rw [cutBefore_cons]
    split
    case isTrue =>
      rw [weight_nil, weight_cons]
      omega
    case isFalse hne =>
      rcases List.mem_cons.mp hc with rfl | hmem
      · exact absurd hend hne
      · exact Nat.add_lt_add_left (ih hmem) _

/-! ## Cutting at the separators -/

/-- The weight of the pieces between the separators. -/
def splitWeight (w : α → Nat) (sep : α) (ends : α → Bool) (text : List α) : Nat :=
  totalWeight w ((text.splitOn sep).map (cutBefore ends))

/-- A sign is cut at, or is a part of its piece, or lies behind the end of it. -/
theorem splitWeight_cons (c : α) (rest : List α) :
    splitWeight w sep ends (c :: rest) ≤
      (if c = sep ∨ ends c then 0 else w c) + splitWeight w sep ends rest := by
  unfold splitWeight
  obtain ⟨piece, others, hsplit⟩ := List.exists_cons_of_ne_nil (List.splitOn_ne_nil sep rest)
  rw [List.splitOn_cons_eq_if_modifyHead, hsplit]
  by_cases hsep : c = sep
  · rw [if_pos (beq_iff_eq.mpr hsep), if_pos (.inl hsep), List.map_cons]
    exact Nat.le_refl _
  · rw [if_neg fun h => hsep (beq_iff_eq.mp h), List.modifyHead_cons, List.map_cons, List.map_cons,
      totalWeight_cons, cutBefore_cons]
    cases hend : ends c with
    | true => simp
    | false => simp [hsep, Nat.add_assoc]

theorem splitWeight_le (w : α → Nat) (sep : α) (ends : α → Bool) (text : List α) :
    splitWeight w sep ends text ≤ weight w text := by
  induction text with
  | nil => exact Nat.le_refl _
  | cons c rest ih =>
    have hcons := @splitWeight_cons α _ w sep ends c rest
    rw [weight_cons]
    split at hcons <;> omega

theorem splitWeight_lt (hpos : ∀ c, 0 < w c) {c : α} (hc : c ∈ text) (hcut : c = sep ∨ ends c) :
    splitWeight w sep ends text < weight w text := by
  induction text with
  | nil => exact nomatch hc
  | cons first rest ih =>
    have hcons := @splitWeight_cons α _ w sep ends first rest
    have hrest := splitWeight_le w sep ends rest
    have hfirst := hpos first
    rw [weight_cons]
    rcases List.mem_cons.mp hc with rfl | hmem
    · rw [if_pos hcut] at hcons
      omega
    · have hlt := ih hmem
      split at hcons <;> omega

/-! ## The pieces of parts -/

/-- A sign at which a text of parts is cut. -/
def Cuts (sep : α) (stops ends : α → Bool) (c : α) : Prop := c = sep ∨ stops c ∨ ends c

/-- The pieces of the parts behind the first one. -/
def laterPieces (sep : α) (stops ends : α → Bool) : List (List α) → List (List α)
  | [] => []
  | part :: parts => pieces sep stops ends (part ++ delimited sep parts)

/-- The first part is cut by itself, unless the text stops in it. -/
theorem pieces_append_delimited (hsep : stops sep = false) (ha : ∀ c ∈ a, stops c = false)
    (parts : List (List α)) :
    pieces sep stops ends (a ++ delimited sep parts) =
      (a.splitOn sep).map (cutBefore ends) ++ laterPieces sep stops ends parts := by
  cases parts with
  | nil =>
    rw [delimited_nil, List.append_nil, laterPieces, List.append_nil, pieces,
      cutBefore_of_forall ha]
  | cons next rest =>
    rw [delimited_cons, List.cons_append, pieces, cutBefore_append ha, cutBefore_cons, hsep,
      if_neg Bool.false_ne_true, List.splitOn_append_cons_self, List.map_append]
    rfl

theorem pieces_of_mem {c : α} (hc : c ∈ a) (hstop : stops c) (b : List α) :
    pieces sep stops ends (a ++ b) = ((cutBefore stops a).splitOn sep).map (cutBefore ends) := by
  unfold pieces
  rw [cutBefore_append_of_mem hc hstop]

variable {parts : List (List α)} {part : List α}

theorem laterPieces_eq_self (hsep : stops sep = false)
    (h : ∀ p ∈ parts, ∀ c ∈ p, ¬ Cuts sep stops ends c) :
    laterPieces sep stops ends parts = parts := by
  induction parts with
  | nil => rfl
  | cons part rest ih =>
    rw [List.forall_mem_cons] at h
    have hstops : ∀ c ∈ part, stops c = false := fun c hc =>
      Bool.eq_false_of_not_eq_true fun hstop => h.1 c hc (.inr (.inl hstop))
    have hends : ∀ c ∈ part, ends c = false := fun c hc =>
      Bool.eq_false_of_not_eq_true fun hend => h.1 c hc (.inr (.inr hend))
    rw [laterPieces, pieces_append_delimited hsep hstops, ih h.2,
      List.splitOn_eq_singleton fun hmem => h.1 sep hmem (.inl rfl), List.map_singleton,
      cutBefore_of_forall hends]
    rfl

/-- Parts without such signs are the pieces. -/
theorem pieces_delimited (hsep : stops sep = false)
    (h : ∀ p ∈ part :: parts, ∀ c ∈ p, ¬ Cuts sep stops ends c) :
    pieces sep stops ends (part ++ delimited sep parts) = part :: parts :=
  laterPieces_eq_self hsep h

theorem totalWeight_pieces_of_mem (hpos : ∀ c, 0 < w c) {c : α} (hc : c ∈ a) (hstop : stops c)
    (b : List α) : totalWeight w (pieces sep stops ends (a ++ b)) < weight w a := by
  rw [pieces_of_mem hc hstop]
  calc splitWeight w sep ends (cutBefore stops a)
      _ ≤ weight w (cutBefore stops a) := splitWeight_le w sep ends _
      _ < weight w a := weight_cutBefore_lt hpos hc hstop

/-- The first part gives no more than it weighs. -/
theorem totalWeight_pieces_first_le (hpos : ∀ c, 0 < w c) (hsep : stops sep = false)
    (part : List α) (parts : List (List α)) :
    totalWeight w (pieces sep stops ends (part ++ delimited sep parts)) ≤
      weight w part + totalWeight w (laterPieces sep stops ends parts) := by
  by_cases hstops : ∃ c ∈ part, stops c
  · obtain ⟨c, hc, hstop⟩ := hstops
    exact Nat.le_add_right_of_le (totalWeight_pieces_of_mem hpos hc hstop _).le
  · rw [pieces_append_delimited hsep (by simpa using hstops), totalWeight_append]
    exact Nat.add_le_add_right (splitWeight_le w sep ends part) _

/-- It gives less if there is a sign in it at which it is cut. -/
theorem totalWeight_pieces_first_lt (hpos : ∀ c, 0 < w c) (hsep : stops sep = false) {c : α}
    (hc : c ∈ part) (hcut : Cuts sep stops ends c) (parts : List (List α)) :
    totalWeight w (pieces sep stops ends (part ++ delimited sep parts)) <
      weight w part + totalWeight w (laterPieces sep stops ends parts) := by
  by_cases hstops : ∃ d ∈ part, stops d
  · obtain ⟨d, hd, hstop⟩ := hstops
    exact Nat.lt_add_right _ (totalWeight_pieces_of_mem hpos hd hstop _)
  · have hsplit : splitWeight w sep ends part < weight w part := by
      rcases hcut with heq | hstop | hend
      · exact splitWeight_lt hpos hc (.inl heq)
      · exact absurd ⟨c, hc, hstop⟩ hstops
      · exact splitWeight_lt hpos hc (.inr hend)
    rw [pieces_append_delimited hsep (by simpa using hstops), totalWeight_append]
    exact Nat.add_lt_add_right hsplit _

theorem totalWeight_laterPieces_le (hpos : ∀ c, 0 < w c) (hsep : stops sep = false)
    (parts : List (List α)) :
    totalWeight w (laterPieces sep stops ends parts) ≤ totalWeight w parts := by
  induction parts with
  | nil => exact Nat.le_refl _
  | cons part rest ih =>
    exact (totalWeight_pieces_first_le hpos hsep part rest).trans (Nat.add_le_add_left ih _)

theorem totalWeight_laterPieces_lt (hpos : ∀ c, 0 < w c) (hsep : stops sep = false) {p : List α}
    (hp : p ∈ parts) {c : α} (hc : c ∈ p) (hcut : Cuts sep stops ends c) :
    totalWeight w (laterPieces sep stops ends parts) < totalWeight w parts := by
  induction parts with
  | nil => exact nomatch hp
  | cons part rest ih =>
    rcases List.mem_cons.mp hp with rfl | hmem
    · exact (totalWeight_pieces_first_lt hpos hsep hc hcut rest).trans_le
        (Nat.add_le_add_left (totalWeight_laterPieces_le hpos hsep rest) _)
    · exact (totalWeight_pieces_first_le hpos hsep part rest).trans_lt
        (Nat.add_lt_add_left (ih hmem) _)

theorem totalWeight_pieces_le (hpos : ∀ c, 0 < w c) (hsep : stops sep = false) (part : List α)
    (parts : List (List α)) :
    totalWeight w (pieces sep stops ends (part ++ delimited sep parts)) ≤
      totalWeight w (part :: parts) :=
  totalWeight_laterPieces_le hpos hsep (part :: parts)

/-- Nothing is lost only if no part has a sign at which it is cut. -/
theorem totalWeight_pieces_lt (hpos : ∀ c, 0 < w c) (hsep : stops sep = false) {p : List α}
    (hp : p ∈ part :: parts) {c : α} (hc : c ∈ p) (hcut : Cuts sep stops ends c) :
    totalWeight w (pieces sep stops ends (part ++ delimited sep parts)) <
      totalWeight w (part :: parts) :=
  totalWeight_laterPieces_lt hpos hsep hp hc hcut

end OvirtArt.Foundation
