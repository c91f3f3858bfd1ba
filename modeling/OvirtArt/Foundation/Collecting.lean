import Mathlib.Data.List.Forall2

set_option autoImplicit false

/-!
# Collecting outcomes in a loop that may raise

A loop over a list that puts the outcome of a computation at the end of what it
has collected, for those elements that are selected.  Where no computation
raises, the outcomes stand in the order of the elements.

The computation is any function into `Except`.  The laws are for the empty list, for one element
more, for lists put together, and for the two ways in which the loop ends.
-/

namespace OvirtArt.Foundation

variable {α β σ ε : Type*}

/-! ## Computations that return -/

/-- A sequence of two computations returns exactly if both do. -/
theorem bind_eq_ok_iff {x : Except ε α} {f : α → Except ε β} {b : β} :
    x.bind f = .ok b ↔ ∃ a, x = .ok a ∧ f a = .ok b := by
  cases x with
  | ok a => simp [Except.bind]
  | error e => simp [Except.bind]

theorem map_eq_ok_iff {x : Except ε α} {f : α → β} {b : β} :
    x.map f = .ok b ↔ ∃ a, x = .ok a ∧ f a = b := by
  cases x with
  | ok a => simp [Except.map]
  | error e => simp [Except.map]

/-- A computation for each element returns exactly if each of them does. -/
theorem mapM_eq_ok_iff {ε α β : Type} {f : α → Except ε β} {xs : List α} {ys : List β} :
    xs.mapM f = .ok ys ↔ List.Forall₂ (fun x y => f x = .ok y) xs ys := by
  induction xs generalizing ys with
  | nil =>
    rw [List.forall₂_nil_left_iff]
    exact ⟨fun h => (Except.ok.inj h).symm, fun h => congrArg Except.ok h.symm⟩
  | cons x rest ih =>
    rw [List.mapM_cons, List.forall₂_cons_left_iff]
    constructor
    · intro h
      obtain ⟨y, hy, h⟩ := bind_eq_ok_iff.mp h
      obtain ⟨others, hothers, h⟩ := bind_eq_ok_iff.mp h
      exact ⟨y, others, hy, ih.mp hothers, (Except.ok.inj h).symm⟩
    · rintro ⟨y, others, hy, hothers, rfl⟩
      exact bind_eq_ok_iff.mpr ⟨y, hy, bind_eq_ok_iff.mpr ⟨others, ih.mpr hothers, rfl⟩⟩

/-- A loop raises in its first step or, if that returns, in the others. -/
theorem mapM_cons_eq_error_iff {ε α β : Type} {f : α → Except ε β} {x : α} {rest : List α} {e : ε} :
    (x :: rest).mapM f = .error e
      ↔ f x = .error e ∨ (∃ y, f x = .ok y) ∧ rest.mapM f = .error e := by
  rw [List.mapM_cons]
  cases hx : f x with
  | error other =>
    change (.error other : Except ε (List β)) = .error e ↔ _
    rw [Except.error.injEq, Except.error.injEq]
    constructor
    · intro h
      exact .inl h
    · rintro (h | ⟨⟨y, hy⟩, -⟩)
      · exact h
      · exact nomatch hy
  | ok value =>
    change (rest.mapM f).bind _ = _ ↔ _
    cases rest.mapM f with
    | error other =>
      constructor
      · intro h
        exact .inr ⟨⟨value, rfl⟩, h⟩
      · rintro (h | ⟨-, h⟩)
        · exact nomatch h
        · exact h
    | ok ys =>
      refine iff_of_false nofun ?_
      rintro (h | ⟨-, h⟩)
      · exact nomatch h
      · exact nomatch h

/-- The exception is that of the first computation that raises one. -/
theorem mapM_eq_error_iff {ε α β : Type} {f : α → Except ε β} {xs : List α} {e : ε} :
    xs.mapM f = .error e ↔ ∃ before x after, xs = before ++ x :: after ∧
      (∀ other ∈ before, ∃ y, f other = .ok y) ∧ f x = .error e := by
  induction xs with
  | nil =>
    refine iff_of_false nofun ?_
    rintro ⟨before, x, after, h, -⟩
    exact absurd h.symm (List.append_ne_nil_of_right_ne_nil _ (List.cons_ne_nil _ _))
  | cons x rest ih =>
    rw [mapM_cons_eq_error_iff, ih]
    constructor
    · rintro (hx | ⟨hx, before, y, after, rfl, hbefore, hy⟩)
      · exact ⟨[], x, rest, rfl, nofun, hx⟩
      · exact ⟨x :: before, y, after, rfl, List.forall_mem_cons.mpr ⟨hx, hbefore⟩, hy⟩
    · rintro ⟨before, y, after, heq, hbefore, hy⟩
      cases before with
      | nil =>
        obtain ⟨rfl, -⟩ := List.cons.inj heq
        exact .inl hy
      | cons z before =>
        obtain ⟨rfl, rfl⟩ := List.cons.inj heq
        obtain ⟨hx, hothers⟩ := List.forall_mem_cons.mp hbefore
        exact .inr ⟨hx, before, y, after, rfl, hothers, hy⟩

/-- The loop rule: what relates the two ends of no step, and is handed on by one
more step in front, relates the two ends of the loop. -/
theorem foldlM_rule {σ ε : Type} {α : Type*} {step : σ → α → Except ε σ}
    {R : List α → σ → σ → Prop} (nil : ∀ s, R [] s s)
    (cons : ∀ {s t u x rest}, step s x = .ok t → R rest t u → R (x :: rest) s u) :
    ∀ {xs : List α} {s t : σ}, xs.foldlM step s = .ok t → R xs s t
  | [], s, t, h => by
      obtain rfl : s = t := Except.ok.inj h
      exact nil s
  | x :: rest, s, t, h => by
      rw [List.foldlM_cons] at h
      obtain ⟨middle, hstep, hrest⟩ := bind_eq_ok_iff.mp h
      exact cons hstep (foldlM_rule nil cons hrest)

/-- A loop of which each step returns or not whatever came before returns exactly if all
steps do. -/
theorem foldlM_returns_iff {σ ε : Type} {α : Type*} {step : σ → α → Except ε σ}
    {P : α → Prop} (h : ∀ s x, (∃ t, step s x = .ok t) ↔ P x) {xs : List α} :
    ∀ {s : σ}, (∃ t, xs.foldlM step s = .ok t) ↔ ∀ x ∈ xs, P x := by
  induction xs with
  | nil => exact fun {s} => iff_of_true ⟨s, rfl⟩ fun _ hx => absurd hx List.not_mem_nil
  | cons x rest ih =>
    intro s
    rw [List.forall_mem_cons, ← h s x]
    constructor
    · rintro ⟨last, hlast⟩
      obtain ⟨t, hstep, hrest⟩ := bind_eq_ok_iff.mp hlast
      exact ⟨⟨t, hstep⟩, ih.mp ⟨last, hrest⟩⟩
    · rintro ⟨⟨t, hstep⟩, hrest⟩
      obtain ⟨last, hlast⟩ := (@ih t).mpr hrest
      exact ⟨last, bind_eq_ok_iff.mpr ⟨t, hstep, hlast⟩⟩

/-- A loop in a loop is a loop over everything that the inner one goes through. -/
theorem foldlM_flatMap {σ ε : Type} {α β : Type*} {step : σ → β → Except ε σ} {f : α → List β}
    {xs : List α} : ∀ {s : σ}, (xs.flatMap f).foldlM step s =
      xs.foldlM (fun s x => (f x).foldlM step s) s := by
  induction xs with
  | nil => exact fun {_} => rfl
  | cons x rest ih =>
    intro s
    rw [List.flatMap_cons, List.foldlM_append]
    exact congrArg _ (funext fun t => @ih t)

theorem foldlM_congr {σ ε : Type} {α : Type*} {step other : σ → α → Except ε σ} {xs : List α}
    (h : ∀ x ∈ xs, ∀ s, step s x = other s x) :
    ∀ {s : σ}, xs.foldlM step s = xs.foldlM other s := by
  induction xs with
  | nil => exact fun {_} => rfl
  | cons x rest ih =>
    obtain ⟨hfirst, hrest⟩ := List.forall_mem_cons.mp h
    intro s
    rw [List.foldlM_cons, hfirst]
    exact congrArg _ (funext fun t => @ih hrest t)

/-! ## What is collected -/

/-- From `before` to `after`, the outcomes of the selected elements are added, in
order and one for each. -/
def Collects (select : α → Bool) (compute : α → Except ε β) (xs : List α)
    (before after : List β) : Prop :=
  ∃ new, after = before ++ new ∧
    List.Forall₂ (fun x y => compute x = .ok y) (xs.filter select) new

namespace Collects

variable {select : α → Bool} {compute : α → Except ε β}

theorem nil (collected : List β) : Collects select compute [] collected collected :=
  ⟨[], by simp, by simp⟩

variable {after : List β}

/-- One step of the loop. -/
theorem of_step {x : α} {before : List β}
    (h : (if select x then (compute x).bind fun y => .ok (before ++ [y]) else .ok before)
      = Except.ok after) : Collects select compute [x] before after := by
  cases hselect : select x with
  | false =>
    obtain rfl : before = after := by simpa [hselect] using h
    exact ⟨[], by simp, by simp [hselect]⟩
  | true =>
    rw [if_pos hselect] at h
    obtain ⟨y, hy, hafter⟩ := bind_eq_ok_iff.mp h
    obtain rfl := Except.ok.inj hafter
    exact ⟨[y], rfl, by simpa [hselect] using hy⟩

theorem append {xs ys : List α} {before middle : List β}
    (first : Collects select compute xs before middle)
    (second : Collects select compute ys middle after) :
    Collects select compute (xs ++ ys) before after := by
  obtain ⟨new, rfl, hnew⟩ := first
  obtain ⟨more, rfl, hmore⟩ := second
  refine ⟨new ++ more, by simp, ?_⟩
  rw [List.filter_append]
  exact List.rel_append hnew hmore

/-- What is collected from nothing. -/
theorem forall₂ {xs : List α} (h : Collects select compute xs [] after) :
    List.Forall₂ (fun x y => compute x = .ok y) (xs.filter select) after := by
  obtain ⟨new, rfl, hnew⟩ := h
  exact hnew

end Collects

/-! ## Elements that give nothing -/

/-- The values of those elements that give one; an exception ends the loop. -/
def gather (f : α → Except ε (Option β)) : List α → Except ε (List β)
  | [] => .ok []
  | x :: rest =>
    (f x).bind fun y => (gather f rest).bind fun ys => .ok (y.toList ++ ys)

theorem mem_gather {f : α → Except ε (Option β)} {y : β} :
    ∀ {xs : List α} {ys : List β}, gather f xs = .ok ys →
      (y ∈ ys ↔ ∃ x ∈ xs, f x = .ok (some y))
  | [], ys, h => by
      obtain rfl := Except.ok.inj h
      simp
  | x :: rest, ys, h => by
      obtain ⟨value, hvalue, h⟩ := bind_eq_ok_iff.mp h
      obtain ⟨others, hothers, h⟩ := bind_eq_ok_iff.mp h
      obtain rfl := Except.ok.inj h
      rw [List.mem_append, mem_gather hothers, List.exists_mem_cons_iff, hvalue]
      simp

theorem gather_ok {f : α → Except ε (Option β)} {x : α} :
    ∀ {xs : List α} {ys : List β}, gather f xs = .ok ys → x ∈ xs → ∃ y, f x = .ok y
  | [], _, _, hmem => absurd hmem (by simp)
  | first :: rest, ys, h, hmem => by
      obtain ⟨value, hvalue, h⟩ := bind_eq_ok_iff.mp h
      obtain ⟨others, hothers, _⟩ := bind_eq_ok_iff.mp h
      rcases List.mem_cons.mp hmem with rfl | hrest
      · exact ⟨value, hvalue⟩
      · exact gather_ok hothers hrest

/-! ## One outcome for every element that counts -/

variable {xs : List α} {ys : List β}

/-- Where a list is in line with a part of another one, it is in line with the
whole exactly if the part is the whole. -/
theorem forall₂_iff_of_sublist {R : α → β → Prop} {part whole : List α} (hsub : part.Sublist whole)
    (h : List.Forall₂ R part ys) : List.Forall₂ R whole ys ↔ part = whole := by
  constructor
  · intro hall
    exact hsub.eq_of_length (h.length_eq.trans hall.length_eq.symm)
  · rintro rfl
    exact h

/-- The rest of a list is the whole exactly if nothing stands in front of it. -/
theorem eq_append_iff_of_sublist {front part rest : List α} (hsub : part.Sublist rest) :
    part = front ++ rest ↔ front = [] ∧ part = rest := by
  constructor
  · intro heq
    have hlength : part.length = front.length + rest.length := by
      rw [heq, List.length_append]
    have hle := hsub.length_le
    obtain rfl : front = [] := List.eq_nil_of_length_eq_zero (by omega)
    exact ⟨rfl, heq⟩
  · rintro ⟨rfl, rfl⟩
    rfl

/-- The elements that are selected are all that count exactly if every element
that counts is selected. -/
theorem filter_eq_filter_iff {counts select : α → Bool}
    (hsub : ∀ x, select x = true → counts x = true) :
    xs.filter select = xs.filter counts ↔ ∀ x ∈ xs, counts x = true → select x = true := by
  constructor
  · intro heq x hx hcounts
    have hmem : x ∈ xs.filter select := heq ▸ List.mem_filter.mpr ⟨hx, hcounts⟩
    exact (List.mem_filter.mp hmem).2
  · intro hall
    refine List.filter_congr fun x hx => ?_
    exact Bool.eq_iff_iff.mpr ⟨hsub x, hall x hx⟩

/-- A condition on the outcomes that amounts to one on the elements. -/
theorem forall₂_and_iff {R : α → β → Prop} {q : β → Prop} {p : α → Prop}
    (hsame : ∀ x y, R x y → (q y ↔ p x)) (h : List.Forall₂ R xs ys) :
    List.Forall₂ (fun x y => q y ∧ R x y) xs ys ↔ ∀ x ∈ xs, p x := by
  have hrel : (fun x y => q y ∧ R x y) = fun x y => p x ∧ R x y := by
    funext x y
    exact propext (and_congr_left (hsame x y))
  rw [hrel, List.forall₂_and_left, and_iff_left h]

/-! ## Lists put together -/

/-- The loop that extends what it has collected with the list computed for each element. -/
def extendAll {ε β : Type} {α : Type*} (compute : α → Except ε (List β)) (collected : List β)
    (xs : List α) : Except ε (List β) :=
  xs.foldlM (fun collected x => (compute x).map (collected ++ ·)) collected

section

variable {ε β : Type} {α : Type*} {compute : α → Except ε (List β)}

theorem extendAll_cons (x : α) (collected : List β) (xs : List α) :
    extendAll compute collected (x :: xs)
      = ((compute x).map (collected ++ ·)).bind (extendAll compute · xs) :=
  rfl

/-- Where every computation returns, the lists stand in the order of the elements. -/
theorem extendAll_ok {found : α → List β} {xs : List α}
    (h : ∀ x ∈ xs, compute x = .ok (found x)) (collected : List β) :
    extendAll compute collected xs = .ok (collected ++ xs.flatMap found) := by
  induction xs generalizing collected with
  | nil => exact congrArg Except.ok (List.append_nil collected).symm
  | cons x xs ih =>
    rw [List.forall_mem_cons] at h
    rw [extendAll_cons, h.1]
    calc
      extendAll compute (collected ++ found x) xs
          = .ok (collected ++ found x ++ xs.flatMap found) := ih h.2 _
      _ = .ok (collected ++ (x :: xs).flatMap found) := by
        rw [List.append_assoc, List.flatMap_cons]

theorem extendAll_singleton (x : α) : extendAll compute [] [x] = compute x := by
  cases h : compute x with
  | ok found => rw [extendAll_cons, h]; rfl
  | error e => rw [extendAll_cons, h]; rfl

theorem extendAll_attach (collected : List β) (xs : List α) :
    extendAll (fun x : { x // x ∈ xs } => compute x.1) collected xs.attach
      = extendAll compute collected xs := by
  unfold extendAll
  rw [List.foldlM_subtype (g := fun collected x => (compute x).map (collected ++ ·))
    fun _ _ _ => rfl, List.unattach_attach]

theorem extendAll_map {γ : Type*} (f : γ → α) (collected : List β) (ys : List γ) :
    extendAll compute collected (ys.map f) = extendAll (fun y => compute (f y)) collected ys :=
  List.foldlM_map

/-- The loop returns exactly if every computation does. -/
theorem extendAll_returns_iff {collected : List β} {xs : List α} :
    (∃ found, extendAll compute collected xs = .ok found) ↔
      ∀ x ∈ xs, ∃ found, compute x = .ok found := by
  induction xs generalizing collected with
  | nil => exact iff_of_true ⟨collected, rfl⟩ fun x hx => absurd hx List.not_mem_nil
  | cons x xs ih =>
    rw [extendAll_cons, List.forall_mem_cons]
    cases hx : compute x with
    | ok found =>
      rw [and_iff_right ⟨found, rfl⟩]
      exact ih
    | error e =>
      refine iff_of_false ?_ fun hboth => ?_
      · rintro ⟨found, hfound⟩
        cases hfound
      · obtain ⟨found, hfound⟩ := hboth.1
        cases hfound

/-- The loop collects nothing exactly if no computation gives it anything. -/
theorem extendAll_eq_nil_iff {xs : List α} :
    extendAll compute [] xs = .ok [] ↔ ∀ x ∈ xs, compute x = .ok [] := by
  constructor
  · intro h
    choose! found hfound using extendAll_returns_iff.mp ⟨[], h⟩
    rw [extendAll_ok hfound, List.nil_append, Except.ok.injEq, List.flatMap_eq_nil_iff] at h
    intro x hx
    rw [hfound x hx, h x hx]
  · intro h
    rw [extendAll_ok h, List.nil_append, List.flatMap_eq_nil_iff.mpr fun _ _ => rfl]

end

end OvirtArt.Foundation
