import Mathlib.Init

set_option autoImplicit false

/-!
# Stateful computations that may raise

A procedure that reads and writes shared state and may raise an exception is an
`EStateM`: what it has written stays written when it raises, and `tryFinally`
runs its second part in either case.  This file gives the state in which such a
procedure leaves, and the rules by which the change it makes to one part of the
state is put together from the changes of its parts.

`Triple` says what holds on return and what holds after an exception, `Raises` that there is an
exception, and `Moves` and `Keeps` how one part of the state changes.  Each has its rules for the
ways to put procedures together.
-/

namespace OvirtArt.Foundation

variable {ε σ α β γ : Type}

/-- The state in which the procedure leaves, returning or raising. -/
def after (m : EStateM ε σ α) (s : σ) : σ :=
  match m.run s with
  | .ok _ t => t
  | .error _ t => t

/-- The value of a computation outside the state, or its exception. -/
def fromExcept : Except ε α → EStateM ε σ α
  | .ok a => pure a
  | .error e => throw e

variable {m : EStateM ε σ α} {f : α → EStateM ε σ β} {s : σ}

theorem after_eq_of_ok {t : σ} {a : α} (h : m.run s = .ok a t) : after m s = t := by
  simp [after, h]

theorem after_eq_of_error {t : σ} {e : ε} (h : m.run s = .error e t) : after m s = t := by
  simp [after, h]

@[simp] theorem run_fromExcept (x : Except ε α) (s : σ) :
    (fromExcept x).run s =
      match x with
      | .ok a => .ok a s
      | .error e => .error e s := by
  cases x <;> rfl

/-- A sequence of two procedures returns exactly if both do. -/
theorem run_bind_eq_ok_iff {u : σ} {b : β} :
    (m >>= f).run s = .ok b u ↔ ∃ a t, m.run s = .ok a t ∧ (f a).run t = .ok b u := by
  rw [EStateM.run_bind]
  cases m.run s with
  | ok a t =>
    refine ⟨fun h => ⟨a, t, rfl, h⟩, ?_⟩
    rintro ⟨_, _, hfirst, h⟩
    cases hfirst
    exact h
  | error e t => exact iff_of_false (fun h => by cases h) fun ⟨_, _, h, _⟩ => by cases h

theorem run_fromExcept_eq_ok_iff {x : Except ε α} {t : σ} {a : α} :
    (fromExcept x).run s = .ok a t ↔ x = .ok a ∧ s = t := by
  cases x with
  | ok b => simp
  | error e => simp

/-- The second part of `tryFinally` runs in either case; what it raises itself
takes the place of the outcome of the first. -/
theorem run_tryFinally (m : EStateM ε σ α) (fin : EStateM ε σ β) (s : σ) :
    (tryFinally m fin).run s =
      match m.run s with
      | .ok a t =>
        match fin.run t with
        | .ok _ u => .ok a u
        | .error e u => .error e u
      | .error e t =>
        match fin.run t with
        | .ok _ u => .error e u
        | .error e' u => .error e' u := by
  unfold tryFinally
  simp only [tryFinally', Functor.map, EStateM.map, EStateM.run]
  cases m s with
  | ok a t => simp only; cases fin t <;> rfl
  | error e t => simp only; cases fin t <;> rfl

/-- A handler goes on in the state that the exception left. -/
theorem run_tryCatch (m : EStateM ε σ α) (handle : ε → EStateM ε σ α) (s : σ) :
    (tryCatch m handle).run s =
      match m.run s with
      | .ok a t => .ok a t
      | .error e t => (handle e).run t := by
  change EStateM.tryCatch m handle s = _
  unfold EStateM.tryCatch EStateM.run
  cases m s <;> rfl

theorem after_bind (m : EStateM ε σ α) (f : α → EStateM ε σ β) (s : σ) :
    after (m >>= f) s =
      match m.run s with
      | .ok a t => after (f a) t
      | .error _ t => t := by
  unfold after
  rw [EStateM.run_bind]
  cases m.run s <;> rfl

/-- What comes after and leaves the state as it is does not count. -/
theorem after_bind_eq (hf : ∀ a t, after (f a) t = t) (s : σ) : after (m >>= f) s = after m s := by
  rw [after_bind]
  unfold after at hf ⊢
  cases m.run s with
  | ok a t => exact hf a t
  | error e t => rfl

theorem after_get_bind (f : σ → EStateM ε σ β) (s : σ) :
    after (get >>= f) s = after (f s) s := rfl

theorem after_tryFinally (m : EStateM ε σ α) (fin : EStateM ε σ β) (s : σ) :
    after (tryFinally m fin) s = after fin (after m s) := by
  unfold after
  rw [run_tryFinally]
  cases m.run s with
  | ok a t => simp only; cases fin.run t <;> rfl
  | error e t => simp only; cases fin.run t <;> rfl

/-! ## Conditions before and after -/

/-- Started where `P` holds, the procedure returns a value with `Q`, or raises
where `E` holds. -/
def Triple (P : σ → Prop) (m : EStateM ε σ α) (Q : α → σ → Prop) (E : σ → Prop) : Prop :=
  ∀ s, P s →
    match m.run s with
    | .ok a t => Q a t
    | .error _ t => E t

section

variable {P I E : σ → Prop} {Q : α → σ → Prop} {R : β → σ → Prop}
  {m : EStateM ε σ α} {f : α → EStateM ε σ β}

theorem triple_pure {a : α} (h : ∀ s, P s → Q a s) :
    Triple P (pure a : EStateM ε σ α) Q E := h

theorem triple_throw {e : ε} (h : ∀ s, P s → E s) :
    Triple P (throw e : EStateM ε σ α) Q E := h

theorem triple_modify {f : σ → σ} {Q : PUnit → σ → Prop} (h : ∀ s, P s → Q ⟨⟩ (f s)) :
    Triple P (modify f : EStateM ε σ PUnit) Q E := h

theorem triple_fromExcept {x : Except ε α} (hok : ∀ a s, P s → Q a s) (herror : ∀ s, P s → E s) :
    Triple P (fromExcept x) Q E := by
  cases x with
  | ok a => exact hok a
  | error e => exact herror

theorem Triple.bind (hm : Triple P m Q E) (hf : ∀ a, Triple (Q a) (f a) R E) :
    Triple P (m >>= f) R E := by
  intro s hs
  have hfirst := hm s hs
  rw [EStateM.run_bind]
  cases hrun : m.run s with
  | ok a t =>
    simp only [hrun] at hfirst
    exact hf a t hfirst
  | error e t =>
    simp only [hrun] at hfirst
    exact hfirst

/-- What is done last in every case keeps what was reached. -/
theorem Triple.tryFinally {fin : EStateM ε σ β} (hm : Triple P m Q E)
    (hfin : ∀ a, Triple (Q a) fin (fun _ => Q a) E) (herror : Triple E fin (fun _ => E) E) :
    Triple P (tryFinally m fin) Q E := by
  intro s hs
  have hfirst := hm s hs
  rw [run_tryFinally]
  cases hrun : m.run s with
  | ok a t =>
    simp only [hrun] at hfirst ⊢
    have hlast := hfin a t hfirst
    cases hlastRun : fin.run t with
    | ok b u => simpa only [hlastRun] using hlast
    | error e u => simpa only [hlastRun] using hlast
  | error e t =>
    simp only [hrun] at hfirst ⊢
    have hlast := herror t hfirst
    cases hlastRun : fin.run t with
    | ok b u => simpa only [hlastRun] using hlast
    | error e u => simpa only [hlastRun] using hlast

/-- What is read is the state in which the rest starts. -/
theorem triple_get_bind {f : σ → EStateM ε σ β}
    (hf : ∀ s, Triple (fun t => t = s ∧ P t) (f s) R E) : Triple P (get >>= f) R E :=
  fun s hs => hf s s ⟨rfl, hs⟩

/-- A loop hands on what holds for the elements that are left. -/
theorem Triple.forM {f : γ → EStateM ε σ PUnit} {P : List γ → σ → Prop}
    (h : ∀ x rest, Triple (P (x :: rest)) (f x) (fun _ => P rest) E) (xs : List γ) :
    Triple (P xs) (xs.forM f) (fun _ => P []) E := by
  induction xs with
  | nil => exact triple_pure fun _ hs => hs
  | cons x rest ih => exact (h x rest).bind fun _ => ih

/-- A loop that collects values hands on what holds for those that it has and the elements
that are left. -/
theorem Triple.mapM {f : γ → EStateM ε σ β} {P : List γ → List β → σ → Prop}
    (h : ∀ x rest found, Triple (P (x :: rest) found) (f x)
      (fun value => P rest (found ++ [value])) E) (xs : List γ) (found : List β) :
    Triple (P xs found) (xs.mapM f) (fun values => P [] (found ++ values)) E := by
  induction xs generalizing found with
  | nil =>
    rw [List.mapM_nil]
    refine triple_pure fun _ hs => ?_
    rw [List.append_nil]
    exact hs
  | cons x rest ih =>
    rw [List.mapM_cons]
    refine (h x rest found).bind fun value => (ih (found ++ [value])).bind fun values => ?_
    refine triple_pure fun _ hs => ?_
    rw [List.append_assoc] at hs
    exact hs

/-- What two conditions lead to is reached together. -/
theorem Triple.and {P' E' : σ → Prop} {Q' : α → σ → Prop} (hm : Triple P m Q E)
    (hm' : Triple P' m Q' E') :
    Triple (fun s => P s ∧ P' s) m (fun a s => Q a s ∧ Q' a s) fun s => E s ∧ E' s := by
  intro s hs
  have hfirst := hm s hs.1
  have hsecond := hm' s hs.2
  cases hrun : m.run s with
  | ok a t =>
    simp only [hrun] at hfirst hsecond ⊢
    exact ⟨hfirst, hsecond⟩
  | error e t =>
    simp only [hrun] at hfirst hsecond ⊢
    exact ⟨hfirst, hsecond⟩

/-- Started where `P` holds, the procedure raises this exception. -/
def Raises (P : σ → Prop) (m : EStateM ε σ α) (e : ε) : Prop :=
  ∀ s, P s → ∃ t, m.run s = .error e t

theorem Raises.bind {e : ε} (hm : Raises P m e) : Raises P (m >>= f) e := by
  intro s hs
  obtain ⟨t, hrun⟩ := hm s hs
  exact ⟨t, by rw [EStateM.run_bind, hrun]⟩

/-- What returns in any case leaves the exception to what follows. -/
theorem Triple.bind_raises {e : ε} (hm : Triple P m Q fun _ => False)
    (hf : ∀ a, Raises (Q a) (f a) e) : Raises P (m >>= f) e := by
  intro s hs
  have hfirst := hm s hs
  rw [EStateM.run_bind]
  cases hrun : m.run s with
  | ok a t =>
    simp only [hrun] at hfirst
    exact hf a t hfirst
  | error e t =>
    simp only [hrun] at hfirst

/-- What holds after returning and after raising holds afterwards. -/
theorem Triple.after (hm : Triple P m (fun _ => I) I) {s : σ} (hs : P s) :
    I (after m s) := by
  have h := hm s hs
  unfold Foundation.after
  cases hrun : m.run s with
  | ok a t => simpa only [hrun] using h
  | error e t => simpa only [hrun] using h

theorem Triple.imp {P' : σ → Prop} {Q' : α → σ → Prop} {E' : σ → Prop}
    (hm : Triple P m Q E) (hP : ∀ s, P' s → P s) (hQ : ∀ a s, Q a s → Q' a s)
    (hE : ∀ s, E s → E' s) : Triple P' m Q' E' := by
  intro s hs
  have h := hm s (hP s hs)
  cases hrun : m.run s with
  | ok a t =>
    simp only [hrun] at h ⊢
    exact hQ a t h
  | error e t =>
    simp only [hrun] at h ⊢
    exact hE t h

end

/-! ## The change of one part of the state -/

/-- Whatever comes of the procedure, it changes the part of the state under
`view` by `change`. -/
def Moves (view : σ → γ) (change : γ → γ) (m : EStateM ε σ α) : Prop :=
  ∀ s, view (after m s) = change (view s)

/-- Whatever comes of the procedure, the part of the state under `view` is as
it was. -/
abbrev Keeps (view : σ → γ) (m : EStateM ε σ α) : Prop := Moves view id m

variable {view : σ → γ} {change first second : γ → γ}

theorem keeps_pure (a : α) : Keeps view (pure a : EStateM ε σ α) := fun _ => rfl

theorem keeps_throw (e : ε) : Keeps view (throw e : EStateM ε σ α) := fun _ => rfl

theorem keeps_fromExcept (x : Except ε α) :
    Keeps view (fromExcept x : EStateM ε σ α) := by
  cases x with
  | ok a => exact keeps_pure a
  | error e => exact keeps_throw e

theorem moves_modify {f : σ → σ} (h : ∀ s, view (f s) = change (view s)) :
    Moves view change (modify f : EStateM ε σ PUnit) := h

/-- What comes after a change and keeps the view leaves the change as it is. -/
theorem Moves.bind_keeps (hm : Moves view change m) (hf : ∀ a, Keeps view (f a)) :
    Moves view change (m >>= f) := by
  intro s
  have hs := hm s
  rw [after_bind]
  unfold after at hs
  cases hrun : m.run s with
  | ok a t =>
    simp only [hrun] at hs
    exact (hf a t).trans hs
  | error e t =>
    simp only [hrun] at hs
    exact hs

/-- What comes after reading the state may depend on it. -/
theorem moves_get_bind {f : σ → EStateM ε σ β} (hf : ∀ s, Moves view change (f s)) :
    Moves view change (get >>= f) := fun s => hf s s

/-- Two changes follow each other where the first does not raise. -/
theorem Moves.modify_bind {f : σ → σ} {m : EStateM ε σ β}
    (hf : ∀ s, view (f s) = first (view s)) (hm : Moves view second m) :
    Moves view (second ∘ first) (modify f >>= fun _ => m) := by
  intro s
  exact (hm (f s)).trans (congrArg second (hf s))

/-- What is to be done before may raise; then nothing is changed. -/
theorem moves_fromExcept_bind {x : Except ε α} (hf : ∀ a, x = .ok a → Moves view change (f a)) :
    Moves view (if x.isOk then change else id) (fromExcept x >>= f) := by
  cases x with
  | ok a => exact hf a rfl
  | error e => exact keeps_throw e

/-- Where the second part undoes what the first changes, the change of
`tryFinally` is that of its second part, whatever came of the first. -/
theorem Moves.tryFinally {fin : EStateM ε σ β} (hm : Keeps (change ∘ view) m)
    (hfin : Moves view change fin) : Moves view change (tryFinally m fin) := by
  intro s
  rw [after_tryFinally, hfin]
  exact hm s

/-- What keeps the view keeps what depends on it only. -/
theorem Keeps.comp {δ : Type} (hm : Keeps view m) (g : γ → δ) :
    Keeps (g ∘ view) m := fun s => congrArg g (hm s)

theorem Moves.ite {c : Prop} [Decidable c] {n : EStateM ε σ α} (hm : c → Moves view change m)
    (hn : ¬ c → Moves view change n) : Moves view change (if c then m else n) := by
  by_cases hc : c
  · simpa [hc] using hm hc
  · simpa [hc] using hn hc

/-- What depends on the view only is kept with it, returning and raising. -/
theorem triple_of_keeps (hm : Keeps view m) {P : σ → Prop}
    (hP : ∀ s t, view s = view t → P s → P t) :
    Triple P m (fun _ => P) P := by
  intro s hs
  have hview := hm s
  unfold after at hview
  cases hrun : m.run s with
  | ok a t =>
    simp only [hrun] at hview
    exact hP s t hview.symm hs
  | error e t =>
    simp only [hrun] at hview
    exact hP s t hview.symm hs

end OvirtArt.Foundation
