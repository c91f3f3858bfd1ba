import OvirtArt.Foundation.Effects
import OvirtArt.Foundation.Histories

set_option autoImplicit false

/-!
# Procedures that record their calls

A procedure makes calls, each of which is recorded in a log and may fail.  This
file fixes what it means that the procedure succeeds exactly if all its calls are
served, and the rules by which this is put together from its parts.

The log is any part of the state that calls only append to.  Which calls are served is a
parameter, over the log so far, so that an outcome may depend on what has been called before.
-/

namespace OvirtArt.Foundation

variable {ε σ α β κ : Type}

/-- The calls, counted from the given number on, are all served. -/
def AllServed (served : Nat → κ → Prop) : Nat → List κ → Prop
  | _, [] => True
  | n, c :: rest => served n c ∧ AllServed served (n + 1) rest

theorem allServed_append {served : Nat → κ → Prop} :
    ∀ {first second : List κ} {n : Nat}, AllServed served n (first ++ second) ↔
      AllServed served n first ∧ AllServed served (n + first.length) second
  | [], second, n => by simp [AllServed]
  | c :: rest, second, n => by
      have hlength : n + (c :: rest).length = n + 1 + rest.length := by
        simp only [List.length_cons]
        omega
      rw [hlength]
      exact (and_congr_right' allServed_append).trans and_assoc.symm

theorem allServed_iff_getElem? {served : Nat → κ → Prop} :
    ∀ {calls : List κ} {n : Nat}, AllServed served n calls ↔
      ∀ i c, calls[i]? = some c → served (n + i) c
  | [], n => by simp [AllServed]
  | c :: rest, n => by
      unfold AllServed
      rw [allServed_iff_getElem?]
      constructor
      · rintro ⟨hfirst, hrest⟩ i other hother
        cases i with
        | zero =>
          obtain rfl : c = other := by simpa using hother
          exact hfirst
        | succ i =>
          have h := hrest i other (by simpa using hother)
          rwa [show n + (i + 1) = n + 1 + i by omega]
      · intro h
        refine ⟨h 0 c (by simp), fun i other hother => ?_⟩
        have hnext := h (i + 1) other (by simpa using hother)
        rwa [show n + 1 + i = n + (i + 1) by omega]

section

variable (log : σ → List κ) (served : Nat → κ → Prop) (quiet : κ → Prop)

/-- The procedure returns a value with `ok` from this state. -/
def Returns (m : EStateM ε σ α) (ok : α → Prop) (s : σ) : Prop :=
  ∃ a t, m.run s = .ok a t ∧ ok a

/-- The procedure makes quiet calls only, and returns a value with `ok` exactly if
all of them are served. -/
def Succeeds (m : EStateM ε σ α) (ok : α → Prop) : Prop :=
  ∀ s, ∃ calls, log (after m s) = log s ++ calls ∧ (∀ c ∈ calls, quiet c) ∧
    (Returns m ok s ↔ AllServed served (log s).length calls)

/-- The procedure makes quiet calls only, and returns no value with `ok`. -/
def Fails (m : EStateM ε σ α) (ok : α → Prop) : Prop :=
  ∀ s, ∃ calls, log (after m s) = log s ++ calls ∧ (∀ c ∈ calls, quiet c) ∧
    ¬ Returns m ok s

end

variable {log : σ → List κ} {served : Nat → κ → Prop} {quiet : κ → Prop}
  {ok : α → Prop} {good : β → Prop}

theorem succeeds_pure {a : α} (h : ok a) :
    Succeeds log served quiet (pure a : EStateM ε σ α) ok :=
  fun s => ⟨[], (List.append_nil (log s)).symm, by simp, iff_of_true ⟨a, s, rfl, h⟩ trivial⟩

theorem fails_pure {a : α} (h : ¬ ok a) : Fails log quiet (pure a : EStateM ε σ α) ok := by
  intro s
  refine ⟨[], (List.append_nil (log s)).symm, by simp, ?_⟩
  rintro ⟨b, t, hrun, hb⟩
  obtain ⟨rfl, rfl⟩ := EStateM.Result.ok.inj hrun
  exact h hb

theorem succeeds_get_bind {f : σ → EStateM ε σ α}
    (hf : ∀ s, Succeeds log served quiet (f s) ok) :
    Succeeds log served quiet (get >>= f) ok := fun s => hf s s

variable {m : EStateM ε σ α} {f : α → EStateM ε σ β}

/-- One procedure after the other; what comes after a value without `ok` must not
succeed. -/
theorem Succeeds.bind (hm : Succeeds log served quiet m ok)
    (hf : ∀ a, ok a → Succeeds log served quiet (f a) good)
    (hfail : ∀ a, ¬ ok a → Fails log quiet (f a) good) :
    Succeeds log served quiet (m >>= f) good := by
  intro s
  obtain ⟨calls, hlog, hquiet, hiff⟩ := hm s
  have hbind : ∀ {a t}, m.run s = .ok a t →
      after (m >>= f) s = after (f a) t ∧ log t = log s ++ calls ∧
        (Returns (m >>= f) good s ↔ Returns (f a) good t) := by
    intro a t hrun
    refine ⟨by rw [after_bind, hrun], ?_, ?_⟩
    · rw [← hlog, after_eq_of_ok hrun]
    · unfold Returns
      rw [EStateM.run_bind, hrun]
  cases hrun : m.run s with
  | error e t =>
    have hnot : ¬ AllServed served (log s).length calls := by
      rw [← hiff]
      rintro ⟨a, u, hok, _⟩
      rw [hrun] at hok
      cases hok
    refine ⟨calls, ?_, hquiet, iff_of_false ?_ hnot⟩
    · rw [after_bind, hrun, ← hlog, after_eq_of_error hrun]
    · rintro ⟨b, u, hok, _⟩
      rw [EStateM.run_bind, hrun] at hok
      cases hok
  | ok a t =>
    obtain ⟨hafter, hlogt, hreturns⟩ := hbind hrun
    by_cases ha : ok a
    · obtain ⟨more, hmore, hmoreQuiet, hmoreIff⟩ := hf a ha t
      refine ⟨calls ++ more, ?_, ?_, ?_⟩
      · rw [hafter, hmore, hlogt, List.append_assoc]
      · exact fun c hc => (List.mem_append.mp hc).elim (hquiet c) (hmoreQuiet c)
      · rw [hreturns, hmoreIff, allServed_append, hlogt, List.length_append,
          and_iff_right (hiff.mp ⟨a, t, hrun, ha⟩)]
    · obtain ⟨more, hmore, hmoreQuiet, hmoreFails⟩ := hfail a ha t
      have hnot : ¬ AllServed served (log s).length calls := by
        rw [← hiff]
        rintro ⟨b, u, hok, hb⟩
        obtain ⟨rfl, rfl⟩ := EStateM.Result.ok.inj (hrun.symm.trans hok)
        exact ha hb
      refine ⟨calls ++ more, ?_, ?_, ?_⟩
      · rw [hafter, hmore, hlogt, List.append_assoc]
      · exact fun c hc => (List.mem_append.mp hc).elim (hquiet c) (hmoreQuiet c)
      · rw [hreturns, allServed_append]
        exact iff_of_false hmoreFails fun h => hnot h.1

/-- One procedure after the other, where the first one returns in one way only. -/
theorem Succeeds.andThen (hm : Succeeds log served quiet m fun _ => True)
    (hf : ∀ a, Succeeds log served quiet (f a) good) : Succeeds log served quiet (m >>= f) good :=
  hm.bind (fun a _ => hf a) fun _ hnot => absurd trivial hnot

theorem Fails.after (hm : Succeeds log served quiet m fun _ => True)
    (hf : ∀ a, Fails log quiet (f a) good) : Fails log quiet (m >>= f) good := by
  intro s
  obtain ⟨calls, hlog, hquiet, _⟩ := hm s
  cases hrun : m.run s with
  | error e t =>
    refine ⟨calls, ?_, hquiet, ?_⟩
    · rw [after_bind, hrun, ← hlog, after_eq_of_error hrun]
    · rintro ⟨b, u, hok, _⟩
      rw [EStateM.run_bind, hrun] at hok
      cases hok
  | ok a t =>
    obtain ⟨more, hmore, hmoreQuiet, hfails⟩ := hf a t
    have hlogt : log t = log s ++ calls := by rw [← hlog, after_eq_of_ok hrun]
    refine ⟨calls ++ more, ?_, ?_, ?_⟩
    · rw [after_bind, hrun, hmore, hlogt, List.append_assoc]
    · exact fun c hc => (List.mem_append.mp hc).elim (hquiet c) (hmoreQuiet c)
    · rintro ⟨b, u, hok, hb⟩
      rw [EStateM.run_bind, hrun] at hok
      exact hfails ⟨b, u, hok, hb⟩

theorem returns_tryFinally {fin : EStateM ε σ β} {s : σ} :
    Returns (tryFinally m fin) ok s ↔
      Returns m ok s ∧ Returns fin (fun _ => True) (Foundation.after m s) := by
  unfold Returns
  rw [run_tryFinally]
  cases hrun : m.run s with
  | error e t =>
    constructor
    · rintro ⟨a, u, hok, _⟩
      cases hfin : fin.run t with
      | error e' v => simp [hfin] at hok
      | ok b v => simp [hfin] at hok
    · rintro ⟨⟨a, u, hok, _⟩, _⟩
      cases hok
  | ok a t =>
    rw [after_eq_of_ok hrun]
    cases hfin : fin.run t with
    | error e u =>
      simp only [hfin]
      constructor
      · rintro ⟨b, v, hok, _⟩
        cases hok
      · rintro ⟨_, b, v, hok, _⟩
        cases hok
    | ok b u =>
      simp only [hfin]
      constructor
      · rintro ⟨c, v, hok, hc⟩
        obtain ⟨rfl, rfl⟩ := EStateM.Result.ok.inj hok
        exact ⟨⟨a, t, rfl, hc⟩, b, u, rfl, trivial⟩
      · rintro ⟨⟨c, v, hok, hc⟩, _⟩
        obtain ⟨rfl, rfl⟩ := EStateM.Result.ok.inj hok
        exact ⟨a, u, rfl, hc⟩

/-- What is done last in every case has to succeed too. -/
theorem Succeeds.tryFinally {fin : EStateM ε σ β} (hm : Succeeds log served quiet m ok)
    (hfin : Succeeds log served quiet fin fun _ => True) :
    Succeeds log served quiet (tryFinally m fin) ok := by
  intro s
  obtain ⟨calls, hlog, hquiet, hiff⟩ := hm s
  obtain ⟨more, hmore, hmoreQuiet, hmoreIff⟩ := hfin (Foundation.after m s)
  refine ⟨calls ++ more, ?_, ?_, ?_⟩
  · rw [after_tryFinally, hmore, hlog, List.append_assoc]
  · exact fun c hc => (List.mem_append.mp hc).elim (hquiet c) (hmoreQuiet c)
  · rw [allServed_append, ← hiff, ← List.length_append, ← hlog, ← hmoreIff]
    exact returns_tryFinally

/-! ## Procedures with a script -/

/-- The calls, made after those before, are all served. -/
def ServedAfter (served : List κ → κ → Prop) : List κ → List κ → Prop
  | _, [] => True
  | before, c :: rest => served before c ∧ ServedAfter served (before ++ [c]) rest

section

variable {served : List κ → κ → Prop}

theorem servedAfter_append :
    ∀ {first second before : List κ}, ServedAfter served before (first ++ second) ↔
      ServedAfter served before first ∧ ServedAfter served (before ++ first) second
  | [], second, before => by simp [ServedAfter]
  | c :: rest, second, before => by
      have hbefore : before ++ c :: rest = before ++ [c] ++ rest := by simp
      rw [hbefore, List.cons_append]
      exact (and_congr_right' servedAfter_append).trans and_assoc.symm

theorem servedAfter_iff :
    ∀ {calls before : List κ}, ServedAfter served before calls ↔
      AtEach (fun done c => served (before ++ done) c) calls
  | [], before => iff_of_true trivial atEach_nil
  | first :: calls, before => by
      unfold ServedAfter
      rw [servedAfter_iff, atEach_cons, List.append_nil]
      simp only [List.append_assoc, List.cons_append, List.nil_append]

variable (log served) in
/-- The procedure returns a value with `ok` exactly if the calls of the script are
served, and these are then the calls that it has made. -/
def Follows (m : EStateM ε σ α) (script : List κ) (ok : α → Prop) : Prop :=
  ∀ s, (Returns m ok s ↔ ServedAfter served (log s) script) ∧
    ∀ a t, m.run s = .ok a t → ok a → log t = log s ++ script

theorem follows_pure {a : α} (h : ok a) :
    Follows log served (pure a : EStateM ε σ α) [] ok := by
  intro s
  refine ⟨iff_of_true ⟨a, s, rfl, h⟩ trivial, ?_⟩
  intro b t hrun _
  obtain ⟨rfl, rfl⟩ := EStateM.Result.ok.inj hrun
  exact (List.append_nil _).symm

theorem follows_modify {f : σ → σ} (h : ∀ s, log (f s) = log s) :
    Follows log served (modify f : EStateM ε σ PUnit) [] fun _ => True := by
  intro s
  refine ⟨iff_of_true ⟨⟨⟩, f s, rfl, trivial⟩ trivial, ?_⟩
  intro b t hrun _
  obtain ⟨rfl, rfl⟩ := EStateM.Result.ok.inj hrun
  exact (h s).trans (List.append_nil _).symm

variable {m : EStateM ε σ α} {f : α → EStateM ε σ β} {second first : List κ}

theorem returns_bind {s : σ} :
    Returns (m >>= f) good s ↔ ∃ a t, m.run s = .ok a t ∧ Returns (f a) good t := by
  unfold Returns
  rw [EStateM.run_bind]
  cases m.run s with
  | ok a t =>
    constructor
    · intro h
      exact ⟨a, t, rfl, h⟩
    · rintro ⟨b, u, hok, h⟩
      obtain ⟨rfl, rfl⟩ := EStateM.Result.ok.inj hok
      exact h
  | error e t =>
    constructor
    · rintro ⟨b, u, hok, _⟩
      cases hok
    · rintro ⟨b, u, hok, _⟩
      cases hok

/-- One procedure after the other; what comes after a value without `ok` must not
succeed. -/
theorem Follows.bind (hm : Follows log served m first ok)
    (hf : ∀ a, ok a → Follows log served (f a) second good)
    (hfail : ∀ a s, ¬ ok a → ¬ Returns (f a) good s) :
    Follows log served (m >>= f) (first ++ second) good := by
  intro s
  obtain ⟨hiff, hlog⟩ := hm s
  constructor
  · rw [returns_bind, servedAfter_append, ← hiff]
    constructor
    · rintro ⟨a, t, hrun, hreturns⟩
      have ha : ok a := Classical.byContradiction fun hnot => hfail a t hnot hreturns
      refine ⟨⟨a, t, hrun, ha⟩, ?_⟩
      rw [← hlog a t hrun ha]
      exact (hf a ha t).1.mp hreturns
    · rintro ⟨⟨a, t, hrun, ha⟩, hserved⟩
      rw [← hlog a t hrun ha] at hserved
      exact ⟨a, t, hrun, (hf a ha t).1.mpr hserved⟩
  · intro b u hrun hb
    obtain ⟨a, t, hfirst, c, v, hsecond, hc⟩ := returns_bind.mp ⟨b, u, hrun, hb⟩
    have ha : ok a := Classical.byContradiction fun hnot => hfail a t hnot ⟨c, v, hsecond, hc⟩
    rw [EStateM.run_bind, hfirst] at hrun
    rw [(hf a ha t).2 b u hrun hb, hlog a t hfirst ha, List.append_assoc]

theorem Follows.andThen (hm : Follows log served m first fun _ => True)
    (hf : ∀ a, Follows log served (f a) second good) :
    Follows log served (m >>= f) (first ++ second) good :=
  hm.bind (fun a _ => hf a) fun _ _ hnot => absurd trivial hnot

theorem Follows.after_modify {f : σ → σ} {m : EStateM ε σ β} {script : List κ}
    (h : ∀ s, log (f s) = log s) (hm : Follows log served m script good) :
    Follows log served (modify f >>= fun _ => m) script good :=
  (follows_modify h).andThen fun _ => hm

theorem Follows.tryFinally {fin : EStateM ε σ β} (hm : Follows log served m first ok)
    (hfin : Follows log served fin second fun _ => True) :
    Follows log served (tryFinally m fin) (first ++ second) ok := by
  intro s
  obtain ⟨hiff, hlog⟩ := hm s
  have hend : ∀ {a t}, m.run s = .ok a t → ok a →
      (Returns fin (fun _ => True) (Foundation.after m s) ↔
        ServedAfter served (log s ++ first) second) := by
    intro a t hrun ha
    rw [after_eq_of_ok hrun, ← hlog a t hrun ha]
    exact (hfin t).1
  constructor
  · rw [returns_tryFinally, servedAfter_append, ← hiff]
    refine and_congr_right fun hreturns => ?_
    obtain ⟨a, t, hrun, ha⟩ := hreturns
    exact hend hrun ha
  · intro b u hrun hb
    obtain ⟨⟨a, t, hfirst, ha⟩, c, v, hlast, _⟩ := returns_tryFinally.mp ⟨b, u, hrun, hb⟩
    rw [after_eq_of_ok hfirst] at hlast
    rw [run_tryFinally, hfirst] at hrun
    simp only [hlast] at hrun
    obtain ⟨rfl, rfl⟩ := EStateM.Result.ok.inj hrun
    rw [(hfin t).2 c v hlast trivial, hlog _ t hfirst ha, List.append_assoc]

end

end OvirtArt.Foundation
