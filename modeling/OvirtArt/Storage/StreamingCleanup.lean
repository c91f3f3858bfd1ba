import OvirtArt.Foundation.CallLog
import OvirtArt.Storage.StreamingApi

set_option autoImplicit false

/-!
# The end of a transfer session

When a transfer is finalized and its connection closed.  The downloads do both in
a `finally`; the upload does both at its end only.

The condition is on the world: at which call it raises.  All three procedures are followed through
the same rules on recorded calls.
-/

namespace OvirtArt.Storage

open OvirtArt.Foundation

/-! ## The procedures -/

/-- A procedure with its arguments. -/
inductive Procedure where
  | downloadDisk (args : DownloadArgs)
  | downloadDiskSnapshot
  | uploadDisk (args : UploadArgs)

namespace Procedure

variable (world : World)

/-- Runs a procedure. -/
def perform : Procedure → Streaming Bool
  | downloadDisk args => Storage.downloadDisk world args
  | downloadDiskSnapshot => Storage.downloadDiskSnapshot world
  | uploadDisk args => Storage.uploadDisk world args

/-- The calls that the procedure makes, returning or raising. -/
def calls (procedure : Procedure) : List Call := (after (procedure.perform world) {}).log

/-- The transfer is finalized once, and the connection closed once. -/
def CleanedUp (procedure : Procedure) : Prop :=
  (procedure.calls world).count .finalize = 1 ∧
    (procedure.calls world).count .closeConnection = 1

end Procedure

/-- The call does not raise, and the local file does not end there. -/
def Served (world : World) (n : Nat) (c : Call) : Prop :=
  world.raises n = none ∧ ∀ bytes, c = .readFile bytes → world.chunk n ≠ []

/-- What the clean-up takes: finalizing does not raise; and in an upload no other call
raises before it, and the local file does not end before its time. -/
def Procedure.Undisturbed (world : World) (procedure : Procedure) : Prop :=
  ∀ i c, (procedure.calls world)[i]? = some c →
    match procedure with
    | uploadDisk _ => c ≠ .closeConnection → Served world i c
    | _ => c = .finalize → world.raises i = none

/-! ## What does not end a session -/

/-- The call does not belong to the clean-up. -/
def Quiet (c : Call) : Prop := c ≠ .finalize ∧ c ≠ .closeConnection

instance (c : Call) : Decidable (Quiet c) := inferInstanceAs (Decidable (_ ∧ _))

/-- How often the session was ended so far. -/
def Transfer.ends (s : Transfer) : Nat × Nat :=
  (s.log.count .finalize, s.log.count .closeConnection)

section

variable {world : World}

theorem keeps_call {c : Call} (hquiet : Quiet c) : Keeps Transfer.ends (call world c) := by
  intro s
  rw [after_call]
  simp [Transfer.ends, List.count_append, hquiet.1, hquiet.2]

theorem keeps_readChunk {c : Call} (hquiet : Quiet c) :
    Keeps Transfer.ends (readChunk world c) :=
  moves_get_bind fun _ => (keeps_call hquiet).bind_keeps fun _ => keeps_pure _

theorem keeps_getresponse : Keeps Transfer.ends (getresponse world) :=
  moves_get_bind fun _ => (keeps_call (by decide)).bind_keeps fun _ => keeps_pure _

theorem keeps_writeFile (chunk : Bytes) : Keeps Transfer.ends (writeFile world chunk) :=
  (keeps_call (by decide)).bind_keeps fun _ => moves_modify fun _ => rfl

theorem keeps_withOpenToWrite {α : Type} {body : Streaming α}
    (hbody : Keeps Transfer.ends body) : Keeps Transfer.ends (withOpenToWrite world body) := by
  refine (keeps_call (by decide)).bind_keeps fun _ => ?_
  refine Moves.bind_keeps (moves_modify fun _ => rfl) fun _ => ?_
  exact Moves.tryFinally hbody (keeps_call (by decide))

theorem keeps_downloadLoop (args : DownloadArgs) (pos : Nat) :
    Keeps Transfer.ends (downloadLoop world args pos) := by
  induction hleft : args.transferSize - pos using Nat.strong_induction_on generalizing pos with
  | _ left ih =>
    rw [downloadLoop]
    refine Moves.ite (fun hpos => ?_) fun _ => keeps_pure _
    refine (keeps_call (by decide)).bind_keeps fun _ => ?_
    refine (keeps_call (by constructor <;> simp)).bind_keeps fun _ => ?_
    refine keeps_getresponse.bind_keeps fun r => ?_
    refine Moves.ite (fun _ => ?_) fun _ => ?_
    · exact (keeps_call (by decide)).bind_keeps fun _ => keeps_pure _
    · refine (keeps_call (by decide)).bind_keeps fun _ => ?_
      refine (keeps_writeFile _).bind_keeps fun _ => ?_
      refine (keeps_onlyIf (keeps_pauseAndResume (keeps_call (by decide)) (keeps_call (by decide))
        (keeps_call (by decide)) (keeps_call (by decide)))).bind_keeps fun _ => ?_
      refine (keeps_onlyIf (keeps_interruptTransfer (keeps_call (by decide)))).bind_keeps
        fun _ => ?_
      exact ih _ (by unfold chunkSize; omega) _ rfl

theorem keeps_snapshotLoop (bytesToRead : Nat) :
    Keeps Transfer.ends (snapshotLoop world bytesToRead) := by
  induction bytesToRead using Nat.strong_induction_on with
  | _ bytesToRead ih =>
    rw [snapshotLoop]
    refine Moves.ite (fun hpos => ?_) fun _ => keeps_pure _
    refine (keeps_readChunk (by constructor <;> simp)).bind_keeps fun chunk => ?_
    split
    case isTrue => exact keeps_pure _
    case isFalse hchunk =>
      have := List.length_pos_iff.mpr hchunk
      exact (keeps_writeFile _).bind_keeps fun _ => ih _ (by omega)

/-! ## The clean-up -/

/-- The calls that the clean-up makes after `n` others. -/
def cleanUpCalls (world : World) (n : Nat) : List Call :=
  match world.raises n with
  | none => [.finalize, .closeConnection]
  | some _ => [.finalize]

theorem log_cleanUp (s : Transfer) :
    (after (cleanUp world) s).log = s.log ++ cleanUpCalls world s.log.length := by
  unfold cleanUp cleanUpCalls
  rw [after_bind, run_call]
  cases world.raises s.log.length with
  | none => simp [after_call]
  | some e => rfl

variable {calls : List Call}

/-- After quiet calls, the session is ended as it should be exactly if finalizing it
does not raise. -/
theorem cleaned_iff_of_quiet (hquiet : calls.count .finalize = 0)
    (hclose : calls.count .closeConnection = 0) :
    ((calls ++ cleanUpCalls world calls.length).count .finalize = 1 ∧
        (calls ++ cleanUpCalls world calls.length).count .closeConnection = 1) ↔
      ∀ i, (calls ++ cleanUpCalls world calls.length)[i]? = some Call.finalize →
        world.raises i = none := by
  have hnot : Call.finalize ∉ calls := List.count_eq_zero.mp hquiet
  have hwhere : ∀ i, (calls ++ cleanUpCalls world calls.length)[i]? = some Call.finalize ↔
      i = calls.length := by
    intro i
    rcases Nat.lt_trichotomy i calls.length with hlt | rfl | hgt
    · rw [List.getElem?_append_left hlt]
      refine iff_of_false (fun h => hnot (List.mem_of_getElem? h)) (by omega)
    · rw [List.getElem?_append_right (Nat.le_refl _), Nat.sub_self]
      refine iff_of_true ?_ rfl
      unfold cleanUpCalls
      cases world.raises calls.length <;> rfl
    · rw [List.getElem?_append_right (by omega)]
      obtain ⟨k, hk⟩ : ∃ k, i - calls.length = k + 1 := ⟨i - calls.length - 1, by omega⟩
      rw [hk]
      refine iff_of_false (fun h => ?_) (by omega)
      unfold cleanUpCalls at h
      cases hraises : world.raises calls.length with
      | none =>
        rw [hraises] at h
        cases k <;> simp at h
      | some e =>
        rw [hraises] at h
        simp at h
  simp only [hwhere, forall_eq]
  rw [List.count_append, List.count_append, hquiet, hclose]
  unfold cleanUpCalls
  cases world.raises calls.length with
  | none => simp
  | some e => simp

/-- A procedure that ends its session in a `finally`. -/
theorem cleaned_of_finally {m : Streaming Bool} (hm : Keeps Transfer.ends m) :
    ((after (tryFinally m (cleanUp world)) {}).log.count .finalize = 1 ∧
        (after (tryFinally m (cleanUp world)) {}).log.count .closeConnection = 1) ↔
      ∀ i, (after (tryFinally m (cleanUp world)) {}).log[i]? = some Call.finalize →
        world.raises i = none := by
  have hends := hm {}
  obtain ⟨hfinalize, hclose⟩ := Prod.mk.inj hends
  rw [after_tryFinally, log_cleanUp]
  exact cleaned_iff_of_quiet hfinalize hclose

theorem keeps_snapshot_body : Keeps Transfer.ends
    (do
      call world .getTransfer
      withOpenToWrite world do
        call world (.request none)
        let r ← getresponse world
        onlyIf (300 ≤ r.status) (call world .readBody)
        let bytesToRead ← fromExcept r.contentLength
        let status ← snapshotLoop world bytesToRead
        pure (status && decide (r.status < 300))) := by
  refine (keeps_call (by decide)).bind_keeps fun _ => keeps_withOpenToWrite ?_
  refine (keeps_call (by decide)).bind_keeps fun _ => ?_
  refine keeps_getresponse.bind_keeps fun r => ?_
  refine (keeps_onlyIf (keeps_call (by decide))).bind_keeps fun _ => ?_
  refine (keeps_fromExcept _).bind_keeps fun bytesToRead => ?_
  exact (keeps_snapshotLoop _).bind_keeps fun _ => keeps_pure _

/-! ## The upload -/

/-- The procedure completes exactly if all its calls are served. -/
abbrev Completes {α : Type} (world : World) (m : Streaming α) (ok : α → Prop) : Prop :=
  Succeeds Transfer.log (Served world) Quiet m ok

theorem completes_call {c : Call} (hquiet : Quiet c) (hread : ∀ bytes, c ≠ .readFile bytes) :
    Completes world (call world c) fun _ => True := by
  intro s
  refine ⟨[c], by rw [after_call], by simpa using hquiet, ?_⟩
  have hserved : Served world s.log.length c ↔ world.raises s.log.length = none :=
    and_iff_left fun bytes h => absurd h (hread bytes)
  simp only [AllServed, and_true, hserved]
  unfold Returns
  rw [run_call]
  cases world.raises s.log.length with
  | none => simp
  | some e => simp

/-- Reading the local file succeeds if it gives something. -/
theorem completes_readFile (bytes : Nat) :
    Completes world (readChunk world (.readFile bytes)) (· ≠ []) := by
  intro s
  have hafter : after (readChunk world (.readFile bytes)) s =
      { s with log := s.log ++ [.readFile bytes] } := by
    unfold readChunk
    rw [after_get_bind]
    exact (after_bind_eq (fun _ _ => rfl) s).trans (after_call _ s)
  refine ⟨[.readFile bytes], by rw [hafter], by simp [Quiet], ?_⟩
  have hserved : Served world s.log.length (.readFile bytes) ↔
      world.raises s.log.length = none ∧ world.chunk s.log.length ≠ [] := by
    simp [Served]
  simp only [AllServed, and_true, hserved]
  unfold Returns readChunk
  rw [EStateM.run_bind, EStateM.run_get]
  simp only
  rw [EStateM.run_bind, run_call]
  cases world.raises s.log.length with
  | none => simp
  | some e => simp

theorem completes_getresponse : Completes world (getresponse world) fun _ => True :=
  succeeds_get_bind fun _ =>
    (completes_call (by decide) (by simp)).andThen fun _ => succeeds_pure trivial

theorem completes_onlyIf {p : Prop} [Decidable p] {m : Streaming Unit}
    (hm : Completes world m fun _ => True) : Completes world (onlyIf p m) fun _ => True := by
  unfold onlyIf
  split
  · exact hm
  · exact succeeds_pure trivial

theorem completes_pauseAndResume : Completes world (pauseAndResume world) fun _ => True := by
  have hcall : ∀ {c : Call}, Quiet c → (∀ bytes, c ≠ .readFile bytes) →
      Completes world (call world c) fun _ => True := completes_call
  refine Succeeds.andThen ?_ fun _ => ?_
  · refine (hcall (by decide) (by simp)).andThen fun _ => ?_
    exact (hcall (by decide) (by simp)).andThen fun _ => hcall (by decide) (by simp)
  · refine (hcall (by decide) (by simp)).andThen fun _ => ?_
    exact (hcall (by decide) (by simp)).andThen fun _ => hcall (by decide) (by simp)

theorem completes_withOpenToRead {body : Streaming Bool} {ok : Bool → Prop}
    (hbody : Completes world body ok) : Completes world (withOpenToRead world body) ok := by
  refine (completes_call (by decide) (by simp)).andThen fun _ => ?_
  exact hbody.tryFinally (completes_call (by decide) (by simp))

/-- The loop of the upload comes to its end exactly if all its calls are served. -/
theorem completes_uploadLoop (args : UploadArgs) (pos : Nat) (lastExtend : ℚ) :
    Completes world (uploadLoop world args pos lastExtend) (· = true) := by
  induction hleft : args.transferSize - pos using Nat.strong_induction_on
    generalizing pos lastExtend with
  | _ left ih =>
    rw [uploadLoop]
    split
    case isFalse => exact succeeds_pure rfl
    case isTrue hpos =>
      refine succeeds_get_bind fun s => ?_
      refine (completes_onlyIf (completes_call (by decide) (by simp))).andThen fun _ => ?_
      refine (completes_readFile _).bind (fun chunk hchunk => ?_) fun chunk hchunk => ?_
      · rw [dif_neg hchunk]
        refine (completes_call (by decide) (by simp)).andThen fun _ => ?_
        refine (completes_onlyIf completes_pauseAndResume).andThen fun _ => ?_
        have := List.length_pos_iff.mpr hchunk
        exact ih _ (by omega) _ _ rfl
      · rw [dif_pos (not_not.mp hchunk)]
        exact Fails.after (completes_call (by decide) (by simp)) fun _ => fails_pure (by simp)

/-- The procedure ends the session as it should exactly if all its calls are served but
that to close the connection. -/
def EndsExactly (world : World) (m : Streaming Bool) : Prop :=
  ∀ s, ∃ calls, (after m s).log = s.log ++ calls ∧
    ((calls.count .finalize = 1 ∧ calls.count .closeConnection = 1) ↔
      AllServed (fun n c => c ≠ .closeConnection → Served world n c) s.log.length calls)

theorem counts_of_quiet (hquiet : ∀ c ∈ calls, Quiet c) :
    calls.count .finalize = 0 ∧ calls.count .closeConnection = 0 :=
  ⟨List.count_eq_zero.mpr fun h => (hquiet _ h).1 rfl,
    List.count_eq_zero.mpr fun h => (hquiet _ h).2 rfl⟩

theorem allServed_of_quiet (hquiet : ∀ c ∈ calls, Quiet c) (n : Nat) :
    AllServed (fun n c => c ≠ .closeConnection → Served world n c) n calls ↔
      AllServed (Served world) n calls := by
  rw [allServed_iff_getElem?, allServed_iff_getElem?]
  refine forall_congr' fun i => forall_congr' fun c => imp_congr_right fun hc => ?_
  exact ⟨fun h => h (hquiet c (List.mem_of_getElem? hc)).2, fun h _ => h⟩

/-- What is done before the end of the session has to complete. -/
theorem EndsExactly.of_bind {α : Type} {m : Streaming α} {f : α → Streaming Bool}
    {ok : α → Prop} (hm : Completes world m ok) (hf : ∀ a, ok a → EndsExactly world (f a))
    (hfail : ∀ a, ¬ ok a → ∃ b, f a = pure b) : EndsExactly world (m >>= f) := by
  intro s
  obtain ⟨calls, hlog, hquiet, hiff⟩ := hm s
  have hcounts := counts_of_quiet hquiet
  have hstop : ¬ Returns m ok s → (after (m >>= f) s).log = s.log ++ calls →
      ∃ calls, (after (m >>= f) s).log = s.log ++ calls ∧
        ((calls.count .finalize = 1 ∧ calls.count .closeConnection = 1) ↔
          AllServed (fun n c => c ≠ .closeConnection → Served world n c) s.log.length calls) := by
    intro hnot hafter
    refine ⟨calls, hafter, ?_⟩
    rw [allServed_of_quiet hquiet, ← hiff, hcounts.1]
    exact iff_of_false (by simp) hnot
  cases hrun : m.run s with
  | error e t =>
    refine hstop ?_ ?_
    · rintro ⟨a, u, hok, _⟩
      rw [hrun] at hok
      cases hok
    · rw [after_bind, hrun, ← hlog, after_eq_of_error hrun]
  | ok a t =>
    have hlogt : t.log = s.log ++ calls := by rw [← hlog, after_eq_of_ok hrun]
    by_cases ha : ok a
    · obtain ⟨more, hmore, hmoreIff⟩ := hf a ha t
      refine ⟨calls ++ more, ?_, ?_⟩
      · rw [after_bind, hrun, hmore, hlogt, List.append_assoc]
      · rw [allServed_append, allServed_of_quiet hquiet,
          and_iff_right (hiff.mp ⟨a, t, hrun, ha⟩), ← List.length_append, ← hlogt, ← hmoreIff,
          List.count_append, List.count_append, hcounts.1, hcounts.2, Nat.zero_add, Nat.zero_add]
    · obtain ⟨b, hb⟩ := hfail a ha
      refine hstop ?_ ?_
      · rintro ⟨c, u, hok, hc⟩
        obtain ⟨rfl, rfl⟩ := EStateM.Result.ok.inj (hrun.symm.trans hok)
        exact ha hc
      · rw [after_bind, hrun, ← hlogt]
        simp only [hb]
        rfl

theorem endsExactly_cleanUp {rest : Unit → Streaming Bool}
    (hrest : ∀ a, Keeps Transfer.log (rest a)) :
    EndsExactly world (cleanUp world >>= rest) := by
  intro s
  refine ⟨cleanUpCalls world s.log.length, ?_, ?_⟩
  · have hkeeps : (after (cleanUp world >>= rest) s).log = (after (cleanUp world) s).log := by
      rw [after_bind]
      unfold after
      cases (cleanUp world).run s with
      | ok a t => exact hrest a t
      | error e t => rfl
    rw [hkeeps, log_cleanUp]
  · unfold cleanUpCalls
    cases hraises : world.raises s.log.length with
    | none => simp [AllServed, Served, hraises]
    | some e => simp [AllServed, Served, hraises]

theorem endsExactly_uploadDisk (args : UploadArgs) :
    EndsExactly world (uploadDisk world args) := by
  have hcall : ∀ {c : Call} {f : Unit → Streaming Bool}, Quiet c →
      (∀ bytes, c ≠ .readFile bytes) → (∀ a, EndsExactly world (f a)) →
        EndsExactly world (call world c >>= f) := by
    intro c f hquiet hread hf
    exact .of_bind (completes_call hquiet hread) (fun a _ => hf a) fun _ h => absurd trivial h
  unfold uploadDisk
  intro s
  refine hcall (by decide) (by simp) (fun _ => ?_) s
  refine hcall (by decide) (by simp) fun _ => ?_
  refine hcall (by decide) (by simp) fun _ => ?_
  refine hcall (by decide) (by simp) fun _ => ?_
  refine hcall (by decide) (by simp) fun _ => ?_
  refine .of_bind (completes_withOpenToRead (completes_uploadLoop _ _ _)) ?_ ?_
  · intro finished hfinished
    rw [if_pos hfinished]
    refine .of_bind completes_getresponse (fun response _ => ?_) fun _ h => absurd trivial h
    refine .of_bind (completes_onlyIf (completes_call (by decide) (by simp))) (fun _ _ => ?_)
      fun _ h => absurd trivial h
    refine endsExactly_cleanUp fun _ => moves_get_bind fun _ => ?_
    exact Moves.bind_keeps (Moves.ite (fun _ => keeps_throw _) fun _ => keeps_pure _) fun _ =>
      keeps_pure _
  · intro finished hfinished
    exact ⟨false, if_neg hfinished⟩

end

/-! ## Every exit of every procedure -/

/-- A transfer session is finalized once and its connection closed once, however the
procedure ends, exactly if finalizing does not raise, and in an upload nothing
before does, nor does the local file end before its time. -/
theorem cleaned_up_iff_undisturbed (world : World) (procedure : Procedure) :
    procedure.CleanedUp world ↔ procedure.Undisturbed world := by
  unfold Procedure.CleanedUp Procedure.Undisturbed
  cases procedure with
  | downloadDisk args =>
    refine (cleaned_of_finally (keeps_withOpenToWrite (keeps_downloadLoop args 0))).trans ?_
    exact ⟨fun h i c hc hfinalize => h i (hfinalize ▸ hc), fun h i hi => h i _ hi rfl⟩
  | downloadDiskSnapshot =>
    refine (cleaned_of_finally keeps_snapshot_body).trans ?_
    exact ⟨fun h i c hc hfinalize => h i (hfinalize ▸ hc), fun h i hi => h i _ hi rfl⟩
  | uploadDisk args =>
    obtain ⟨calls, hlog, hiff⟩ := @endsExactly_uploadDisk world args {}
    have hcalls : (Procedure.uploadDisk args).calls world = calls := hlog
    rw [hcalls, hiff, allServed_iff_getElem?]
    simp only [List.length_nil, Nat.zero_add]

/-- The local file of an upload ends before its time. -/
def emptyFile : World where
  raises _ := none
  reply _ := ⟨200, [], .ok 0⟩
  chunk _ := []
  attached _ := false
  clock n := n
  isPausePer _ _ := false
  isHalf _ _ := false

/-- An upload whose local file is too short leaves its session open. -/
theorem upload_not_finalized :
    ¬ ∀ (world : World) (procedure : Procedure), procedure.CleanedUp world := by
  intro hall
  obtain ⟨hfinalize, _⟩ := hall emptyFile (.uploadDisk { transferSize := 1 })
  revert hfinalize
  decide +kernel

end OvirtArt.Storage
