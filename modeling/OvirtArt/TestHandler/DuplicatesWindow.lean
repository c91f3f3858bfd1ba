import Mathlib.Data.List.Nodup
import OvirtArt.TestHandler.DuplicatesFilter

set_option autoImplicit false

/-!
# What a `DuplicatesFilter` leaves out

One filter sees one record after the other.  Its window says of each record that it has let
through lately what has been let through after it, and whether its notice has been given.

The window is that of the source, and a stream may have any records.  The closed form is for
records of one level.
-/

namespace OvirtArt.TestHandler

open OvirtArt.Foundation

/-- What becomes of a record. -/
inductive Verdict where
  | inFull
  | notice
  | dropped
  deriving DecidableEq, Repr

section

variable {α : Type} [DecidableEq α]

/-! ## Runs of one filter -/

/-- What the filter makes of a record that nobody has written into. -/
def verdict (lastRecords : List (LastRecord α)) (record : LogRecord α) : Verdict :=
  let filtered := filter lastRecords record
  if filtered.passes then
    if filtered.record = record then .inFull else .notice
  else .dropped

/-- The window after these records. -/
def windowFrom (lastRecords : List (LastRecord α)) (records : List (LogRecord α)) :
    List (LastRecord α) :=
  records.foldl (fun window record => (filter window record).lastRecords) lastRecords

/-- What becomes of each of the records. -/
def verdictsFrom (lastRecords : List (LastRecord α)) :
    List (LogRecord α) → List (LogRecord α × Verdict)
  | [] => []
  | record :: rest =>
    (record, verdict lastRecords record) ::
      verdictsFrom (filter lastRecords record).lastRecords rest

/-- The window of a filter that has seen these records. -/
def window (records : List (LogRecord α)) : List (LastRecord α) := windowFrom [] records

/-- What a filter has made of these records. -/
def verdicts (records : List (LogRecord α)) : List (LogRecord α × Verdict) := verdictsFrom [] records

/-- The contents of the records that were emitted in full. -/
def fulls (history : List (LogRecord α × Verdict)) : List (String × String × Option α) :=
  (history.filter fun event => event.2 = .inFull).map fun event => event.1.content

/-- The number of notices given for records with this content. -/
def notices (content : String × String × Option α) (history : List (LogRecord α × Verdict)) : Nat :=
  history.countP fun event => event.2 = .notice ∧ event.1.content = content

/-! ## Specification -/

/-- The window has at most four entries, and no two equal ones. -/
structure Bounded (window : List (LastRecord α)) : Prop where
  length_le : window.length ≤ numRecordsToKeep
  nodup : (window.map LastRecord.content).Nodup

/-- An equal record has been emitted in full, and since then one notice for it, and fewer
than four records in full, all of them distinct and other ones. -/
def Explained (history : List (LogRecord α × Verdict)) (record : LogRecord α) : Prop :=
  ∃ earlier first since, history = earlier ++ (first, .inFull) :: since ∧
    first.content = record.content ∧ notices record.content since = 1 ∧
    (fulls since).length < numRecordsToKeep ∧ (fulls since).Nodup ∧
    record.content ∉ fulls since

/-- What the window says of the history: of each entry, what has been emitted in full after it,
and whether its notice has been given. -/
def Tells (window : List (LastRecord α)) (history : List (LogRecord α × Verdict)) : Prop :=
  ∀ newer rec older, window = older ++ rec :: newer →
    ∃ earlier first since, history = earlier ++ (first, .inFull) :: since ∧
      first.content = rec.content ∧ fulls since = newer.map LastRecord.content ∧
      notices rec.content since = if rec.duplicate then 1 else 0

end

section

variable {α : Type} [DecidableEq α] {lastRecords : List (LastRecord α)}
  {record : LogRecord α} {history : List (LogRecord α × Verdict)}

/-! ## One record -/

/-- What the filter can make of a record. -/
inductive Step (lastRecords : List (LastRecord α)) (record : LogRecord α) :
    Verdict → List (LastRecord α) → Prop where
  | skipping (hmsg : record.msg = skippingMsg) : Step lastRecords record .dropped lastRecords
  | dropped (rec : LastRecord α) (hmsg : record.msg ≠ skippingMsg) (hmem : rec ∈ lastRecords)
      (hsame : rec.content = record.content) (hduplicate : rec.duplicate = true) :
      Step lastRecords record .dropped lastRecords
  | notice (rec : LastRecord α) (hmsg : record.msg ≠ skippingMsg) (hmem : rec ∈ lastRecords)
      (hsame : rec.content = record.content) (hduplicate : rec.duplicate = false) :
      Step lastRecords record .notice (markDuplicate record lastRecords)
  | inFull (hmsg : record.msg ≠ skippingMsg)
      (hnew : record.content ∉ lastRecords.map LastRecord.content) :
      Step lastRecords record .inFull
        ((if lastRecords.length = numRecordsToKeep then lastRecords.drop 1 else lastRecords) ++
          [record.entry])

theorem step_filter (lastRecords : List (LastRecord α)) (record : LogRecord α) :
    Step lastRecords record (verdict lastRecords record)
      (filter lastRecords record).lastRecords := by
  unfold verdict filter
  by_cases hmsg : record.msg = skippingMsg
  · rw [if_pos hmsg]
    exact Step.skipping hmsg
  rw [if_neg hmsg]
  cases hfind : lastRecords.find? fun rec => rec.isSame record with
  | none =>
    simp only [if_true]
    refine Step.inFull hmsg fun hmem => ?_
    obtain ⟨rec, hrec, hcontent⟩ := List.mem_map.mp hmem
    exact List.find?_eq_none.mp hfind rec hrec (isSame_iff.mpr hcontent)
  | some rec =>
    have hmem := List.mem_of_find?_eq_some hfind
    have hfound := List.find?_some hfind
    have hsame := isSame_iff.mp hfound
    by_cases hduplicate : rec.duplicate = true
    · simp only [hduplicate, if_true]
      exact Step.dropped rec hmsg hmem hsame hduplicate
    · have hwritten : record.skipping ≠ record := fun heq =>
        hmsg (congrArg LogRecord.msg heq).symm
      simp only [hduplicate, Bool.false_eq_true, if_true, if_false, hwritten]
      exact Step.notice rec hmsg hmem hsame (Bool.eq_false_iff.mpr hduplicate)

/-- In a window without equal entries, the marked entry is the one of the record. -/
theorem markDuplicate_eq_map (hnodup : (lastRecords.map LastRecord.content).Nodup) :
    markDuplicate record lastRecords = lastRecords.map fun rec =>
      if rec.content = record.content then { rec with duplicate := true } else rec := by
  induction lastRecords with
  | nil => rfl
  | cons rec rest ih =>
    rw [List.map_cons, List.nodup_cons] at hnodup
    rw [markDuplicate, List.map_cons]
    by_cases hsame : rec.content = record.content
    · rw [if_pos (isSame_iff.mpr hsame), if_pos hsame]
      congr 1
      symm
      apply (List.map_congr_left fun other hother => ?_).trans (List.map_id rest)
      rw [if_neg]
      · rfl
      · intro hequal
        exact hnodup.1 (List.mem_map.mpr ⟨other, hother, hequal.trans hsame.symm⟩)
    · rw [if_neg (fun h => hsame (isSame_iff.mp h)), if_neg hsame, ih hnodup.2]

/-- Marking changes no content. -/
theorem contents_mark (lastRecords : List (LastRecord α)) (record : LogRecord α) :
    (lastRecords.map fun rec =>
      if rec.content = record.content then { rec with duplicate := true } else rec).map
        LastRecord.content = lastRecords.map LastRecord.content := by
  rw [List.map_map]
  apply List.map_congr_left
  intro rec _
  rw [Function.comp_apply]
  split
  · rfl
  · rfl

omit [DecidableEq α] in
theorem fulls_concat (history : List (LogRecord α × Verdict)) (record : LogRecord α)
    (outcome : Verdict) :
    fulls (history ++ [(record, outcome)]) =
      fulls history ++ if outcome = .inFull then [record.content] else [] := by
  unfold fulls
  by_cases h : outcome = .inFull
  · simp [h]
  · simp [h]

theorem notices_concat (content : String × String × Option α)
    (history : List (LogRecord α × Verdict)) (record : LogRecord α) (outcome : Verdict) :
    notices content (history ++ [(record, outcome)]) =
      notices content history +
        if outcome = .notice ∧ record.content = content then 1 else 0 := by
  unfold notices
  rw [List.countP_append, List.countP_singleton]
  simp only [decide_eq_true_eq]

/-- What was told before a record that is dropped is told after it. -/
theorem Tells.dropped (h : Tells lastRecords history) :
    Tells lastRecords (history ++ [(record, .dropped)]) := by
  intro newer rec older hsplit
  obtain ⟨earlier, first, since, rfl, hfirst, hfulls, hnotices⟩ := h newer rec older hsplit
  refine ⟨earlier, first, since ++ [(record, .dropped)], by simp, hfirst, ?_, ?_⟩
  · rw [fulls_concat, if_neg (by decide), List.append_nil, hfulls]
  · rw [notices_concat, if_neg (fun h => Verdict.noConfusion h.1), hnotices, Nat.add_zero]

/-- The notice of an unmarked entry marks it, and no other one. -/
theorem Tells.notice (h : Tells lastRecords history)
    (hnodup : (lastRecords.map LastRecord.content).Nodup) {found : LastRecord α}
    (hmem : found ∈ lastRecords) (hsame : found.content = record.content)
    (hunmarked : found.duplicate = false) :
    Tells (markDuplicate record lastRecords) (history ++ [(record, .notice)]) := by
  intro newer rec older hsplit
  rw [markDuplicate_eq_map hnodup] at hsplit
  obtain ⟨before, behind, hwindow, rfl, htail⟩ := List.map_eq_append_iff.mp hsplit
  obtain ⟨old, rest, rfl, hrec, rfl⟩ := List.map_eq_cons_iff.mp htail
  obtain ⟨earlier, first, since, rfl, hfirst, hfulls, hnotices⟩ := h rest old before hwindow
  have hcontent : rec.content = old.content := by
    rw [← hrec]
    split
    · rfl
    · rfl
  refine ⟨earlier, first, since ++ [(record, .notice)], by simp, hfirst.trans hcontent.symm, ?_, ?_⟩
  · rw [fulls_concat, if_neg (by decide), List.append_nil, hfulls, contents_mark]
  rw [notices_concat, hcontent, hnotices]
  by_cases hold : old.content = record.content
  · -- The entry is the one that was found, as no two are equal.
    have hfound : old = found := by
      refine List.inj_on_of_nodup_map hnodup ?_ hmem (hold.trans hsame.symm)
      rw [hwindow]
      exact List.mem_append_right _ List.mem_cons_self
    rw [if_pos hold] at hrec
    have hmarked : rec.duplicate = true := by rw [← hrec]
    have hnone : old.duplicate = false := hfound ▸ hunmarked
    have hgiven : Verdict.notice = .notice ∧ record.content = old.content := ⟨rfl, hold.symm⟩
    rw [hmarked, hnone, if_pos hgiven]
    rfl
  · rw [if_neg hold] at hrec
    have hother : ¬ (Verdict.notice = .notice ∧ record.content = rec.content) := fun h =>
      hold (hrec ▸ h.2.symm)
    rw [hrec, if_neg hother, Nat.add_zero]

/-- A record that is emitted in full comes after all that the window tells of, the oldest
entry being forgotten where there are four. -/
theorem Tells.inFull (h : Tells lastRecords history) {kept : List (LastRecord α)}
    (hkept : kept <:+ lastRecords) :
    Tells (kept ++ [record.entry]) (history ++ [(record, .inFull)]) := by
  obtain ⟨forgotten, rfl⟩ := hkept
  intro newer rec older hsplit
  rcases List.eq_nil_or_concat newer with rfl | ⟨between, last, rfl⟩
  · obtain ⟨_, hrec⟩ := List.append_inj' hsplit rfl
    obtain rfl := List.singleton_inj.mp hrec
    exact ⟨history, record, [], rfl, rfl, rfl, rfl⟩
  · have hconcat : older ++ rec :: (between ++ [last]) = (older ++ rec :: between) ++ [last] := by
      simp
    rw [List.concat_eq_append, hconcat] at hsplit
    obtain ⟨rfl, hlast⟩ := List.append_inj' hsplit rfl
    obtain rfl := List.singleton_inj.mp hlast
    obtain ⟨earlier, first, since, rfl, hfirst, hfulls, hnotices⟩ :=
      h between rec (forgotten ++ older) (by simp)
    refine ⟨earlier, first, since ++ [(record, .inFull)], by simp, hfirst, ?_, ?_⟩
    · rw [fulls_concat, hfulls, List.concat_eq_append, List.map_append]
      rfl
    · rw [notices_concat, if_neg (fun h => Verdict.noConfusion h.1), hnotices, Nat.add_zero]

/-- The window is bounded, and tells what has happened. -/
structure Faithful (lastRecords : List (LastRecord α))
    (history : List (LogRecord α × Verdict)) : Prop extends Bounded lastRecords where
  tells : Tells lastRecords history

/-- One record keeps the window faithful. -/
theorem Faithful.step {outcome : Verdict} {next : List (LastRecord α)}
    (h : Faithful lastRecords history) (hstep : Step lastRecords record outcome next) :
    Faithful next (history ++ [(record, outcome)]) := by
  cases hstep with
  | skipping _ => exact ⟨h.toBounded, h.tells.dropped⟩
  | dropped _ _ _ _ _ => exact ⟨h.toBounded, h.tells.dropped⟩
  | notice rec _ hmem hsame hunmarked =>
    refine ⟨⟨?_, ?_⟩, h.tells.notice h.nodup hmem hsame hunmarked⟩
    · rw [markDuplicate_eq_map h.nodup, List.length_map]
      exact h.length_le
    · rw [markDuplicate_eq_map h.nodup, contents_mark]
      exact h.nodup
  | inFull _ hnew =>
    have hkept : (if lastRecords.length = numRecordsToKeep then lastRecords.drop 1
        else lastRecords) <:+ lastRecords := by
      split
      · exact List.drop_suffix 1 lastRecords
      · exact List.suffix_refl lastRecords
    refine ⟨⟨?_, ?_⟩, h.tells.inFull hkept⟩
    · have hle := h.length_le
      unfold numRecordsToKeep at hle ⊢
      rw [List.length_append, List.length_singleton]
      split
      · rw [List.length_drop]
        omega
      · omega
    · have hsub := (hkept.sublist.map LastRecord.content)
      rw [List.map_append, List.map_singleton]
      apply List.Nodup.append (h.nodup.sublist hsub) (List.nodup_singleton _)
      intro content hold hentry
      obtain rfl := List.mem_singleton.mp hentry
      exact hnew (hsub.subset hold)

/-! ## Runs -/

theorem windowFrom_append (first second : List (LogRecord α)) :
    windowFrom lastRecords (first ++ second) = windowFrom (windowFrom lastRecords first) second :=
  List.foldl_append

theorem verdictsFrom_append (first second : List (LogRecord α)) :
    verdictsFrom lastRecords (first ++ second) =
      verdictsFrom lastRecords first ++ verdictsFrom (windowFrom lastRecords first) second := by
  induction first generalizing lastRecords with
  | nil => rfl
  | cons record rest ih =>
    rw [List.cons_append, verdictsFrom, verdictsFrom, ih, List.cons_append]
    rfl

/-- The window of a filter is faithful to what it has made of the records. -/
theorem faithful_window (records : List (LogRecord α)) :
    Faithful (window records) (verdicts records) := by
  induction records using List.reverseRecOn with
  | nil =>
    refine ⟨⟨Nat.zero_le _, List.nodup_nil⟩, fun newer rec older hsplit => ?_⟩
    exact absurd hsplit (by simp [window, windowFrom])
  | append_singleton records record ih =>
    unfold window verdicts
    rw [windowFrom_append, verdictsFrom_append]
    exact ih.step (step_filter (windowFrom [] records) record)

theorem Faithful.explained (h : Faithful lastRecords history) {rec : LastRecord α}
    (hmem : rec ∈ lastRecords) (hsame : rec.content = record.content)
    (hduplicate : rec.duplicate = true) : Explained history record := by
  obtain ⟨older, newer, rfl⟩ := List.append_of_mem hmem
  obtain ⟨earlier, first, since, hhistory, hfirst, hfulls, hnotices⟩ := h.tells newer rec older rfl
  rw [hduplicate, if_pos rfl] at hnotices
  have hnodup := h.nodup
  rw [List.map_append, List.map_cons] at hnodup
  obtain ⟨hother, hnewer⟩ := List.nodup_cons.mp hnodup.of_append_right
  refine ⟨earlier, first, since, hhistory, hfirst.trans hsame, hsame ▸ hnotices, ?_, ?_, ?_⟩
  · have hle := h.length_le
    rw [List.length_append, List.length_cons] at hle
    rw [hfulls, List.length_map]
    omega
  · rw [hfulls]
    exact hnewer
  · rw [hfulls, ← hsame]
    exact hother

end

/-- Whatever records a filter sees: its window has at most four entries and no two equal ones;
a record that it drops, other than the skipping message itself, has been emitted in full, with
one notice and fewer than four other records in full since; and a record that equals no entry
of the window is emitted in full, unless it is the skipping message. -/
theorem suppression {α : Type} [DecidableEq α] (records : List (LogRecord α))
    (record : LogRecord α) :
    Bounded (window records) ∧
      (record.msg = skippingMsg → verdict (window records) record = .dropped) ∧
      (record.msg ≠ skippingMsg → verdict (window records) record = .dropped →
        Explained (verdicts records) record) ∧
      (record.msg ≠ skippingMsg → record.content ∉ (window records).map LastRecord.content →
        verdict (window records) record = .inFull ∧
          (filter (window records) record).record = record) := by
  have hfaithful := faithful_window records
  have hstep := step_filter (window records) record
  refine ⟨hfaithful.toBounded, ?_, ?_, ?_⟩
  · intro hmsg
    unfold verdict filter
    rw [if_pos hmsg]
    rfl
  · intro hmsg hdropped
    generalize (filter (window records) record).lastRecords = next at hstep
    rw [hdropped] at hstep
    cases hstep with
    | skipping hskipping => exact absurd hskipping hmsg
    | dropped rec _ hmem hsame hduplicate => exact hfaithful.explained hmem hsame hduplicate
  · intro hmsg hnew
    have hnone : (window records).find? (fun rec => rec.isSame record) = none := by
      refine List.find?_eq_none.mpr fun rec hrec hsame => hnew ?_
      exact List.mem_map.mpr ⟨rec, hrec, isSame_iff.mp hsame⟩
    unfold verdict filter
    simp only [if_neg hmsg, hnone, if_true, and_self]

/-- The skipping message itself is dropped though nothing was emitted before. -/
theorem skipping_message_not_explained :
    ¬ ∀ (records : List (LogRecord Nat)) (record : LogRecord Nat),
      verdict (window records) record = .dropped → Explained (verdicts records) record := by
  intro hall
  obtain ⟨earlier, first, since, hhistory, _⟩ := hall [] ⟨20, "INFO", skippingMsg, none⟩ (by decide)
  exact absurd hhistory (by simp [verdicts, verdictsFrom])

end OvirtArt.TestHandler
