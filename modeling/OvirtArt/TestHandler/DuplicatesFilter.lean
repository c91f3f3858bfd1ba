import Mathlib.Data.List.Induction
import OvirtArt.Foundation.Histories

set_option autoImplicit false

/-!
# `test_handler/logger_utils.py`: the handlers that leave out duplicates

`DuplicateFileHandler` and `DuplicateConsoleHandler` have a filter each, which leaves
out what it has seen lately and writes into the record that it lets through.  A logger
gives the same record to all its handlers, one after the other.

Records are objects: what one handler writes into a record is there for the next.  Of a record its
level, message and arguments are modelled; locks, and where a handler writes to, are left out.
-/

namespace OvirtArt.TestHandler

open OvirtArt.Foundation

/-- What a record of the log has that the filter looks at. -/
structure LogRecord (α : Type) where
  levelno : Nat
  levelname : String
  msg : String
  args : Option α
  deriving DecidableEq

/-- An entry of `last_records`. -/
structure LastRecord (α : Type) where
  msg : String
  level : String
  args : Option α
  duplicate : Bool
  deriving DecidableEq

/-- `SKIPPING_MSG`. -/
def skippingMsg : String := "Skipping duplicate log-messages..."

/-- `num_records_to_keep`. -/
def numRecordsToKeep : Nat := 4

/-- What the filter makes of a record. -/
structure Filtered (α : Type) where
  passes : Bool
  record : LogRecord α
  lastRecords : List (LastRecord α)

/-- A handler with its filter. -/
structure Handler (α : Type) where
  level : Nat
  lastRecords : List (LastRecord α) := []

section

variable {α : Type}

/-- The record as it is let through instead of a duplicate. -/
def LogRecord.skipping (record : LogRecord α) : LogRecord α :=
  { record with msg := skippingMsg, levelname := "DEBUG", args := none }

/-- The entry for a record that is new. -/
def LogRecord.entry (record : LogRecord α) : LastRecord α where
  msg := record.msg
  level := record.levelname
  args := record.args
  duplicate := false

variable [DecidableEq α]

/-- The record repeats the last one. -/
def LastRecord.isSame (rec : LastRecord α) (record : LogRecord α) : Bool :=
  record.levelname == rec.level && record.msg == rec.msg && record.args == rec.args

/-- The entries with the first one that is the same as the record marked. -/
def markDuplicate (record : LogRecord α) : List (LastRecord α) → List (LastRecord α)
  | [] => []
  | rec :: rest =>
    if rec.isSame record then { rec with duplicate := true } :: rest
    else rec :: markDuplicate record rest

/-- `DuplicatesFilter.filter`. -/
def filter (lastRecords : List (LastRecord α)) (record : LogRecord α) : Filtered α :=
  if record.msg = skippingMsg then ⟨false, record, lastRecords⟩
  else
    match lastRecords.find? fun rec => rec.isSame record with
    | some rec =>
      if rec.duplicate then ⟨false, record, lastRecords⟩
      else ⟨true, record.skipping, markDuplicate record lastRecords⟩
    | none =>
      ⟨true, record,
        (if lastRecords.length = numRecordsToKeep then lastRecords.drop 1 else lastRecords) ++
          [record.entry]⟩

namespace Handler

/-- What a handler makes of a record: the handler and the record afterwards, and what it
has emitted. -/
structure Handled (α : Type) where
  handler : Handler α
  record : LogRecord α
  emitted : Option (LogRecord α)

/-- The logger gives a record to a handler of its level, which emits it if its filter
lets it through. -/
def handle (handler : Handler α) (record : LogRecord α) : Handled α :=
  if handler.level ≤ record.levelno then
    let filtered := filter handler.lastRecords record
    { handler := { handler with lastRecords := filtered.lastRecords }
      record := filtered.record
      emitted := if filtered.passes then some filtered.record else none }
  else { handler, record, emitted := none }

end Handler

/-- `Logger.callHandlers`: the same record for one handler after the other. -/
def callHandlers : List (Handler α) → LogRecord α → List (Handler α) × List (Option (LogRecord α))
  | [], _ => ([], [])
  | handler :: handlers, record =>
    let handled := handler.handle record
    let rest := callHandlers handlers handled.record
    (handled.handler :: rest.1, handled.emitted :: rest.2)

/-- What the handlers of a logger emit for each of its records. -/
def emissions : List (Handler α) → List (LogRecord α) → List (List (Option (LogRecord α)))
  | _, [] => []
  | handlers, record :: records =>
    (callHandlers handlers record).2 :: emissions (callHandlers handlers record).1 records

/-- The handler after these records, if it is the only one. -/
def Handler.alone (handler : Handler α) (records : List (LogRecord α)) : Handler α :=
  records.foldl (fun handler record => (handler.handle record).handler) handler

/-- Each of the two handlers emits for each record what it would emit alone. -/
def Independent (first second : Handler α) (records : List (LogRecord α)) : Prop :=
  emissions [first, second] records =
    List.zipWith (· ++ ·) (emissions [first] records) (emissions [second] records)

/-! ## One record -/

/-- The record gets to the filter, and is not one that a filter has written. -/
def Handler.Receives (level : Nat) (record : LogRecord α) : Prop :=
  level ≤ record.levelno ∧ record.msg ≠ skippingMsg

/-- The handler writes into the record: it is the first repetition of an entry. -/
def Handler.Rewrites (handler : Handler α) (record : LogRecord α) : Prop :=
  Receives handler.level record ∧
    ∃ rec, handler.lastRecords.find? (fun rec => rec.isSame record) = some rec ∧
      rec.duplicate = false

/-- The handler lets the record through: as a first repetition, or as new. -/
def Handler.LetsThrough (handler : Handler α) (record : LogRecord α) : Prop :=
  Receives handler.level record ∧
    ∀ rec, handler.lastRecords.find? (fun rec => rec.isSame record) = some rec →
      rec.duplicate = false

/-- No record is rewritten by the first handler that the second one would let through,
by what each of them has seen alone before. -/
def Unwritten (first second : Handler α) (records : List (LogRecord α)) : Prop :=
  AtEach (fun before record => (first.alone before).Rewrites record →
    ¬ (second.alone before).LetsThrough record) records

end

section

variable {α : Type} [DecidableEq α] {handler first second : Handler α} {record : LogRecord α}
  {records : List (LogRecord α)}

theorem record_handle_of_not_rewrites (h : ¬ handler.Rewrites record) :
    (handler.handle record).record = record := by
  unfold Handler.handle filter
  split
  case isFalse => rfl
  case isTrue hlevel =>
    by_cases hmsg : record.msg = skippingMsg
    · simp only [hmsg, if_true]
    · simp only [hmsg, if_false]
      cases hfind : handler.lastRecords.find? fun rec => rec.isSame record with
      | none => rfl
      | some rec =>
        have hduplicate : rec.duplicate = true := by
          by_contra hnot
          exact h ⟨⟨hlevel, hmsg⟩, rec, hfind, Bool.eq_false_iff.mpr hnot⟩
        simp only [hduplicate, if_true]

theorem record_handle_of_rewrites (h : handler.Rewrites record) :
    (handler.handle record).record = record.skipping := by
  obtain ⟨⟨hlevel, hmsg⟩, rec, hfind, hduplicate⟩ := h
  unfold Handler.handle filter
  simp only [hlevel, if_true, hmsg, if_false, hfind, hduplicate, Bool.false_eq_true]

/-- A record that a filter has written is refused. -/
theorem handle_skipping (handler : Handler α) (record : LogRecord α) :
    handler.handle record.skipping = ⟨handler, record.skipping, none⟩ := by
  unfold Handler.handle filter
  split
  case isTrue => simp [LogRecord.skipping]
  case isFalse => rfl

theorem handle_of_not_letsThrough (h : ¬ handler.LetsThrough record) :
    (handler.handle record).handler = handler ∧ (handler.handle record).emitted = none := by
  unfold Handler.handle filter
  split
  case isFalse => exact ⟨rfl, rfl⟩
  case isTrue hlevel =>
    by_cases hmsg : record.msg = skippingMsg
    · simp [hmsg]
    · cases hfind : handler.lastRecords.find? fun rec => rec.isSame record with
      | none =>
        refine absurd ⟨⟨hlevel, hmsg⟩, fun rec hrec => ?_⟩ h
        rw [hfind] at hrec
        cases hrec
      | some rec =>
        have hduplicate : rec.duplicate = true := by
          by_contra hnot
          refine h ⟨⟨hlevel, hmsg⟩, fun other hother => ?_⟩
          obtain rfl := Option.some.inj (hfind.symm.trans hother)
          exact Bool.eq_false_iff.mpr hnot
        simp [hduplicate]

theorem emitted_of_letsThrough (h : handler.LetsThrough record) :
    (handler.handle record).emitted ≠ none := by
  obtain ⟨⟨hlevel, hmsg⟩, hfind⟩ := h
  unfold Handler.handle filter
  simp only [hlevel, if_true, hmsg, if_false]
  cases hsame : handler.lastRecords.find? fun rec => rec.isSame record with
  | none => simp
  | some rec => simp [hfind rec hsame]

/-! ## Two handlers -/

theorem independent_cons :
    Independent first second (record :: records) ↔
      (first.Rewrites record → ¬ second.LetsThrough record) ∧
        Independent (first.handle record).handler (second.handle record).handler records := by
  unfold Independent
  simp only [emissions, callHandlers, List.zipWith_cons_cons, List.cons.injEq, List.cons_append,
    List.nil_append, true_and, and_true]
  by_cases hrewrites : first.Rewrites record
  · rw [record_handle_of_rewrites hrewrites, handle_skipping]
    by_cases hpasses : second.LetsThrough record
    · refine iff_of_false (fun h => ?_) fun h => h.1 hrewrites hpasses
      exact emitted_of_letsThrough hpasses h.1.symm
    · obtain ⟨hsame, hnone⟩ := handle_of_not_letsThrough hpasses
      rw [hsame, hnone]
      exact and_congr_left' (iff_of_true rfl fun _ => hpasses)
  · rw [record_handle_of_not_rewrites hrewrites]
    exact and_congr_left' (iff_of_true rfl fun h => absurd h hrewrites)

/-- Two handlers disturb each other exactly where the first one writes into a record
that the second one would let through. -/
theorem independent_iff_unwritten :
    Independent first second records ↔ Unwritten first second records := by
  induction records generalizing first second with
  | nil => exact iff_of_true rfl atEach_nil
  | cons record records ih =>
    rw [independent_cons, ih]
    unfold Unwritten
    rw [atEach_cons]
    exact Iff.rfl

/-! ## Handlers of the same level -/

/-- What the filter compares. -/
def LogRecord.content (record : LogRecord α) : String × String × Option α :=
  (record.levelname, record.msg, record.args)

instance (level : Nat) (record : LogRecord α) : Decidable (Handler.Receives level record) :=
  inferInstanceAs (Decidable (_ ∧ _))

/-- The contents of the records that a handler of this level receives. -/
def received (level : Nat) (records : List (LogRecord α)) : List (String × String × Option α) :=
  (records.filter fun record => Handler.Receives level record).map LogRecord.content

/-- No record has the content of one of the four before it, counting those that a handler
of this level receives. -/
def NoRepetition (level : Nat) (records : List (LogRecord α)) : Prop :=
  AtEach (fun before record => Handler.Receives level record →
    record.content ∉ lastFew numRecordsToKeep (received level before)) records

/-- What an entry compares with. -/
def LastRecord.content (rec : LastRecord α) : String × String × Option α :=
  (rec.level, rec.msg, rec.args)

theorem isSame_iff {rec : LastRecord α} :
    rec.isSame record = true ↔ rec.content = record.content := by
  unfold LastRecord.isSame LastRecord.content LogRecord.content
  simp only [Bool.and_eq_true, beq_iff_eq, Prod.mk.injEq, and_assoc]
  exact and_congr eq_comm (and_congr eq_comm eq_comm)

/-- Nothing was repeated: the entries are the last records received, none of them marked. -/
def Plain (handler : Handler α) (before : List (LogRecord α)) : Prop :=
  (handler.alone before).lastRecords.map LastRecord.content =
      lastFew numRecordsToKeep (received handler.level before) ∧
    ∀ rec ∈ (handler.alone before).lastRecords, rec.duplicate = false

theorem level_handle : (handler.handle record).handler.level = handler.level := by
  unfold Handler.handle
  split <;> rfl

theorem alone_concat :
    handler.alone (records ++ [record]) = ((handler.alone records).handle record).handler := by
  unfold Handler.alone
  rw [List.foldl_append]
  rfl

theorem level_alone : (handler.alone records).level = handler.level := by
  induction records using List.reverseRecOn with
  | nil => rfl
  | append_singleton records record ih => rw [alone_concat, level_handle, ih]

omit [DecidableEq α] in
theorem received_concat {level : Nat} :
    received level (records ++ [record]) = received level records ++
      if Handler.Receives level record then [record.content] else [] := by
  unfold received
  by_cases h : Handler.Receives level record
  · simp [h]
  · simp [h]

theorem letsThrough_of_rewrites (h : handler.Rewrites record) : handler.LetsThrough record := by
  obtain ⟨hreceives, rec, hfind, hduplicate⟩ := h
  refine ⟨hreceives, fun other hother => ?_⟩
  obtain rfl := Option.some.inj (hfind.symm.trans hother)
  exact hduplicate

/-- As long as nothing was repeated, a record is rewritten if it repeats one of the last. -/
theorem rewrites_iff_of_plain (h : Plain handler records) :
    (handler.alone records).Rewrites record ↔ Handler.Receives handler.level record ∧
      record.content ∈ lastFew numRecordsToKeep (received handler.level records) := by
  obtain ⟨hcontents, hplain⟩ := h
  unfold Handler.Rewrites
  rw [level_alone, ← hcontents]
  refine and_congr_right fun _ => ?_
  constructor
  · rintro ⟨rec, hfind, _⟩
    have hsame := List.find?_some hfind
    exact List.mem_map.mpr ⟨rec, List.mem_of_find?_eq_some hfind, isSame_iff.mp hsame⟩
  · intro hmem
    obtain ⟨rec, hrec, hcontent⟩ := List.mem_map.mp hmem
    have hsome : ((handler.alone records).lastRecords.find? fun rec => rec.isSame record).isSome :=
      List.find?_isSome.mpr ⟨rec, hrec, isSame_iff.mpr hcontent⟩
    obtain ⟨found, hfound⟩ := Option.isSome_iff_exists.mp hsome
    exact ⟨found, hfound, hplain found (List.mem_of_find?_eq_some hfound)⟩

/-- A new record takes its place at the end. -/
theorem lastRecords_of_new (hreceives : Handler.Receives handler.level record)
    (hnew : handler.lastRecords.find? (fun rec => rec.isSame record) = none) :
    (handler.handle record).handler.lastRecords =
      (if handler.lastRecords.length = numRecordsToKeep then handler.lastRecords.drop 1
        else handler.lastRecords) ++ [record.entry] := by
  unfold Handler.handle filter
  simp only [hreceives.1, if_true, hreceives.2, if_false, hnew]

theorem plain_concat (h : Plain handler records)
    (hrewrites : ¬ (handler.alone records).Rewrites record) :
    Plain handler (records ++ [record]) := by
  have hnotin := mt (rewrites_iff_of_plain h).mpr hrewrites
  obtain ⟨hcontents, hplain⟩ := h
  unfold Plain
  rw [alone_concat, received_concat]
  by_cases hreceives : Handler.Receives handler.level record
  · have hnew : (handler.alone records).lastRecords.find? (fun rec => rec.isSame record) =
        none := by
      refine List.find?_eq_none.mpr fun rec hrec hsame => hnotin ⟨hreceives, ?_⟩
      rw [← hcontents]
      exact List.mem_map.mpr ⟨rec, hrec, isSame_iff.mp hsame⟩
    have hlevel : Handler.Receives (handler.alone records).level record := by
      rw [level_alone]
      exact hreceives
    have hlast := lastRecords_of_new hlevel hnew
    have hlength : (lastFew numRecordsToKeep (received handler.level records)).length =
        (handler.alone records).lastRecords.length := by rw [← hcontents, List.length_map]
    rw [hlast, if_pos hreceives, lastFew_concat (by decide), hlength]
    constructor
    · rw [List.map_append, ← hcontents]
      split
      case isTrue => rw [List.map_drop]; rfl
      case isFalse => rfl
    · intro rec hrec
      rcases List.mem_append.mp hrec with hold | hentry
      · split at hold
        case isTrue => exact hplain rec (List.mem_of_mem_drop hold)
        case isFalse => exact hplain rec hold
      · obtain rfl := List.mem_singleton.mp hentry
        rfl
  · have hrefused : ¬ (handler.alone records).LetsThrough record := by
      rintro ⟨hpasses, _⟩
      rw [level_alone] at hpasses
      exact hreceives hpasses
    rw [(handle_of_not_letsThrough hrefused).1, if_neg hreceives, List.append_nil]
    exact ⟨hcontents, hplain⟩

/-- Two handlers of one level disturb each other as soon as anything is repeated. -/
theorem unwritten_iff_noRepetition (hnew : handler.lastRecords = []) :
    (Unwritten handler handler records ↔ NoRepetition handler.level records) ∧
      (NoRepetition handler.level records → Plain handler records) := by
  induction records using List.reverseRecOn with
  | nil =>
    refine ⟨iff_of_true atEach_nil atEach_nil, fun _ => ?_⟩
    exact ⟨by simp [Handler.alone, hnew, received, lastFew], by simp [Handler.alone, hnew]⟩
  | append_singleton records record ih =>
    obtain ⟨hiff, hplain⟩ := ih
    have hstep : NoRepetition handler.level records →
        (((handler.alone records).Rewrites record →
          ¬ (handler.alone records).LetsThrough record) ↔
        (Handler.Receives handler.level record →
          record.content ∉ lastFew numRecordsToKeep (received handler.level records))) := by
      intro hnone
      have hrewrites := @rewrites_iff_of_plain α _ handler record records (hplain hnone)
      have hquiet : (Handler.Receives handler.level record →
          record.content ∉ lastFew numRecordsToKeep (received handler.level records)) ↔
            ¬ (handler.alone records).Rewrites record := by rw [hrewrites, not_and]
      rw [hquiet]
      exact ⟨fun h hr => h hr (letsThrough_of_rewrites hr), fun h hr => absurd hr h⟩
    unfold Unwritten NoRepetition at hiff ⊢
    rw [atEach_concat, atEach_concat, hiff]
    refine ⟨and_congr_right hstep, fun h => plain_concat (hplain h.1) ?_⟩
    have hquiet := (hstep h.1).mpr h.2
    exact fun hr => hquiet hr (letsThrough_of_rewrites hr)

end

/-- A `DuplicateFileHandler` or a `DuplicateConsoleHandler` of this level. -/
def newHandler (α : Type) (level : Nat) : Handler α where
  level := level

/-- Two handlers on one logger emit what each would emit alone exactly if the one that
comes first never writes into a record that the other one would let through; where
they have one level, exactly if no record repeats one of the four before it. -/
theorem independent_handlers_iff {α : Type} [DecidableEq α] (firstLevel secondLevel : Nat)
    (records : List (LogRecord α)) :
    (Independent (newHandler α firstLevel) (newHandler α secondLevel) records ↔
        Unwritten (newHandler α firstLevel) (newHandler α secondLevel) records) ∧
      (firstLevel = secondLevel →
        (Unwritten (newHandler α firstLevel) (newHandler α secondLevel) records ↔
          NoRepetition secondLevel records)) := by
  refine ⟨independent_iff_unwritten, ?_⟩
  rintro rfl
  exact (unwritten_iff_noRepetition rfl).1

/-- A record that is sent twice: the second handler does not tell that it leaves it out. -/
theorem second_handler_disturbed :
    ¬ ∀ (firstLevel secondLevel : Nat) (records : List (LogRecord Nat)),
      Independent (newHandler Nat firstLevel) (newHandler Nat secondLevel) records := by
  intro hall
  have h := hall 0 0 (List.replicate 2 ⟨20, "INFO", "waiting", none⟩)
  revert h
  unfold Independent
  decide

end OvirtArt.TestHandler
