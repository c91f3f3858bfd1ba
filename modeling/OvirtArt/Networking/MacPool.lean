import Mathlib.Data.List.AList
import OvirtArt.CoreApi.PyValue
import OvirtArt.Foundation.Effects
import OvirtArt.Foundation.Removals

set_option autoImplicit false

/-!
# `high_level/mac_pool.py` and `low_level/mac_pool.py`

The ranges of a MAC pool are changed by sending the engine the whole list of them, computed from
the list that was read before.

The functions of the high level module are modelled as they stand, down to the request:
`RestUtil.update` sends the new list, and compares it with the list in the reply.  The engine is a
parameter.  Of a pool only its name, its ranges and whether it is the default one are here; what
the functions log, the other attributes of a pool, and its creation and removal are left out.

The lists are compared as multisets.  Each operation gets an exact condition: the list is edited
apart from the pool that was read, so a range given twice is not found the second time, and an
empty list is never sent.
-/

namespace OvirtArt.Networking

open OvirtArt.CoreApi OvirtArt.Foundation

/-- A `Range`: the first and the last address. -/
structure MacRange where
  from_ : Text
  to_ : Text
  deriving DecidableEq, Repr

/-- A `MacPool` as the engine reports it. -/
structure MacPool where
  name : Text
  defaultPool : Bool
  ranges : List MacRange

/-- The pools of the setup. -/
abbrev MacPools := List MacPool

/-- What the functions can raise. -/
inductive MacPoolException where
  | entityNotFound
  | valueError
  | attributeError
  | indexError
  deriving DecidableEq, Repr

/-- What `ranges` of a `MacPool` is set to: a `Ranges` object, or a list. -/
inductive RangesField where
  | object (ranges : List MacRange)
  | plain (list : List MacRange)
  deriving DecidableEq, Repr

/-- The engine, with the setting of the run that is about its replies. -/
structure MacPoolEngine where
  /-- The ranges that a pool has after an update with these, as the reply lists them, if the
  update is accepted. -/
  update : List MacRange → Option (List MacRange)
  /-- `opts['RUN']['validate']`. -/
  validate : Bool

/-- The procedures of the two modules. -/
abbrev MacPoolAction := EStateM MacPoolException MacPools

/-- A value that is there, or the exception. -/
def orRaise {α : Type} (e : MacPoolException) : Option α → Except MacPoolException α
  | some a => .ok a
  | none => .error e

/-! ## The API -/

/-- `MACPOOL_API.find(pool_name)`. -/
def findMacPool (pools : MacPools) (poolName : Text) : Option MacPool :=
  pools.find? fun pool => pool.name == poolName

/-- `get_mac_pool`. -/
def getMacPool (poolName : Text) : MacPoolAction MacPool := do
  fromExcept (orRaise .entityNotFound (findMacPool (← get) poolName))

/-- The pools after the one with this name has got these ranges. -/
def setRanges (pools : MacPools) (poolName : Text) (ranges : List MacRange) : MacPools :=
  pools.map fun pool => if pool.name = poolName then { pool with ranges } else pool

/-- `validator.dump_entity`: a list has no `export`. -/
def dumpEntity : RangesField → Except MacPoolException (List MacRange)
  | .object ranges => .ok ranges
  | .plain _ => .error .attributeError

/-- `validator.compareElements`, of the ranges that were sent with those of the reply: a `Range`
has no name, no id and no index to sort by, so each one is compared with the one in its place, and
what one of the lists has more is not looked at. -/
def compareRanges (expected actual : List MacRange) : Bool :=
  (expected.zip actual).all fun pair => pair.1 == pair.2

/-- What `RestUtil.update` makes of the answer of the engine to these ranges. -/
def answerUpdate (engine : MacPoolEngine) (poolName : Text) (ranges : List MacRange) :
    MacPoolAction Bool :=
  match engine.update ranges with
  | some stored => do
      modify fun pools => setRanges pools poolName stored
      return !engine.validate || compareRanges ranges stored
  | none => return false

/-- `MACPOOL_API.update(mac_pool_obj, new_mac_pool_obj, True)[1]`. -/
def macpoolApiUpdate (engine : MacPoolEngine) (macPoolObj : MacPool) (newRanges : RangesField) :
    MacPoolAction Bool := do
  let body ← fromExcept (dumpEntity newRanges)
  answerUpdate engine macPoolObj.name body

/-! ## `low_level/mac_pool.py` -/

/-- `get_mac_pool_range_obj`. -/
def getMacPoolRangeObj (macPoolObj : MacPool) (range : MacRange) : Option MacRange :=
  macPoolObj.ranges.find? (· == range)

/-- `prepare_macpool_obj(ranges=ranges)`. -/
def prepareMacpoolObj (ranges : List MacRange) : RangesField :=
  if ranges.isEmpty then .plain ranges else .object ranges

/-- `get_default_mac_pool`. -/
def getDefaultMacPool : MacPoolAction MacPool := do
  fromExcept (orRaise .indexError ((← get).find? fun pool => pool.defaultPool))

/-- `update_mac_pool(mac_pool_name, ranges=ranges)`. -/
def updateMacPool (engine : MacPoolEngine) (macPoolName : Text) (ranges : List MacRange) :
    MacPoolAction Bool := do
  let macPoolObj ← getMacPool macPoolName
  macpoolApiUpdate engine macPoolObj (prepareMacpoolObj ranges)

/-! ## `high_level/mac_pool.py` -/

/-- `new_range_list.remove(range)`. -/
def listRemove (newRangeList : List MacRange) (range : MacRange) :
    Except MacPoolException (List MacRange) :=
  orRaise .valueError (removeFirst? newRangeList range)

/-- The loop of `remove_ranges_from_mac_pool`. -/
def removeRanges (macPoolObj : MacPool) (newRangeList rangeList : List MacRange) :
    Except MacPoolException (List MacRange) :=
  rangeList.foldlM (fun newRangeList range =>
    if (getMacPoolRangeObj macPoolObj range).isSome then listRemove newRangeList range
    else .ok newRangeList) newRangeList

/-- `remove_ranges_from_mac_pool`. -/
def removeRangesFromMacPool (engine : MacPoolEngine) (macPoolName : Text)
    (rangeList : List MacRange) : MacPoolAction Bool := do
  let macPoolObj ← getMacPool macPoolName
  let newRangeList ← fromExcept (removeRanges macPoolObj macPoolObj.ranges rangeList)
  macpoolApiUpdate engine macPoolObj (prepareMacpoolObj newRangeList)

/-- `add_ranges_to_mac_pool`. -/
def addRangesToMacPool (engine : MacPoolEngine) (macPoolName : Text)
    (rangeList : List MacRange) : MacPoolAction Bool := do
  let macPoolObj ← getMacPool macPoolName
  updateMacPool engine macPoolName (macPoolObj.ranges ++ rangeList)

/-- A dictionary from ranges to the ranges that replace them, in the order in which it is gone
through. -/
abbrev RangeDict := AList fun _ : MacRange => MacRange

/-- The loop of `update_ranges_on_mac_pool`: the new list, or nothing if a range is missing. -/
def replaceRanges (macPoolObj : MacPool) : List MacRange →
    List (Sigma fun _ : MacRange => MacRange) → Except MacPoolException (Option (List MacRange))
  | newRangeList, [] => .ok (some newRangeList)
  | newRangeList, entry :: rest =>
    if (getMacPoolRangeObj macPoolObj entry.1).isSome then do
      replaceRanges macPoolObj ((← listRemove newRangeList entry.1) ++ [entry.2]) rest
    else .ok none

/-- What `update_ranges_on_mac_pool` does after its loop. -/
def sendReplaced (engine : MacPoolEngine) (macPoolObj : MacPool) :
    Option (List MacRange) → MacPoolAction Bool
  | some newRangeList => macpoolApiUpdate engine macPoolObj (prepareMacpoolObj newRangeList)
  | none => return false

/-- `update_ranges_on_mac_pool`. -/
def updateRangesOnMacPool (engine : MacPoolEngine) (macPoolName : Text) (rangeDict : RangeDict) :
    MacPoolAction Bool := do
  let macPoolObj ← getMacPool macPoolName
  let newRangeList ←
    fromExcept (replaceRanges macPoolObj macPoolObj.ranges rangeDict.entries)
  sendReplaced engine macPoolObj newRangeList

/-- `DEFAULT_MAC_POOL`. -/
def defaultMacPool : Text := "Default".toList

/-- What `update_default_mac_pool` does with a range. -/
def replaceDefaultRanges (engine : MacPoolEngine) (macRangeObj : MacRange) :
    MacPoolAction Bool := do
  let defaultMacPoolObj ← getDefaultMacPool
  let added ← addRangesToMacPool engine defaultMacPool [macRangeObj]
  if !added then return false
  let removed ← removeRangesFromMacPool engine defaultMacPool defaultMacPoolObj.ranges
  if !removed then return false
  return true

/-- `update_default_mac_pool`, with `MACRange.from_string` and `GE["mac_ranges"]`. -/
def updateDefaultMacPool (engine : MacPoolEngine) (fromString : Text → MacRange)
    (macRanges : Text) (macRange : Option Text) : MacPoolAction Bool :=
  if (macRange.getD macRanges).isEmpty then return false
  else replaceDefaultRanges engine (fromString (macRange.getD macRanges))

/-! ## The lists that are computed -/

theorem isSome_getMacPoolRangeObj_iff {macPoolObj : MacPool} {range : MacRange} :
    (getMacPoolRangeObj macPoolObj range).isSome = true ↔ range ∈ macPoolObj.ranges := by
  rw [getMacPoolRangeObj, List.find?_isSome]
  constructor
  · rintro ⟨found, hmem, heq⟩
    rwa [← eq_of_beq heq]
  · intro hmem
    exact ⟨range, hmem, beq_self_eq_true range⟩

theorem removeRanges_eq (macPoolObj : MacPool) (newRangeList rangeList : List MacRange) :
    removeRanges macPoolObj newRangeList rangeList
      = orRaise .valueError (removeKnown macPoolObj.ranges newRangeList rangeList) := by
  induction rangeList generalizing newRangeList with
  | nil => rfl
  | cons range rest ih =>
    rw [removeRanges, List.foldlM_cons]
    by_cases hmem : range ∈ macPoolObj.ranges
    · rw [removeKnown_cons_of_mem hmem, if_pos (isSome_getMacPoolRangeObj_iff.mpr hmem),
        listRemove]
      cases removeFirst? newRangeList range with
      | none => rfl
      | some next => exact ih next
    · rw [removeKnown_cons_of_not_mem hmem,
        if_neg fun hsome => hmem (isSome_getMacPoolRangeObj_iff.mp hsome)]
      exact ih newRangeList

section

variable {macPoolObj : MacPool} {newRangeList : List MacRange}
  {entries : List (Sigma fun _ : MacRange => MacRange)}

/-- A key that the pool does not have ends the loop with `False`, whatever comes before it. -/
theorem replaceRanges_of_missing (hnodup : entries.NodupKeys)
    (hlist : ∀ range ∈ entries.keys, range ∈ macPoolObj.ranges → range ∈ newRangeList)
    (hmissing : ∃ range ∈ entries.keys, range ∉ macPoolObj.ranges) :
    replaceRanges macPoolObj newRangeList entries = .ok none := by
  induction entries generalizing newRangeList with
  | nil =>
    obtain ⟨range, hrange, -⟩ := hmissing
    exact absurd hrange List.not_mem_nil
  | cons entry rest ih =>
    obtain ⟨hfresh, hrest⟩ := List.nodupKeys_cons.mp hnodup
    rw [replaceRanges]
    by_cases hmem : entry.1 ∈ macPoolObj.ranges
    · rw [if_pos (isSome_getMacPoolRangeObj_iff.mpr hmem), listRemove,
        removeFirst?_of_mem (hlist entry.1 List.mem_cons_self hmem)]
      refine ih hrest ?_ ?_
      · intro range hrange hknown
        have hne : range ≠ entry.1 := fun heq => hfresh (heq ▸ hrange)
        exact List.mem_append_left _ ((List.mem_erase_of_ne hne).mpr
          (hlist range (List.mem_cons_of_mem _ hrange) hknown))
      · obtain ⟨range, hrange, hunknown⟩ := hmissing
        rcases List.mem_cons.mp hrange with rfl | hrange
        · exact absurd hmem hunknown
        · exact ⟨range, hrange, hunknown⟩
    · rw [if_neg fun hsome => hmem (isSome_getMacPoolRangeObj_iff.mp hsome)]

/-- Otherwise every key is removed once, and its value added. -/
theorem replaceRanges_of_known (hnodup : entries.NodupKeys)
    (hlist : ∀ range ∈ entries.keys, range ∈ newRangeList)
    (hknown : ∀ range ∈ entries.keys, range ∈ macPoolObj.ranges) :
    ∃ result, replaceRanges macPoolObj newRangeList entries = .ok (some result) ∧
      ∀ range, result.count range + entries.keys.count range
        = newRangeList.count range + (entries.map Sigma.snd).count range := by
  induction entries generalizing newRangeList with
  | nil => exact ⟨newRangeList, rfl, fun _ => rfl⟩
  | cons entry rest ih =>
    obtain ⟨hfresh, hrest⟩ := List.nodupKeys_cons.mp hnodup
    have hmem : entry.1 ∈ newRangeList := hlist entry.1 List.mem_cons_self
    rw [replaceRanges,
      if_pos (isSome_getMacPoolRangeObj_iff.mpr (hknown entry.1 List.mem_cons_self)),
      listRemove, removeFirst?_of_mem hmem]
    have hnext : ∀ range ∈ rest.keys, range ∈ newRangeList.erase entry.1 ++ [entry.2] := by
      intro range hrange
      have hne : range ≠ entry.1 := fun heq => hfresh (heq ▸ hrange)
      exact List.mem_append_left _ ((List.mem_erase_of_ne hne).mpr
        (hlist range (List.mem_cons_of_mem _ hrange)))
    obtain ⟨result, hresult, hcount⟩ := ih hrest hnext
      fun range hrange => hknown range (List.mem_cons_of_mem _ hrange)
    refine ⟨result, hresult, fun range => ?_⟩
    have herase := count_erase_add hmem range
    have hrange := hcount range
    rw [List.count_append] at hrange
    rw [List.keys_cons, List.map_cons, ← List.singleton_append (l := rest.keys),
      ← List.singleton_append (l := rest.map Sigma.snd), List.count_append, List.count_append]
    omega

end

/-! ## What is sent -/

/-- The engine accepts every update: it stores the ranges, in some order, and where the replies are
looked at, they agree with what was sent. -/
structure MacPoolEngine.Accepts (engine : MacPoolEngine) : Prop where
  stores : ∀ ranges, ∃ stored, engine.update ranges = some stored ∧ stored.Perm ranges ∧
    (engine.validate = true → compareRanges ranges stored = true)

/-- Of a reply with the ranges that were sent the comparison asks for their order. -/
theorem compareRanges_iff {sent stored : List MacRange} (h : stored.length = sent.length) :
    compareRanges sent stored = true ↔ stored = sent := by
  induction sent generalizing stored with
  | nil => exact iff_of_true rfl (List.length_eq_zero_iff.mp h)
  | cons range rest ih =>
    cases stored with
    | nil => exact nomatch h
    | cons found others =>
      have hrest := ih (Nat.succ.inj h)
      rw [compareRanges, List.zip_cons_cons, List.all_cons, Bool.and_eq_true, beq_iff_eq,
        List.cons.injEq, eq_comm]
      exact and_congr_right fun _ => hrest

/-- The pool with this name has these ranges, in some order. -/
def HasRanges (pools : MacPools) (poolName : Text) (ranges : List MacRange) : Prop :=
  ∃ pool, findMacPool pools poolName = some pool ∧ pool.ranges.Perm ranges

/-- The procedure does not raise, returns `True`, and leaves the pool with these ranges. -/
def LeavesRanges (action : MacPoolAction Bool) (pools : MacPools) (poolName : Text)
    (ranges : List MacRange) : Prop :=
  ∃ after, action.run pools = .ok true after ∧ HasRanges after poolName ranges

section

variable {engine : MacPoolEngine} {pools : MacPools} {poolName : Text} {pool : MacPool}
  {ranges target : List MacRange}

theorem name_of_findMacPool (h : findMacPool pools poolName = some pool) :
    pool.name = poolName := by
  have hname := List.find?_some h
  exact eq_of_beq hname

theorem findMacPool_setRanges (h : findMacPool pools poolName = some pool)
    (ranges : List MacRange) :
    findMacPool (setRanges pools poolName ranges) poolName = some { pool with ranges } := by
  have hname := name_of_findMacPool h
  have hsame : ∀ other : MacPool,
      ((if other.name = poolName then { other with ranges } else other : MacPool).name == poolName)
        = (other.name == poolName) := by
    intro other
    split
    case isTrue => rfl
    case isFalse => rfl
  rw [findMacPool, setRanges, List.find?_map]
  have hfind : pools.find? ((fun other : MacPool => other.name == poolName) ∘
      fun other => if other.name = poolName then { other with ranges } else other)
      = some pool := by
    rw [← h]
    congr 1
    funext other
    exact hsame other
  rw [hfind, Option.map_some, if_pos hname]

theorem run_getMacPool (h : findMacPool pools poolName = some pool) :
    (getMacPool poolName).run pools = .ok pool pools := by
  change (fromExcept (orRaise .entityNotFound (findMacPool pools poolName))).run pools = _
  rw [h]
  rfl

theorem run_getMacPool_bind (h : findMacPool pools poolName = some pool)
    (next : MacPool → MacPoolAction Bool) :
    (getMacPool poolName >>= next).run pools = (next pool).run pools := by
  rw [EStateM.run_bind, run_getMacPool h]

theorem run_update (hengine : engine.Accepts) (h : findMacPool pools poolName = some pool)
    (hne : ranges ≠ []) :
    ∃ after, (macpoolApiUpdate engine pool (prepareMacpoolObj ranges)).run pools
        = .ok true after ∧ HasRanges after poolName ranges := by
  obtain ⟨stored, hstored, hperm, hreply⟩ := hengine.stores ranges
  have hprepare : prepareMacpoolObj ranges = .object ranges := by
    rw [prepareMacpoolObj, if_neg fun hempty => hne (List.isEmpty_iff.mp hempty)]
  have hname := name_of_findMacPool h
  refine ⟨setRanges pools poolName stored, ?_, _, findMacPool_setRanges h stored, hperm⟩
  rw [hprepare]
  have hanswer : (!engine.validate || compareRanges ranges stored) = true := by
    cases hvalidate : engine.validate with
    | false => rfl
    | true => exact hreply hvalidate
  change (answerUpdate engine pool.name ranges).run pools = _
  rw [answerUpdate, hstored, hname, ← hanswer]
  rfl

/-- Ranges can be sent exactly if there are some. -/
theorem leavesRanges_update_iff (hengine : engine.Accepts)
    (h : findMacPool pools poolName = some pool) (hperm : ranges.Perm target) :
    LeavesRanges (macpoolApiUpdate engine pool (prepareMacpoolObj ranges)) pools poolName target ↔
      target ≠ [] := by
  constructor
  · rintro ⟨after, hrun, -⟩ rfl
    obtain rfl := List.perm_nil.mp hperm
    cases hrun
  · intro hne
    have hranges : ranges ≠ [] := by
      rintro rfl
      exact hne (List.nil_perm.mp hperm)
    obtain ⟨after, hrun, found, hfound, hstored⟩ := run_update hengine h hranges
    exact ⟨after, hrun, found, hfound, hstored.trans hperm⟩

/-! ## Removing ranges -/

theorem run_removeRangesFromMacPool (engine : MacPoolEngine)
    (h : findMacPool pools poolName = some pool) (rangeList : List MacRange) :
    (removeRangesFromMacPool engine poolName rangeList).run pools
      = (fromExcept (orRaise .valueError (removeKnown pool.ranges pool.ranges rangeList)) >>=
          fun rest => macpoolApiUpdate engine pool (prepareMacpoolObj rest)).run pools := by
  rw [← removeRanges_eq]
  exact run_getMacPool_bind h _

variable {rangeList : List MacRange}

/-- No range of the pool is given more often than the pool has it: what is left, counted with
repetitions, is sent. -/
theorem leavesRanges_remove_iff (hengine : engine.Accepts)
    (h : findMacPool pools poolName = some pool)
    (hfound : ∀ range ∈ pool.ranges, rangeList.count range ≤ pool.ranges.count range)
    (hleft : ∀ range ∈ pool.ranges,
      target.count range + rangeList.count range = pool.ranges.count range)
    (hother : ∀ range ∈ target, range ∈ pool.ranges) :
    LeavesRanges (removeRangesFromMacPool engine poolName rangeList) pools poolName target ↔
      target ≠ [] := by
  obtain ⟨rest, hrest⟩ := removeKnown_isSome_iff.mpr hfound
  have hperm : rest.Perm target := by
    rw [List.perm_iff_count]
    intro range
    by_cases hrange : range ∈ pool.ranges
    · have hcount := count_removeKnown hrest hrange
      have := hleft range hrange
      omega
    · rw [count_removeKnown_of_not_mem hrest hrange, List.count_eq_zero.mpr hrange,
        List.count_eq_zero.mpr fun hmem => hrange (hother range hmem)]
  rw [← leavesRanges_update_iff hengine h hperm]
  unfold LeavesRanges
  rw [run_removeRangesFromMacPool engine h, hrest]
  rfl

/-- A range of the pool that is given more often than the pool has it raises. -/
theorem not_leavesRanges_remove (h : findMacPool pools poolName = some pool)
    (hmissing : ¬ ∀ range ∈ pool.ranges, rangeList.count range ≤ pool.ranges.count range) :
    ¬ LeavesRanges (removeRangesFromMacPool engine poolName rangeList) pools poolName target := by
  rintro ⟨after, hrun, -⟩
  rw [run_removeRangesFromMacPool engine h] at hrun
  cases hrest : removeKnown pool.ranges pool.ranges rangeList with
  | some rest => exact hmissing (removeKnown_isSome_iff.mp ⟨rest, hrest⟩)
  | none =>
    rw [hrest] at hrun
    cases hrun

/-- `remove_ranges_from_mac_pool` leaves the ranges that are not given exactly if no range of
the pool is given twice and something is left. -/
theorem leavesRanges_remove_not_given_iff (hengine : engine.Accepts)
    (h : findMacPool pools poolName = some pool) (hnodup : pool.ranges.Nodup)
    (rangeList : List MacRange) :
    LeavesRanges (removeRangesFromMacPool engine poolName rangeList) pools poolName
        (pool.ranges.filter fun range => !rangeList.contains range) ↔
      (∀ range ∈ pool.ranges, rangeList.count range ≤ 1) ∧
        ∃ range ∈ pool.ranges, range ∉ rangeList := by
  have hone : ∀ range ∈ pool.ranges, pool.ranges.count range = 1 :=
    fun range hrange => List.count_eq_one_of_mem hnodup hrange
  have hmem : ∀ range, range ∈ pool.ranges.filter (fun range => !rangeList.contains range) ↔
      range ∈ pool.ranges ∧ range ∉ rangeList := by
    intro range
    rw [List.mem_filter, Bool.not_eq_true', ← Bool.not_eq_true, List.contains_iff_mem]
  by_cases hrepeat : ∀ range ∈ pool.ranges, rangeList.count range ≤ 1
  · rw [and_iff_right hrepeat, leavesRanges_remove_iff hengine h]
    · rw [← List.length_pos_iff, List.length_pos_iff_exists_mem]
      exact exists_congr hmem
    · intro range hrange
      rw [hone range hrange]
      exact hrepeat range hrange
    · intro range hrange
      have hle := hrepeat range hrange
      rw [hone range hrange]
      by_cases hgiven : range ∈ rangeList
      · have hpos := List.count_pos_iff.mpr hgiven
        rw [List.count_eq_zero.mpr fun hleft => ((hmem range).mp hleft).2 hgiven]
        omega
      · have hleft := (hmem range).mpr ⟨hrange, hgiven⟩
        rw [List.count_eq_one_of_mem (hnodup.filter _) hleft, List.count_eq_zero.mpr hgiven]
    · intro range hrange
      exact ((hmem range).mp hrange).1
  · refine iff_of_false (not_leavesRanges_remove h ?_) fun hboth => hrepeat hboth.1
    intro hall
    exact hrepeat fun range hrange => (hone range hrange) ▸ hall range hrange

/-! ## Adding ranges -/

theorem run_addRangesToMacPool (engine : MacPoolEngine)
    (h : findMacPool pools poolName = some pool) (rangeList : List MacRange) :
    (addRangesToMacPool engine poolName rangeList).run pools
      = (macpoolApiUpdate engine pool (prepareMacpoolObj (pool.ranges ++ rangeList))).run pools
    := by
  rw [addRangesToMacPool, run_getMacPool_bind h]
  exact run_getMacPool_bind h _

theorem leavesRanges_add_iff (hengine : engine.Accepts)
    (h : findMacPool pools poolName = some pool) (rangeList : List MacRange) :
    LeavesRanges (addRangesToMacPool engine poolName rangeList) pools poolName
        (pool.ranges ++ rangeList) ↔ pool.ranges ≠ [] ∨ rangeList ≠ [] := by
  rw [LeavesRanges, run_addRangesToMacPool engine h]
  refine (leavesRanges_update_iff hengine h (List.Perm.refl _)).trans ?_
  rw [ne_eq, List.append_eq_nil_iff, not_and_or]

/-- `add_ranges_to_mac_pool` and then `remove_ranges_from_mac_pool` of the same ranges. -/
def addAndRemove (engine : MacPoolEngine) (macPoolName : Text) (rangeList : List MacRange) :
    MacPoolAction Bool := do
  let added ← addRangesToMacPool engine macPoolName rangeList
  let removed ← removeRangesFromMacPool engine macPoolName rangeList
  return added && removed

theorem leavesRanges_bind {first : MacPoolAction Bool} {next : Bool → MacPoolAction Bool}
    {after : MacPools} (hfirst : first.run pools = .ok true after) :
    LeavesRanges (first >>= next) pools poolName target ↔
      LeavesRanges (next true) after poolName target := by
  unfold LeavesRanges
  rw [EStateM.run_bind, hfirst]

theorem leavesRanges_and {action : MacPoolAction Bool} :
    LeavesRanges (action >>= fun answer => return true && answer) pools poolName target ↔
      LeavesRanges action pools poolName target := by
  have hsame : (action >>= fun answer => return true && answer) = action := by
    exact bind_pure action
  rw [hsame]

/-- The ranges that are in the pool after other ones have been added, without these. -/
theorem leavesRanges_remove_added_iff (hengine : engine.Accepts)
    (h : findMacPool pools poolName = some pool) (hadded : pool.ranges.Perm (target ++ rangeList)) :
    LeavesRanges (removeRangesFromMacPool engine poolName rangeList) pools poolName target ↔
      target ≠ [] := by
  have hcount : ∀ range, target.count range + rangeList.count range = pool.ranges.count range := by
    intro range
    rw [hadded.count_eq, List.count_append]
  refine leavesRanges_remove_iff hengine h ?_ (fun range _ => hcount range) ?_
  · intro range _
    have := hcount range
    omega
  · intro range hrange
    exact hadded.mem_iff.mpr (List.mem_append_left _ hrange)

/-- Ranges that are added and removed again leave the pool as it was, if it had some. -/
theorem leavesRanges_addAndRemove_iff (hengine : engine.Accepts)
    (h : findMacPool pools poolName = some pool) (rangeList : List MacRange) :
    LeavesRanges (addAndRemove engine poolName rangeList) pools poolName pool.ranges ↔
      pool.ranges ≠ [] := by
  by_cases hsome : pool.ranges ≠ [] ∨ rangeList ≠ []
  · obtain ⟨after, hrun, found, hfound, hranges⟩ :=
      (leavesRanges_add_iff hengine h rangeList).mpr hsome
    rw [addAndRemove, leavesRanges_bind hrun, leavesRanges_and]
    exact leavesRanges_remove_added_iff hengine hfound hranges
  · rw [not_or, not_not, not_not] at hsome
    refine iff_of_false ?_ (not_not_intro hsome.1)
    rintro ⟨after, hrun, -⟩
    rw [addAndRemove, EStateM.run_bind, run_addRangesToMacPool engine h, hsome.1, hsome.2]
      at hrun
    cases hrun

/-! ## Replacing ranges -/

/-- `update_ranges_on_mac_pool` replaces the keys by their values, or returns `False` and changes
nothing if the pool does not have all of them. -/
def UpdatesRanges (engine : MacPoolEngine) (pools : MacPools) (poolName : Text)
    (ranges : List MacRange) (rangeDict : RangeDict) : Prop :=
  ((∀ range ∈ rangeDict.keys, range ∈ ranges) →
    LeavesRanges (updateRangesOnMacPool engine poolName rangeDict) pools poolName
      (ranges.filter (fun range => !rangeDict.keys.contains range)
        ++ rangeDict.entries.map Sigma.snd)) ∧
  ((∃ range ∈ rangeDict.keys, range ∉ ranges) →
    (updateRangesOnMacPool engine poolName rangeDict).run pools = .ok false pools)

theorem run_updateRangesOnMacPool {result : Option (List MacRange)}
    (engine : MacPoolEngine) (h : findMacPool pools poolName = some pool) {rangeDict : RangeDict}
    (hresult : replaceRanges pool pool.ranges rangeDict.entries = .ok result) :
    (updateRangesOnMacPool engine poolName rangeDict).run pools
      = (sendReplaced engine pool result).run pools := by
  rw [updateRangesOnMacPool, run_getMacPool_bind h, hresult]
  rfl

theorem count_filter_not_contains {keys : List MacRange} (hranges : ranges.Nodup)
    (hkeys : keys.Nodup) (hknown : ∀ range ∈ keys, range ∈ ranges) (range : MacRange) :
    (ranges.filter fun range => !keys.contains range).count range + keys.count range
      = ranges.count range := by
  by_cases hkey : range ∈ keys
  · have hout : range ∉ ranges.filter fun range => !keys.contains range := by
      intro hmem
      have hnot := (List.mem_filter.mp hmem).2
      rw [List.contains_iff_mem.mpr hkey] at hnot
      cases hnot
    rw [List.count_eq_zero.mpr hout, List.count_eq_one_of_mem hkeys hkey,
      List.count_eq_one_of_mem hranges (hknown range hkey)]
  · have hkeep : (!keys.contains range) = true := by
      rw [Bool.not_eq_true', ← Bool.not_eq_true, List.contains_iff_mem]
      exact hkey
    rw [List.count_eq_zero.mpr hkey]
    exact List.count_filter hkeep

/-- Known ranges are replaced, unless nothing is left of the pool. -/
theorem leavesRanges_updateRanges_iff (hengine : engine.Accepts)
    (h : findMacPool pools poolName = some pool) (hnodup : pool.ranges.Nodup)
    {rangeDict : RangeDict} (hknown : ∀ range ∈ rangeDict.keys, range ∈ pool.ranges) :
    LeavesRanges (updateRangesOnMacPool engine poolName rangeDict) pools poolName
        (pool.ranges.filter (fun range => !rangeDict.keys.contains range)
          ++ rangeDict.entries.map Sigma.snd) ↔
      pool.ranges.filter (fun range => !rangeDict.keys.contains range)
        ++ rangeDict.entries.map Sigma.snd ≠ [] := by
  obtain ⟨result, hresult, hcount⟩ :=
    replaceRanges_of_known rangeDict.nodupKeys hknown hknown
  have hperm : result.Perm (pool.ranges.filter (fun range => !rangeDict.keys.contains range)
      ++ rangeDict.entries.map Sigma.snd) := by
    rw [List.perm_iff_count]
    intro range
    have hleft := count_filter_not_contains hnodup rangeDict.keys_nodup hknown range
    have hsum := hcount range
    change _ + rangeDict.keys.count range = _ at hsum
    rw [List.count_append]
    omega
  rw [← leavesRanges_update_iff hengine h hperm, LeavesRanges,
    run_updateRangesOnMacPool engine h hresult]
  rfl

theorem updatesRanges_iff (hengine : engine.Accepts) (h : findMacPool pools poolName = some pool)
    (hnodup : pool.ranges.Nodup) (rangeDict : RangeDict) :
    UpdatesRanges engine pools poolName pool.ranges rangeDict ↔
      pool.ranges ≠ [] ∨ rangeDict.entries ≠ [] := by
  have hmissing : (∃ range ∈ rangeDict.keys, range ∉ pool.ranges) →
      (updateRangesOnMacPool engine poolName rangeDict).run pools = .ok false pools := by
    intro hmissing
    have hnone := replaceRanges_of_missing rangeDict.nodupKeys (fun _ _ hmem => hmem) hmissing
    rw [run_updateRangesOnMacPool engine h hnone]
    rfl
  constructor
  · intro hboth
    by_contra hnil
    rw [not_or, not_not, not_not] at hnil
    have hkeys : rangeDict.keys = [] := by
      rw [AList.keys, hnil.2]
      rfl
    have hknown : ∀ range ∈ rangeDict.keys, range ∈ pool.ranges := by
      rw [hkeys]
      exact fun range hrange => absurd hrange List.not_mem_nil
    refine (leavesRanges_updateRanges_iff hengine h hnodup hknown).mp (hboth.1 hknown) ?_
    rw [hnil.1, hnil.2]
    rfl
  · intro hsome
    refine ⟨fun hknown =>
      (leavesRanges_updateRanges_iff hengine h hnodup hknown).mpr fun hnil => ?_, hmissing⟩
    obtain ⟨hfilter, hvalues⟩ := List.append_eq_nil_iff.mp hnil
    have hentries : rangeDict.entries = [] := List.map_eq_nil_iff.mp hvalues
    rcases hsome with hranges | hdict
    · have hsame : pool.ranges.filter (fun range => !([] : List MacRange).contains range)
          = pool.ranges := List.filter_eq_self.mpr fun _ _ => rfl
      rw [AList.keys, hentries] at hfilter
      exact hranges (hsame.symm.trans hfilter)
    · exact hdict hentries

/-! ## The default pool -/

/-- `update_default_mac_pool` leaves the new range alone in the pool, if it is the default one
and has the name that the function uses. -/
theorem leavesRanges_updateDefault (hengine : engine.Accepts)
    (h : findMacPool pools defaultMacPool = some pool)
    (hdefault : pools.find? (fun pool => pool.defaultPool) = some pool)
    (fromString : Text → MacRange) (macRanges : Text) {macRange : Text} (hne : macRange ≠ []) :
    LeavesRanges (updateDefaultMacPool engine fromString macRanges (some macRange)) pools
      defaultMacPool [fromString macRange] := by
  obtain ⟨after, hadd, found, hfound, hranges⟩ :=
    (leavesRanges_add_iff hengine h [fromString macRange]).mpr (.inr (List.cons_ne_nil _ _))
  have hadded : found.ranges.Perm ([fromString macRange] ++ pool.ranges) :=
    hranges.trans List.perm_append_comm
  obtain ⟨last, hremove, hlast⟩ :=
    (leavesRanges_remove_added_iff hengine hfound hadded).mpr (List.cons_ne_nil _ _)
  have hpool : getDefaultMacPool.run pools = .ok pool pools := by
    change (fromExcept (orRaise .indexError (pools.find? fun pool => pool.defaultPool))).run
      pools = _
    rw [hdefault]
    rfl
  refine ⟨last, ?_, hlast⟩
  rw [updateDefaultMacPool, Option.getD_some, if_neg fun hempty => hne (List.isEmpty_iff.mp hempty),
    replaceDefaultRanges, EStateM.run_bind, hpool]
  change (addRangesToMacPool engine defaultMacPool [fromString macRange] >>= _).run pools = _
  rw [EStateM.run_bind, hadd]
  change (removeRangesFromMacPool engine defaultMacPool pool.ranges >>= _).run after = _
  rw [EStateM.run_bind, hremove]
  rfl

end

/-! ## All operations -/

/-- The operations on the ranges of a pool, counted with repetitions, for an engine that accepts
every update: removing is right exactly if no range of the pool is given twice and something is
left, adding and replacing unless no range is to be sent, adding and removing again unless the
pool is empty, and updating the default pool always. -/
theorem mac_pool_ranges_iff {engine : MacPoolEngine} {pools : MacPools} {poolName : Text}
    {pool : MacPool} (hengine : engine.Accepts) (h : findMacPool pools poolName = some pool)
    (hnodup : pool.ranges.Nodup) :
    (∀ rangeList, LeavesRanges (removeRangesFromMacPool engine poolName rangeList) pools poolName
        (pool.ranges.filter fun range => !rangeList.contains range) ↔
      (∀ range ∈ pool.ranges, rangeList.count range ≤ 1) ∧
        ∃ range ∈ pool.ranges, range ∉ rangeList) ∧
    (∀ rangeList, LeavesRanges (addRangesToMacPool engine poolName rangeList) pools poolName
        (pool.ranges ++ rangeList) ↔ pool.ranges ≠ [] ∨ rangeList ≠ []) ∧
    (∀ rangeDict, UpdatesRanges engine pools poolName pool.ranges rangeDict ↔
      pool.ranges ≠ [] ∨ rangeDict.entries ≠ []) ∧
    (∀ rangeList, LeavesRanges (addAndRemove engine poolName rangeList) pools poolName
        pool.ranges ↔ pool.ranges ≠ []) ∧
    (poolName = defaultMacPool → pools.find? (fun pool => pool.defaultPool) = some pool →
      ∀ fromString macRanges macRange, macRange ≠ [] →
        LeavesRanges (updateDefaultMacPool engine fromString macRanges (some macRange)) pools
          poolName [fromString macRange]) := by
  refine ⟨leavesRanges_remove_not_given_iff hengine h hnodup, leavesRanges_add_iff hengine h,
    updatesRanges_iff hengine h hnodup, leavesRanges_addAndRemove_iff hengine h, ?_⟩
  rintro rfl hdefault fromString macRanges macRange hne
  exact leavesRanges_updateDefault hengine h hdefault fromString macRanges hne

/-- An engine that keeps the order, and whose replies are looked at. -/
def keepingEngine : MacPoolEngine := ⟨some, true⟩

theorem keepingEngine_accepts : keepingEngine.Accepts :=
  ⟨fun ranges => ⟨ranges, rfl, List.Perm.refl ranges, fun _ => (compareRanges_iff rfl).mpr rfl⟩⟩

/-- Two ranges of addresses. -/
def lowRange : MacRange := ⟨"00:1a:4a:16:88:85".toList, "00:1a:4a:16:88:98".toList⟩

/-- A range above the one of the pool. -/
def highRange : MacRange := ⟨"00:1a:4a:17:00:00".toList, "00:1a:4a:17:00:ff".toList⟩

/-- A setup with one pool. -/
def onePool (ranges : List MacRange) : MacPools := [⟨defaultMacPool, true, ranges⟩]

theorem low_range_removed :
    LeavesRanges (removeRangesFromMacPool keepingEngine defaultMacPool [lowRange])
      (onePool [lowRange, highRange]) defaultMacPool [highRange] := by
  have hpool : findMacPool (onePool [lowRange, highRange]) defaultMacPool
      = some ⟨defaultMacPool, true, [lowRange, highRange]⟩ := by rfl
  have hnodup : [lowRange, highRange].Nodup := by decide
  have hiff := (mac_pool_ranges_iff keepingEngine_accepts hpool hnodup).1 [lowRange]
  exact hiff.mpr ⟨by decide, highRange, by decide, by decide⟩

/-- A range of the pool that is given twice raises, and so does the last range. -/
theorem repeated_or_last_range_not_removed :
    ¬ LeavesRanges (removeRangesFromMacPool keepingEngine defaultMacPool [lowRange, lowRange])
      (onePool [lowRange, highRange]) defaultMacPool [highRange] ∧
    ¬ LeavesRanges (removeRangesFromMacPool keepingEngine defaultMacPool [lowRange])
      (onePool [lowRange]) defaultMacPool [] := by
  constructor
  · rintro ⟨after, hrun, -⟩
    cases hrun
  · rintro ⟨after, hrun, -⟩
    cases hrun

end OvirtArt.Networking
