import Mathlib.Algebra.Field.Rat
import Mathlib.Algebra.Order.Ring.NNRat
import Mathlib.Data.Bool.AllAny
import Mathlib.Data.List.AList
import OvirtArt.CoreApi.PyText
import OvirtArt.Foundation.Delimited
import OvirtArt.Foundation.Effects
import OvirtArt.Foundation.Runs

set_option autoImplicit false

/-!
# `rhevm_api/utils/name2ip.py`

The addresses of virtual machines and hosts are looked up by their names.  All resolvers share
one dictionary, in which an address is kept until it expires or is removed by `reset_cache`.

Time is a rational number, and each operation may take some.  What the engine answers to a
resolver is a parameter; the decorators, and the names of decorated functions, are left out.  A
reset takes its argument for a regular expression, as its documentation says.
-/

namespace OvirtArt.Utils

namespace Name2Ip

open OvirtArt.CoreApi OvirtArt.Foundation

/-! ## What the module uses -/

/-- `re.compile`: no pattern, where it raises an exception, and else which texts `match` of the
pattern accepts. -/
abbrev Re := Text → Option (Text → Bool)

/-- The characters that mean something else than themselves in a regular expression. -/
def special : List Char :=
  ['.', '^', '$', '*', '+', '?', '\x7b', '\x7d', '[', ']', '\\', '|', '(', ')']

/-- All other characters match themselves, and `$` matches at the end of a text, with or without a
newline after it. -/
def Re.Literal (re : Re) : Prop :=
  ∀ text : Text, (∀ c ∈ text, c ∉ special) →
    ∃ reg, re ('^' :: text ++ ['$']) = some reg ∧
      ∀ key, reg key = true ↔ key = text ∨ key = text ++ ['\n']

/-- The base class, and the classes with a `get_ip` of their own. -/
inductive Kind
  | base
  | vms
  | hosts
deriving DecidableEq, Repr

/-- What a lookup raises. -/
inductive Raised
  | ipLookUpError (message : Text)
  | entityNotFound
  | valueError (message : Text)
  | notImplementedError
  | reError
  | other
deriving DecidableEq, Repr

/-- What the `get_ip` of the kinds comes to, and how long it takes, while a name is looked up. -/
structure Answers where
  getIp : Kind → Text → Except Raised (Option Text)
  time : Kind → ℚ≥0

/-- A record of the cache. -/
structure Record where
  ip : Option Text
  exp : ℚ
deriving DecidableEq, Repr

/-- Something that happens to the cache. -/
inductive Event
  /-- `get_ip` has returned an address at this time, to a resolver with this expiry. -/
  | stored (kind : Kind) (name ip : Text) (time cacheExp : ℚ)
  /-- The records with these names have been removed. -/
  | reset (reg : Text → Bool)

/-- The cache, the time, and what has happened so far, the last first. -/
structure Lookups where
  cache : AList fun _ : Text => Record
  clock : ℚ
  events : List Event

/-- A procedure of the module. -/
abbrev Looking (α : Type) := EStateM Raised Lookups α

/-! ## The source -/

/-- `entity`, as it is formatted. -/
def Kind.entity : Kind → Text
  | .base => "None".toList
  | .vms => "vms".toList
  | .hosts => "hosts".toList

/-- `"%s-%s" % (self.entity, source_value)`. -/
def Kind.cacheRecName (kind : Kind) (sourceValue : Text) : Text :=
  kind.entity ++ '-' :: sourceValue

/-- `get_ip`; that of the base class is not implemented. -/
def Answers.getIpOf (answers : Answers) (kind : Kind) (name : Text) :
    Except Raised (Option Text) :=
  match kind with
  | .base => .error .notImplementedError
  | .vms | .hosts => answers.getIp kind name

/-- `self.get_ip(source_value)`. -/
def getIp (answers : Answers) (kind : Kind) (name : Text) : Looking (Option Text) := do
  modify fun lookups => { lookups with clock := lookups.clock + answers.time kind }
  fromExcept (answers.getIpOf kind name)

/-- `self.cache[cache_rec_name] = cache_rec`, and that it happens. -/
def store (kind : Kind) (name ip : Text) (exp cacheExp : ℚ) : Looking PUnit :=
  modify fun lookups =>
    { lookups with
      cache := lookups.cache.insert (kind.cacheRecName name) { ip := some ip, exp := exp }
      events := .stored kind name ip lookups.clock cacheExp :: lookups.events }

/-- `LookUpIpByEntityName.look_up`. -/
def lookUp (answers : Answers) (kind : Kind) (cacheExp : ℚ) (sourceValue : Text) :
    Looking (Option Text) := do
  let lookups ← get
  let cacheRec :=
    (lookups.cache.lookup (kind.cacheRecName sourceValue)).getD { ip := none, exp := 0 }
  let timeStmp := lookups.clock
  if cacheRec.exp < timeStmp then
    match ← getIp answers kind sourceValue with
    | none => throw (.ipLookUpError (kind.cacheRecName sourceValue))
    | some ip =>
      store kind sourceValue ip (timeStmp + cacheExp) cacheExp
      pure (some ip)
  else pure cacheRec.ip

/-- `LookUpIpByEntityName.reset_cache`. -/
def resetCache (re : Re) (entity entityName : Text) : Looking PUnit := do
  match re ('^' :: (entity ++ '-' :: entityName) ++ ['$']) with
  | none => throw .reError
  | some reg =>
    let elms := (← get).cache.keys.filter reg
    elms.forM fun elm =>
      modify fun lookups => { lookups with cache := lookups.cache.erase elm }
    modify fun lookups => { lookups with events := .reset reg :: lookups.events }

/-- `re.match("^(?P<entity>[^:]+):(?P<name>.+)$", source_value)`: the entity ends at the first
colon, and the name has no newline but for one after it. -/
def splitSource (sourceValue : Text) : Option (Text × Text) :=
  match sourceValue.span (· ≠ ':') with
  | ([], _) => none
  | (_, []) => none
  | (entity, _ :: rest) =>
    let name := if rest.getLast? = some '\n' then rest.dropLast else rest
    if name ≠ [] ∧ '\n' ∉ name then some (entity, name) else none

/-- `ENTITY`. -/
def entityOf (entity : Text) : Option Kind :=
  if entity = Kind.vms.entity then some .vms
  else if entity = Kind.hosts.entity then some .hosts
  else none

/-- The loop over `ENTITY.values()`. -/
def tryAll (answers : Answers) (cacheExp : ℚ) (sourceValue : Text) :
    List Kind → Looking (Option Text)
  | [] => throw (.ipLookUpError sourceValue)
  | kind :: rest =>
    tryCatch (lookUp answers kind cacheExp sourceValue) fun raised =>
      match raised with
      | .ipLookUpError _ | .entityNotFound => tryAll answers cacheExp sourceValue rest
      | raised => throw raised

/-- `name2ip.look_up`; `values` are `ENTITY.values()`. -/
def name2ipLookUp (values : List Kind) (answers : Answers) (cacheExp : ℚ) (sourceValue : Text) :
    Looking (Option Text) :=
  match splitSource sourceValue with
  | some (entity, name) =>
    match entityOf entity with
    | none => throw (.valueError ("unknown entity: '".toList ++ entity ++ "'".toList))
    | some kind => lookUp answers kind cacheExp name
  | none => tryAll answers cacheExp sourceValue values

/-! ## Operations on the cache -/

/-- The functions that work on the cache. -/
inductive Operation
  | lookUp (kind : Kind) (cacheExp : ℚ) (name : Text) (answers : Answers)
  | name2ip (cacheExp : ℚ) (sourceValue : Text) (answers : Answers)
  | resetCache (entity entityName : Text)

/-- An operation, and the time since the last one. -/
structure Turn where
  gap : ℚ≥0
  operation : Operation

/-- The time in which nothing happens. -/
def Turn.begin (turn : Turn) (lookups : Lookups) : Lookups :=
  { lookups with clock := lookups.clock + turn.gap }

/-- The cache after an operation. -/
def Operation.apply (re : Re) (values : List Kind) (operation : Operation) (lookups : Lookups) :
    Lookups :=
  match operation with
  | .lookUp kind cacheExp name answers => after (Name2Ip.lookUp answers kind cacheExp name) lookups
  | .name2ip cacheExp sourceValue answers =>
    after (name2ipLookUp values answers cacheExp sourceValue) lookups
  | .resetCache entity entityName => after (Name2Ip.resetCache re entity entityName) lookups

/-- The cache after one turn. -/
def step (re : Re) (values : List Kind) (lookups : Lookups) (turn : Turn) : Option Lookups :=
  some (turn.operation.apply re values (turn.begin lookups))

/-- Nothing has happened; the time is after the epoch. -/
def started (time : { time : ℚ // 0 < time }) : Lookups :=
  { cache := ∅, clock := time, events := [] }

/-! ## What is asked of the operations -/

/-- The cache has a record that is not expired. -/
def Lookups.Holds (lookups : Lookups) (key : Text) : Prop :=
  ∃ record, lookups.cache.lookup key = some record ∧ lookups.clock ≤ record.exp

/-- The address has been stored, and no reset that covers the name has come after it. -/
def StoredSince (events : List Event) (kind : Kind) (name ip : Text) (time cacheExp : ℚ) : Prop :=
  ∃ later earlier, events = later ++ .stored kind name ip time cacheExp :: earlier ∧
    ∀ reg, .reset reg ∈ later → reg (kind.cacheRecName name) = false

/-- `get_ip` has returned the address for the name, no reset that covers the name has come after
it, and the expiry of the resolver that has stored it is not over at this time. -/
def Lookups.StoredInTime (lookups : Lookups) (now : ℚ) (kind : Kind) (name ip : Text) : Prop :=
  ∃ time cacheExp, time ≤ now ∧ now ≤ time + cacheExp ∧
    StoredSince lookups.events kind name ip time cacheExp

/-- `get_ip` returns the address in this procedure. -/
def AnsweredNow (answers : Answers) (lookups next : Lookups) (kind : Kind) (name ip : Text) :
    Prop :=
  answers.getIpOf kind name = .ok (some ip) ∧
    ∃ time cacheExp, next.events = .stored kind name ip time cacheExp :: lookups.events

/-- What a procedure that looks a name up does: it returns an address that one of the kinds that
are asked has for the name, now or from a time before; it leaves the cache as it was when it
raises; and it raises when no kind has a record and none has an address. -/
structure Finds (asked : List (Kind × Text)) (answers : Answers)
    (procedure : Looking (Option Text)) (lookups : Lookups) : Prop where
  returned : ∀ result next, procedure.run lookups = .ok result next →
    ∃ kind name ip now, (kind, name) ∈ asked ∧ result = some ip ∧
      lookups.clock ≤ now ∧ now ≤ next.clock ∧
        (AnsweredNow answers lookups next kind name ip ∨ lookups.StoredInTime now kind name ip)
  failed : ∀ raised next, procedure.run lookups = .error raised next →
    next.cache = lookups.cache
  raises : (∀ ask ∈ asked, ¬ lookups.Holds (ask.1.cacheRecName ask.2) ∧
      ∀ ip, answers.getIpOf ask.1 ask.2 ≠ .ok (some ip)) →
    ∃ raised next, procedure.run lookups = .error raised next

/-- What a reset does: it removes the records that the regular expression matches, and leaves the
cache as it was if that is none.  For a kind and a name without special characters it
removes the records of that kind and name, and of the name with a newline at its end. -/
structure Resets (re : Re) (entity entityName : Text) (lookups : Lookups) : Prop where
  removed : ∀ next, (resetCache re entity entityName).run lookups = .ok ⟨⟩ next →
    ∃ reg, re ('^' :: (entity ++ '-' :: entityName) ++ ['$']) = some reg ∧
      ∀ key, next.cache.lookup key = if reg key then none else lookups.cache.lookup key
  failed : ∀ raised next, (resetCache re entity entityName).run lookups = .error raised next →
    next.cache = lookups.cache
  plain : ∀ kind : Kind, entity = kind.entity → (∀ c ∈ entityName, c ∉ special) →
    ∃ next, (resetCache re entity entityName).run lookups = .ok ⟨⟩ next ∧
      ∀ other name, next.cache.lookup (Kind.cacheRecName other name) =
        if other = kind ∧ (name = entityName ∨ name = entityName ++ ['\n']) then none
        else lookups.cache.lookup (Kind.cacheRecName other name)

/-- The kinds and the names for which `name2ip` may ask. -/
def askedFor (values : List Kind) (sourceValue : Text) : List (Kind × Text) :=
  match splitSource sourceValue with
  | some (entity, name) => ((entityOf entity).map fun kind => (kind, name)).toList
  | none => values.map fun kind => (kind, sourceValue)

/-- What is asked of a turn: a lookup finds an address of these records, a reset removes its own. -/
def Keeps (re : Re) (values : List Kind) (lookups : Lookups) (turn : Turn) : Prop :=
  match turn.operation with
  | .lookUp kind cacheExp name answers =>
    Finds [(kind, name)] answers (lookUp answers kind cacheExp name) (turn.begin lookups)
  | .name2ip cacheExp sourceValue answers =>
    Finds (askedFor values sourceValue) answers
      (name2ipLookUp values answers cacheExp sourceValue) (turn.begin lookups)
  | .resetCache entity entityName => Resets re entity entityName (turn.begin lookups)

/-! ## The names of the records -/

theorem hyphen_not_mem_entity (kind : Kind) : '-' ∉ kind.entity := by
  cases kind <;> decide

theorem entity_inj {kind other : Kind} (h : kind.entity = other.entity) : kind = other := by
  cases kind <;> cases other <;> first | rfl | exact absurd h (by decide)

/-- The entity of a record stands before its first hyphen. -/
theorem cacheRecName_inj {kind other : Kind} {name name' : Text} :
    kind.cacheRecName name = other.cacheRecName name' ↔ kind = other ∧ name = name' := by
  constructor
  · intro h
    unfold Kind.cacheRecName at h
    have hentity : kind.entity = other.entity := by
      rw [← upTo_append (hyphen_not_mem_entity kind), h, upTo_append (hyphen_not_mem_entity other)]
    have hname : name = name' := by
      rw [hentity] at h
      exact (List.cons.inj (List.append_cancel_left h)).2
    exact ⟨entity_inj hentity, hname⟩
  · rintro ⟨rfl, rfl⟩
    rfl

/-! ## One look-up -/

section

variable {answers : Answers} {kind : Kind} {cacheExp : ℚ} {name : Text} {lookups : Lookups}

/-- The time goes on while `get_ip` runs. -/
def Lookups.asked (lookups : Lookups) (answers : Answers) (kind : Kind) : Lookups :=
  { lookups with clock := lookups.clock + answers.time kind }

theorem run_getIp (answers : Answers) (kind : Kind) (name : Text) (lookups : Lookups) :
    (getIp answers kind name).run lookups =
      match answers.getIpOf kind name with
      | .ok ip => .ok ip (lookups.asked answers kind)
      | .error raised => .error raised (lookups.asked answers kind) := by
  unfold getIp
  rw [EStateM.run_bind]
  change (fromExcept (answers.getIpOf kind name)).run (lookups.asked answers kind) = _
  rw [run_fromExcept]
  cases answers.getIpOf kind name <;> rfl

/-- A record that is not expired is used. -/
theorem run_lookUp_of_holds {record : Record}
    (hrecord : lookups.cache.lookup (kind.cacheRecName name) = some record)
    (hexp : lookups.clock ≤ record.exp) :
    (lookUp answers kind cacheExp name).run lookups = .ok record.ip lookups := by
  unfold lookUp
  rw [EStateM.run_bind, EStateM.run_get]
  dsimp only
  rw [hrecord, Option.getD_some, if_neg (not_lt.mpr hexp)]
  rfl

theorem expired_of_not_holds (hclock : 0 < lookups.clock)
    (h : ¬ lookups.Holds (kind.cacheRecName name)) :
    ((lookups.cache.lookup (kind.cacheRecName name)).getD { ip := none, exp := 0 }).exp <
      lookups.clock := by
  cases hrecord : lookups.cache.lookup (kind.cacheRecName name) with
  | none => exact hclock
  | some record => exact lt_of_not_ge fun hexp => h ⟨record, hrecord, hexp⟩

/-- Without such a record `get_ip` decides. -/
theorem run_lookUp_of_not_holds (hclock : 0 < lookups.clock)
    (h : ¬ lookups.Holds (kind.cacheRecName name)) :
    (lookUp answers kind cacheExp name).run lookups =
      match answers.getIpOf kind name with
      | .ok (some ip) =>
        (do store kind name ip (lookups.clock + cacheExp) cacheExp; pure (some ip)
          : Looking (Option Text)).run (lookups.asked answers kind)
      | .ok none =>
        .error (.ipLookUpError (kind.cacheRecName name)) (lookups.asked answers kind)
      | .error raised => .error raised (lookups.asked answers kind) := by
  unfold lookUp
  rw [EStateM.run_bind, EStateM.run_get]
  dsimp only
  rw [if_pos (expired_of_not_holds hclock h), EStateM.run_bind, run_getIp]
  cases answers.getIpOf kind name with
  | error raised => rfl
  | ok ip =>
    cases ip with
    | none => rfl
    | some ip => rfl

/-- The three outcomes of a look-up. -/
theorem lookUp_cases (hclock : 0 < lookups.clock) :
    (∃ record, lookups.cache.lookup (kind.cacheRecName name) = some record ∧
        lookups.clock ≤ record.exp ∧
        (lookUp answers kind cacheExp name).run lookups = .ok record.ip lookups) ∨
      (∃ ip, ¬ lookups.Holds (kind.cacheRecName name) ∧
        answers.getIpOf kind name = .ok (some ip) ∧
        (lookUp answers kind cacheExp name).run lookups =
          .ok (some ip)
            (after (store kind name ip (lookups.clock + cacheExp) cacheExp)
              (lookups.asked answers kind))) ∨
      (∃ raised, ¬ lookups.Holds (kind.cacheRecName name) ∧
        (∀ ip, answers.getIpOf kind name ≠ .ok (some ip)) ∧
        (lookUp answers kind cacheExp name).run lookups =
          .error raised (lookups.asked answers kind)) := by
  by_cases hholds : lookups.Holds (kind.cacheRecName name)
  · obtain ⟨record, hrecord, hexp⟩ := hholds
    exact .inl ⟨record, hrecord, hexp, run_lookUp_of_holds hrecord hexp⟩
  · have hrun := @run_lookUp_of_not_holds answers kind cacheExp name lookups hclock hholds
    cases hanswer : answers.getIpOf kind name with
    | error raised =>
      rw [hanswer] at hrun
      exact .inr (.inr ⟨raised, hholds, nofun, hrun⟩)
    | ok ip =>
      rw [hanswer] at hrun
      cases ip with
      | none => exact .inr (.inr ⟨_, hholds, nofun, hrun⟩)
      | some ip => exact .inr (.inl ⟨ip, hholds, rfl, hrun⟩)

end

/-! ## The records of the cache -/

/-- Every record has an address that has been stored, and that has not been removed since. -/
structure Lookups.Backed (lookups : Lookups) : Prop where
  clock_pos : 0 < lookups.clock
  records : ∀ key record, lookups.cache.lookup key = some record →
    ∃ kind name ip time cacheExp, key = Kind.cacheRecName kind name ∧ record.ip = some ip ∧
      record.exp ≤ time + cacheExp ∧ time ≤ lookups.clock ∧
        StoredSince lookups.events kind name ip time cacheExp

section

variable {lookups : Lookups}

theorem StoredSince.cons {events : List Event} {kind : Kind} {name ip : Text}
    {time cacheExp : ℚ} {event : Event} (h : StoredSince events kind name ip time cacheExp)
    (hevent : ∀ reg, event = .reset reg → reg (kind.cacheRecName name) = false) :
    StoredSince (event :: events) kind name ip time cacheExp := by
  obtain ⟨later, earlier, rfl, hlater⟩ := h
  refine ⟨event :: later, earlier, rfl, fun reg hreg => ?_⟩
  rcases List.mem_cons.mp hreg with heq | hmem
  · exact hevent reg heq.symm
  · exact hlater reg hmem

theorem Lookups.backed_started (time : { time : ℚ // 0 < time }) : (started time).Backed where
  clock_pos := time.2
  records := nofun

/-- Time that passes removes nothing. -/
theorem Lookups.Backed.wait (h : lookups.Backed) (time : ℚ≥0) :
    { lookups with clock := lookups.clock + time : Lookups }.Backed where
  clock_pos := add_pos_of_pos_of_nonneg h.clock_pos time.2
  records := by
    intro key record hrecord
    obtain ⟨kind, name, ip, t, cacheExp, hkey, hip, hexp, ht, hstored⟩ :=
      h.records key record hrecord
    exact ⟨kind, name, ip, t, cacheExp, hkey, hip, hexp, ht.trans (le_add_of_nonneg_right time.2),
      hstored⟩

/-- A record that is stored is backed by this. -/
theorem Lookups.Backed.store (h : lookups.Backed) (kind : Kind) (name ip : Text)
    {exp cacheExp : ℚ} (hexp : exp ≤ lookups.clock + cacheExp) :
    (after (Name2Ip.store kind name ip exp cacheExp) lookups).Backed where
  clock_pos := h.clock_pos
  records := by
    intro key record hrecord
    change AList.lookup key (lookups.cache.insert (kind.cacheRecName name) _) = _ at hrecord
    by_cases hkey : key = kind.cacheRecName name
    · subst hkey
      rw [AList.lookup_insert] at hrecord
      obtain rfl := Option.some.inj hrecord
      exact ⟨kind, name, ip, lookups.clock, cacheExp, rfl, rfl, hexp, le_rfl, [], lookups.events,
        rfl, nofun⟩
    · rw [AList.lookup_insert_ne hkey] at hrecord
      obtain ⟨kind', name', ip', t, cacheExp', hkey', hip, hexp', ht, hstored⟩ :=
        h.records key record hrecord
      exact ⟨kind', name', ip', t, cacheExp', hkey', hip, hexp', ht, hstored.cons nofun⟩

theorem Lookups.Backed.lookUp (h : lookups.Backed) (answers : Answers) (kind : Kind)
    (cacheExp : ℚ) (name : Text) :
    (after (Name2Ip.lookUp answers kind cacheExp name) lookups).Backed := by
  obtain ⟨record, _, _, hrun⟩ | ⟨ip, _, _, hrun⟩ | ⟨raised, _, _, hrun⟩ :=
    @lookUp_cases answers kind cacheExp name lookups h.clock_pos
  · rw [after_eq_of_ok hrun]
    exact h
  · rw [after_eq_of_ok hrun]
    apply (h.wait (answers.time kind)).store kind name ip
    exact add_le_add_left (le_add_of_nonneg_right (answers.time kind).2) cacheExp
  · rw [after_eq_of_error hrun]
    exact h.wait (answers.time kind)

/-- What the cache gives for a name. -/
theorem Lookups.Backed.storedInTime (h : lookups.Backed) {kind : Kind} {name : Text}
    {record : Record} (hrecord : lookups.cache.lookup (kind.cacheRecName name) = some record)
    (hexp : lookups.clock ≤ record.exp) :
    ∃ ip, record.ip = some ip ∧ lookups.StoredInTime lookups.clock kind name ip := by
  obtain ⟨kind', name', ip, time, cacheExp, hkey, hip, hle, htime, hstored⟩ :=
    h.records _ record hrecord
  obtain ⟨rfl, rfl⟩ := cacheRecName_inj.mp hkey
  exact ⟨ip, hip, time, cacheExp, htime, hexp.trans hle, hstored⟩

end

/-! ## Look-ups -/

section

variable {lookups : Lookups} {answers : Answers} {kind : Kind} {cacheExp : ℚ} {name : Text}
  {asked asked' : List (Kind × Text)} {procedure procedure' : Looking (Option Text)}

theorem finds_lookUp (h : lookups.Backed) :
    Finds [(kind, name)] answers (lookUp answers kind cacheExp name) lookups := by
  obtain ⟨record, hrecord, hexp, hrun⟩ | ⟨ip, _, hanswer, hrun⟩ |
      ⟨raised, _, _, hrun⟩ := @lookUp_cases answers kind cacheExp name lookups h.clock_pos
  · refine ⟨fun result next hreturned => ?_, fun raised next hraised => ?_, fun hnone => ?_⟩
    · obtain ⟨rfl, rfl⟩ := EStateM.Result.ok.inj (hrun.symm.trans hreturned)
      obtain ⟨ip, hip, hstored⟩ := h.storedInTime hrecord hexp
      exact ⟨kind, name, ip, lookups.clock, List.mem_singleton_self _, hip, le_rfl, le_rfl,
        .inr hstored⟩
    · exact nomatch hrun.symm.trans hraised
    · exact absurd ⟨record, hrecord, hexp⟩ (hnone _ (List.mem_singleton_self _)).1
  · refine ⟨fun result next hreturned => ?_, fun raised next hraised => ?_, fun hnone => ?_⟩
    · obtain ⟨rfl, rfl⟩ := EStateM.Result.ok.inj (hrun.symm.trans hreturned)
      exact ⟨kind, name, ip, lookups.clock, List.mem_singleton_self _, rfl, le_rfl,
        le_add_of_nonneg_right (answers.time kind).2, .inl ⟨hanswer, _, cacheExp, rfl⟩⟩
    · exact nomatch hrun.symm.trans hraised
    · exact absurd hanswer ((hnone _ (List.mem_singleton_self _)).2 ip)
  · refine ⟨fun result next hreturned => ?_, fun raised next hraised => ?_, fun _ => ?_⟩
    · exact nomatch hrun.symm.trans hreturned
    · obtain ⟨rfl, rfl⟩ := EStateM.Result.error.inj (hrun.symm.trans hraised)
      rfl
    · exact ⟨raised, _, hrun⟩

/-- A procedure that does the same, when more is asked for. -/
theorem Finds.mono (h : Finds asked answers procedure lookups)
    (hsub : ∀ ask ∈ asked, ask ∈ asked')
    (hrun : procedure'.run lookups = procedure.run lookups) :
    Finds asked' answers procedure' lookups where
  returned := by
    intro result next hreturned
    obtain ⟨kind, name, ip, now, hmem, hrest⟩ :=
      h.returned result next (hrun.symm.trans hreturned)
    exact ⟨kind, name, ip, now, hsub _ hmem, hrest⟩
  failed := fun raised next hraised => h.failed raised next (hrun.symm.trans hraised)
  raises := by
    intro hnone
    rw [hrun]
    exact h.raises fun ask hask => hnone ask (hsub ask hask)

/-- A procedure that goes on after a look-up that has failed. -/
theorem Finds.after_failed {ask : Kind × Text}
    (h : Finds asked answers procedure (lookups.asked answers kind))
    (hrun : procedure'.run lookups = procedure.run (lookups.asked answers kind)) :
    Finds (ask :: asked) answers procedure' lookups where
  returned := by
    intro result next hreturned
    obtain ⟨kind', name, ip, now, hmem, hresult, hclock, hrest⟩ :=
      h.returned result next (hrun.symm.trans hreturned)
    exact ⟨kind', name, ip, now, List.mem_cons_of_mem _ hmem, hresult,
      (le_add_of_nonneg_right (answers.time kind).2).trans hclock, hrest⟩
  failed := fun raised next hraised => h.failed raised next (hrun.symm.trans hraised)
  raises := by
    intro hnone
    rw [hrun]
    apply h.raises
    intro other hother
    obtain ⟨hholds, hfails⟩ := hnone other (List.mem_cons_of_mem _ hother)
    refine ⟨fun ⟨record, hrecord, hexp⟩ => hholds ⟨record, hrecord, ?_⟩, hfails⟩
    exact (le_add_of_nonneg_right (answers.time kind).2).trans hexp

/-- A procedure that raises before it asks. -/
theorem finds_throw (raised : Raised) :
    Finds [] answers (throw raised : Looking (Option Text)) lookups where
  returned := nofun
  failed := by
    intro raised next hraised
    obtain ⟨_, rfl⟩ := EStateM.Result.error.inj hraised
    rfl
  raises := fun _ => ⟨raised, lookups, rfl⟩

/-- Where the loop over the kinds goes on, and where it ends. -/
theorem run_tryAll_cons (hclock : 0 < lookups.clock) (rest : List Kind) :
    (tryAll answers cacheExp name (kind :: rest)).run lookups =
        (lookUp answers kind cacheExp name).run lookups ∨
      (tryAll answers cacheExp name (kind :: rest)).run lookups =
        (tryAll answers cacheExp name rest).run (lookups.asked answers kind) := by
  rw [tryAll, run_tryCatch]
  obtain ⟨record, _, _, hrun⟩ | ⟨ip, _, _, hrun⟩ | ⟨raised, _, _, hrun⟩ :=
    @lookUp_cases answers kind cacheExp name lookups hclock
  · rw [hrun]
    exact .inl rfl
  · rw [hrun]
    exact .inl rfl
  · rw [hrun]
    cases raised with
    | ipLookUpError message => exact .inr rfl
    | entityNotFound => exact .inr rfl
    | valueError message => exact .inl rfl
    | notImplementedError => exact .inl rfl
    | reError => exact .inl rfl
    | other => exact .inl rfl

theorem finds_tryAll (h : lookups.Backed) (values : List Kind) :
    Finds (values.map fun kind => (kind, name)) answers (tryAll answers cacheExp name values)
      lookups := by
  induction values generalizing lookups with
  | nil => exact finds_throw _
  | cons kind rest ih =>
    rcases @run_tryAll_cons lookups answers kind cacheExp name h.clock_pos rest with hrun | hrun
    · apply (@finds_lookUp lookups answers kind cacheExp name h).mono _ hrun
      intro ask hask
      rw [List.mem_singleton.mp hask]
      exact List.mem_cons_self
    · exact (ih (h.wait (answers.time kind))).after_failed hrun

theorem Lookups.Backed.tryAll (h : lookups.Backed) (values : List Kind) :
    (after (Name2Ip.tryAll answers cacheExp name values) lookups).Backed := by
  induction values generalizing lookups with
  | nil => exact h
  | cons kind rest ih =>
    rcases @run_tryAll_cons lookups answers kind cacheExp name h.clock_pos rest with hrun | hrun
    · unfold after
      rw [hrun]
      exact h.lookUp answers kind cacheExp name
    · unfold after
      rw [hrun]
      exact ih (h.wait (answers.time kind))

theorem finds_name2ipLookUp (h : lookups.Backed) (values : List Kind) (sourceValue : Text) :
    Finds (askedFor values sourceValue) answers
      (name2ipLookUp values answers cacheExp sourceValue) lookups := by
  unfold askedFor name2ipLookUp
  cases splitSource sourceValue with
  | none => exact finds_tryAll h values
  | some parts =>
    obtain ⟨entity, name⟩ := parts
    dsimp only
    cases entityOf entity with
    | none => exact finds_throw _
    | some kind => exact finds_lookUp h

theorem Lookups.Backed.name2ipLookUp (h : lookups.Backed) (values : List Kind)
    (sourceValue : Text) :
    (after (Name2Ip.name2ipLookUp values answers cacheExp sourceValue) lookups).Backed := by
  unfold Name2Ip.name2ipLookUp
  cases splitSource sourceValue with
  | none => exact h.tryAll values
  | some parts =>
    obtain ⟨entity, name⟩ := parts
    dsimp only
    cases entityOf entity with
    | none => exact h
    | some kind => exact h.lookUp answers kind cacheExp name

end

/-! ## Resets -/

section

variable {lookups : Lookups}

/-- The cache without these records. -/
def eraseAll (elms : List Text) (cache : AList fun _ : Text => Record) :
    AList fun _ : Text => Record :=
  elms.foldl (fun cache elm => cache.erase elm) cache

theorem lookup_eraseAll (elms : List Text) (cache : AList fun _ : Text => Record) (key : Text) :
    (eraseAll elms cache).lookup key = if key ∈ elms then none else cache.lookup key := by
  unfold eraseAll
  induction elms generalizing cache with
  | nil => rfl
  | cons elm rest ih =>
    rw [List.foldl_cons, ih]
    by_cases hkey : key = elm
    · subst hkey
      simp [AList.lookup_erase]
    · simp [hkey, AList.lookup_erase_ne hkey]

theorem run_eraseAll (elms : List Text) (lookups : Lookups) :
    (elms.forM fun elm =>
        (modify fun lookups : Lookups => { lookups with cache := lookups.cache.erase elm }
          : Looking PUnit)).run lookups =
      .ok ⟨⟩ { lookups with cache := eraseAll elms lookups.cache } := by
  induction elms generalizing lookups with
  | nil => rfl
  | cons elm rest ih => exact ih { lookups with cache := lookups.cache.erase elm }

/-- After the records that a regular expression matches have been removed. -/
def Lookups.removed (lookups : Lookups) (reg : Text → Bool) : Lookups where
  cache := eraseAll (lookups.cache.keys.filter reg) lookups.cache
  clock := lookups.clock
  events := .reset reg :: lookups.events

theorem run_resetCache (re : Re) (entity entityName : Text) (lookups : Lookups) :
    (resetCache re entity entityName).run lookups =
      match re ('^' :: (entity ++ '-' :: entityName) ++ ['$']) with
      | none => .error .reError lookups
      | some reg => .ok ⟨⟩ (lookups.removed reg) := by
  unfold resetCache
  cases re ('^' :: (entity ++ '-' :: entityName) ++ ['$']) with
  | none => rfl
  | some reg =>
    change EStateM.run (((lookups.cache.keys.filter reg).forM fun elm => _) >>= fun _ => _)
      lookups = _
    rw [EStateM.run_bind, run_eraseAll]
    rfl

theorem lookup_removed (reg : Text → Bool) (key : Text) :
    (lookups.removed reg).cache.lookup key =
      if reg key then none else lookups.cache.lookup key := by
  unfold Lookups.removed
  dsimp only
  rw [lookup_eraseAll]
  by_cases hreg : reg key = true
  · rw [if_pos hreg]
    by_cases hkey : key ∈ lookups.cache
    · rw [if_pos (List.mem_filter.mpr ⟨AList.mem_keys.mp hkey, hreg⟩)]
    · rw [AList.lookup_eq_none.mpr hkey, ite_self]
  · rw [if_neg hreg, if_neg fun hmem => hreg (List.mem_filter.mp hmem).2]

/-- The records that are left are those that the reset does not cover. -/
theorem Lookups.Backed.removed (h : lookups.Backed) (reg : Text → Bool) :
    (lookups.removed reg).Backed where
  clock_pos := h.clock_pos
  records := by
    intro key record hrecord
    rw [lookup_removed] at hrecord
    by_cases hreg : reg key = true
    · rw [if_pos hreg] at hrecord
      exact nomatch hrecord
    · rw [if_neg hreg] at hrecord
      obtain ⟨kind, name, ip, time, cacheExp, hkey, hip, hexp, htime, hstored⟩ :=
        h.records key record hrecord
      refine ⟨kind, name, ip, time, cacheExp, hkey, hip, hexp, htime, hstored.cons ?_⟩
      intro reg' heq
      obtain rfl := Event.reset.inj heq
      rw [← hkey]
      exact Bool.eq_false_of_not_eq_true hreg

theorem Lookups.Backed.resetCache (h : lookups.Backed) (re : Re) (entity entityName : Text) :
    (after (Name2Ip.resetCache re entity entityName) lookups).Backed := by
  unfold after
  rw [run_resetCache]
  cases re ('^' :: (entity ++ '-' :: entityName) ++ ['$']) with
  | none => exact h
  | some reg => exact h.removed reg

theorem Kind.not_special_of_mem_entity (kind : Kind) : ∀ c ∈ kind.entity, c ∉ special := by
  cases kind <;> exact List.all_iff_forall_prop.mp (by decide)

theorem cacheRecName_append (kind : Kind) (name suffix : Text) :
    kind.cacheRecName name ++ suffix = kind.cacheRecName (name ++ suffix) := by
  simp [Kind.cacheRecName]

theorem resets (re : Re) (hre : re.Literal) (entity entityName : Text) (lookups : Lookups) :
    Resets re entity entityName lookups where
  removed := by
    intro next hrun
    rw [run_resetCache] at hrun
    cases hreg : re ('^' :: (entity ++ '-' :: entityName) ++ ['$']) with
    | none =>
      rw [hreg] at hrun
      exact nomatch hrun
    | some reg =>
      rw [hreg] at hrun
      obtain ⟨_, rfl⟩ := EStateM.Result.ok.inj hrun
      exact ⟨reg, rfl, lookup_removed reg⟩
  failed := by
    intro raised next hrun
    rw [run_resetCache] at hrun
    cases hreg : re ('^' :: (entity ++ '-' :: entityName) ++ ['$']) with
    | none =>
      rw [hreg] at hrun
      obtain ⟨_, rfl⟩ := EStateM.Result.error.inj hrun
      rfl
    | some reg =>
      rw [hreg] at hrun
      exact nomatch hrun
  plain := by
    intro kind hentity hplain
    subst hentity
    obtain ⟨reg, hcompile, hmatch⟩ := hre (kind.cacheRecName entityName) (by
      intro c hc
      rcases List.mem_append.mp hc with hentity | hname
      · exact kind.not_special_of_mem_entity c hentity
      · rcases List.mem_cons.mp hname with rfl | hname
        · decide
        · exact hplain c hname)
    refine ⟨lookups.removed reg, ?_, fun other name => ?_⟩
    · rw [run_resetCache]
      unfold Kind.cacheRecName at hcompile
      rw [hcompile]
    · rw [lookup_removed]
      refine if_congr ?_ rfl rfl
      rw [hmatch, cacheRecName_append, cacheRecName_inj, cacheRecName_inj, ← and_or_left]

end

/-! ## All operations -/

section

variable {re : Re} {values : List Kind} {lookups : Lookups}

theorem Lookups.Backed.step {next : Lookups} {turn : Turn} (h : lookups.Backed)
    (hstep : Name2Ip.step re values lookups turn = some next) : next.Backed := by
  obtain rfl := Option.some.inj hstep
  have hbegin : (turn.begin lookups).Backed := h.wait turn.gap
  unfold Operation.apply
  cases turn.operation with
  | lookUp kind cacheExp name answers => exact hbegin.lookUp answers kind cacheExp name
  | name2ip cacheExp sourceValue answers => exact hbegin.name2ipLookUp values sourceValue
  | resetCache entity entityName => exact hbegin.resetCache re entity entityName

theorem keeps_of_backed (hre : re.Literal) (h : lookups.Backed) (turn : Turn) :
    Keeps re values lookups turn := by
  have hbegin : (turn.begin lookups).Backed := h.wait turn.gap
  unfold Keeps
  cases turn.operation with
  | lookUp kind cacheExp name answers => exact finds_lookUp hbegin
  | name2ip cacheExp sourceValue answers => exact finds_name2ipLookUp hbegin values sourceValue
  | resetCache entity entityName => exact resets re hre entity entityName _

end

/-- The texts of a pattern in which a dot stands for any character but a newline. -/
def fits : Text → Text → Bool
  | [], [] => true
  | '.' :: pattern, c :: text => c ≠ '\n' && fits pattern text
  | expected :: pattern, c :: text => c == expected && fits pattern text
  | _, _ => false

/-- `re.compile` on patterns with no special characters but dots, between `^` and `$`. -/
def dots : Re
  | '^' :: rest =>
    if rest.getLast? = some '$' ∧ rest.dropLast.all fun c => c = '.' ∨ c ∉ special then
      some fun key =>
        fits rest.dropLast key ||
          (key.getLast? == some '\n' && fits rest.dropLast key.dropLast)
    else none
  | _ => none

theorem fits_plain {pattern : Text} (h : ∀ c ∈ pattern, c ∉ special) (text : Text) :
    fits pattern text = true ↔ text = pattern := by
  induction pattern generalizing text with
  | nil => cases text <;> simp [fits]
  | cons expected pattern ih =>
    have hdot : expected ≠ '.' := by
      intro heq
      exact h expected List.mem_cons_self (heq ▸ (by decide : '.' ∈ special))
    cases text with
    | nil => simp [fits]
    | cons c text =>
      rw [fits]
      · rw [Bool.and_eq_true, beq_iff_eq, ih fun c hc => h c (List.mem_cons_of_mem _ hc),
          List.cons.injEq]
      · exact fun heq => absurd heq hdot

theorem literal_dots : dots.Literal := by
  intro text htext
  have hlast : (text ++ ['$']).getLast? = some '$' := List.getLast?_concat
  have hbody : (text.append ['$']).dropLast = text := List.dropLast_concat
  have hall : (text.append ['$']).dropLast.all fun c => c = '.' ∨ c ∉ special :=
    List.all_iff_forall_prop.mpr fun c hc => .inr (htext c (hbody ▸ hc))
  refine ⟨_, if_pos ⟨hlast, hall⟩, fun key => ?_⟩
  rw [hbody, Bool.or_eq_true, Bool.and_eq_true, beq_iff_eq, fits_plain htext, fits_plain htext]
  refine or_congr_right ⟨fun h => ?_, fun h => ?_⟩
  · obtain ⟨front, rfl⟩ := List.getLast?_eq_some_iff.mp h.1
    rw [List.dropLast_concat] at h
    rw [h.2]
  · rw [h]
    exact ⟨List.getLast?_concat, List.dropLast_concat⟩

/-- A machine that is looked up at its address, which is found at once. -/
def lookUpVm (name ip : Text) : Turn where
  gap := 0
  operation := .lookUp .vms 600 name { getIp := fun _ _ => .ok (some ip), time := fun _ => 0 }

/-- A reset removes the records of this entity and name, and no others. -/
def RemovesExactly (re : Re) (entity entityName : Text) (lookups : Lookups) : Prop :=
  ∃ next, (resetCache re entity entityName).run lookups = .ok ⟨⟩ next ∧
    ∀ kind name, next.cache.lookup (Kind.cacheRecName kind name) =
      if kind.entity = entity ∧ name = entityName then none
      else lookups.cache.lookup (Kind.cacheRecName kind name)

end Name2Ip

end OvirtArt.Utils
