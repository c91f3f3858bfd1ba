import Mathlib.Data.List.AList

set_option autoImplicit false

/-!
# `rhevm_api/utils/inventory.py`: the state of an engine and its differences

A resource is dumped as a dictionary of its attributes, and two dumps of an engine are
compared resource by resource.

The resources of a type are a list, and a dump is a table of such lists.  The query for a
collection is a parameter that may raise; that the inventory is a singleton is left out.
-/

namespace OvirtArt.Utils.Inventory

/-- The value of an attribute: a string, or something else that can be compared. -/
inductive Value (α : Type) where
  | text (string : String)
  | other (value : α)
  deriving DecidableEq

instance {α : Type} [DecidableEq α] : LawfulBEq (Value α) := inferInstance

/-- A dictionary of attributes, in the order in which it is gone through. -/
abbrev Items (α : Type) := AList fun _ : String => Value α

/-- The exceptions that are raised on the way. -/
inductive PyException where
  | keyError
  | valueError
  | typeError
  deriving DecidableEq

/-- A resource as it is dumped, which has a name and an id in any case. -/
structure Resource (α : Type) where
  items : Items α
  hasName : "name" ∈ items
  hasId : "id" ∈ items

namespace Resource

variable {α : Type}

/-- `resource['name']`. -/
def name (resource : Resource α) : Value α :=
  (resource.items.lookup "name").get (AList.lookup_isSome.mpr resource.hasName)

/-- `resource['id']`. -/
def id (resource : Resource α) : Value α :=
  (resource.items.lookup "id").get (AList.lookup_isSome.mpr resource.hasId)

variable [DecidableEq α]

/-- `==` of two dictionaries; `cmp` of them is 0 in the same cases. -/
def same (resource other : Resource α) : Bool :=
  decide (resource.items.entries.Perm other.items.entries)

end Resource

/-! ## What is looked at -/

/-- An entry of `resource_types_to_dump`: the name of an element and of the collection. -/
structure ResourceType where
  element : String
  collection : String
  deriving DecidableEq

/-- `resource_types_to_dump`. -/
def resourceTypesToDump : List ResourceType :=
  [⟨"storagedomain", "storagedomains"⟩, ⟨"host", "hosts"⟩, ⟨"cluster", "clusters"⟩,
    ⟨"data_center", "datacenters"⟩, ⟨"vm", "vms"⟩, ⟨"network", "networks"⟩,
    ⟨"mac_pool", "macpools"⟩, ⟨"template", "templates"⟩, ⟨"disk", "disks"⟩,
    ⟨"vnic_profile", "vnicprofiles"⟩]

/-- `ignored_rsrc_names`. -/
def ignoredRsrcNames (α : Type) : List (Value α) := [.text "OVF_STORE"]

/-- `whitelisted_attr`. -/
def whitelistedAttr : List String :=
  ["used", "available", "actual_size", "committed", "stop_time", "total_size",
    "update_available", "max_scheduling_memory"]

/-- The collections that are dumped. -/
def collections : List String := resourceTypesToDump.map ResourceType.collection

/-! ## Dumping -/

/-- A resource as the API gives it: its members with their data types, and what `getattr`
gives. -/
structure ApiResource (α : Type) where
  memberDataItems : List (String × String)
  getattr : String → Value α

/-- What the API has for each collection, unless it fails. -/
abbrev Engine (α : Type) := String → Option (List (ApiResource α))

/-- The state of an engine, or what is dumped of it. -/
abbrev GeState (α : Type) := String → Option (List (Resource α))

/-- A member that is dumped. -/
def isDumped (member : String × String) : Bool :=
  "xs:".toList.isPrefixOf member.2.toList && member.1 ∉ whitelistedAttr

section

variable {α : Type}

/-- The attributes of a resource that are dumped. -/
def resourceAttributes (resource : ApiResource α) : Items α :=
  ((resource.memberDataItems.filter isDumped).map fun member =>
    (⟨member.1, resource.getattr member.1⟩ : Sigma fun _ : String => Value α)).toAList

/-- The body of `dump_ge_resource`, for one of the resources. -/
def dumpResource (resource : ApiResource α) : Resource α where
  items := ((resourceAttributes resource).insert "name" (resource.getattr "name")).insert "id"
    (resource.getattr "id")
  hasName := by simp
  hasId := by simp

/-- `text % arguments` for a tuple of arguments, which have to be as many as there are
places for them. -/
def interpolate (places : Nat) (arguments : List String) : Except PyException Unit :=
  if arguments.length = places then .ok () else .error .typeError

/-- The entry of `resource_types_to_dump` as a tuple, which is what the message about a
failure is given. -/
def ResourceType.asTuple (resourceType : ResourceType) : List String :=
  [resourceType.element, resourceType.collection, "<lambda>"]

/-- `dump_ge_resource`, and what is done if it fails: a message with one place is made. -/
def dumpOrLog (engine : Engine α) (summary : GeState α) (resourceType : ResourceType) :
    Except PyException (GeState α) :=
  match engine resourceType.collection with
  | some resources =>
    .ok (Function.update summary resourceType.collection (some (resources.map dumpResource)))
  | none => (interpolate 1 resourceType.asTuple).map fun _ => summary

/-- `get_summary_report` of a new `Inventory`. -/
def getSummaryReport (engine : Engine α) : Except PyException (GeState α) :=
  resourceTypesToDump.foldlM (dumpOrLog engine) fun _ => none

end

/-! ## Comparing -/

/-- The text for an attribute that changed, by what it is made of. -/
structure ParamChange (α : Type) where
  oldValue : Value α
  newValue : Value α
  deriving DecidableEq

/-- `values_changed`. -/
abbrev ValuesChanged (α : Type) := AList fun _ : String => ParamChange α

/-- What is reported of the resources of one type. -/
structure TypeDiff (α : Type) where
  changed : List (Value α × ValuesChanged α) := []
  added : List (Value α) := []
  removed : List (Value α) := []

/-- The report by types; a type with nothing to report is left out. -/
abbrev GeDiff (α : Type) := String → Option (TypeDiff α)

section

variable {α : Type} [DecidableEq α]

/-- One attribute of `find_params_changed`. -/
def paramChanged (cur : Resource α) (changed : ValuesChanged α)
    (item : Sigma fun _ : String => Value α) : Except PyException (ValuesChanged α) :=
  match cur.items.lookup item.1 with
  | none => .error .keyError
  | some value =>
    .ok (if item.2 ≠ value then changed.insert item.1 ⟨item.2, value⟩ else changed)

/-- `find_params_changed`. -/
def findParamsChanged (old cur : Resource α) : Except PyException (Value α × ValuesChanged α) :=
  (old.items.entries.foldlM (paramChanged cur) ∅).map fun changed => (old.name, changed)

/-- `resources.remove(resource)`. -/
def remove (resource : Resource α) : List (Resource α) → Except PyException (List (Resource α))
  | [] => .error .valueError
  | first :: rest =>
    if first.same resource then .ok rest else (remove resource rest).map (first :: ·)

/-- The lists of `find_resources_diff` after some of the old resources: the resources that
were not met yet, those that changed, and those that were removed. -/
structure Scan (α : Type) where
  left : List (Resource α)
  changed : List (Value α × ValuesChanged α) := []
  removed : List (Value α) := []

/-- A resource that is in both states. -/
def Scan.met (scan : Scan α) (old cur : Resource α) : Except PyException (Scan α) := do
  let left ← remove cur scan.left
  if cur.same old then
    return { scan with left := left }
  else
    let changed ← findParamsChanged old cur
    return { scan with
      left := left
      changed := if changed.2.keys = [] then scan.changed else scan.changed ++ [changed] }

/-- One of the old resources. -/
def Scan.step (cur : List (Resource α)) (scan : Scan α) (old : Resource α) :
    Except PyException (Scan α) :=
  match cur.find? fun resource => resource.id = old.id with
  | some resource => scan.met old resource
  | none => .ok { scan with removed := scan.removed ++ [old.name] }

/-- `find_resources_diff`. -/
def findResourcesDiff (old cur : List (Resource α)) : Except PyException (TypeDiff α) :=
  (old.foldlM (Scan.step cur) { left := cur }).map fun scan =>
    { changed := scan.changed
      added := (scan.left.map Resource.name).filter fun name => name ∉ ignoredRsrcNames α
      removed := scan.removed }

/-- Whether there is something to report. -/
def TypeDiff.isEmpty (diff : TypeDiff α) : Bool :=
  diff.changed.isEmpty && diff.added.isEmpty && diff.removed.isEmpty

/-- `state[resource_type]`. -/
def GeState.get (state : GeState α) (collection : String) :
    Except PyException (List (Resource α)) :=
  match state collection with
  | none => .error .keyError
  | some resources => .ok resources

/-- One type of `compare_ge_state`. -/
def compareType (old new : GeState α) (diff : GeDiff α) (resourceType : ResourceType) :
    Except PyException (GeDiff α) := do
  let rsrcOldState ← old.get resourceType.collection
  let rsrcCurState ← new.get resourceType.collection
  let found ← findResourcesDiff rsrcOldState rsrcCurState
  return Function.update diff resourceType.collection (if found.isEmpty then none else some found)

/-- `compare_ge_state`. -/
def compareGeState (old new : GeState α) : Except PyException (GeDiff α) :=
  resourceTypesToDump.foldlM (compareType old new) fun _ => none

end

end OvirtArt.Utils.Inventory
