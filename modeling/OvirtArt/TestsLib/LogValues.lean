import Mathlib.Data.List.AList
import OvirtArt.CoreApi.PyValue

set_option autoImplicit false

/-!
# `art/rhevm_api/tests_lib/low_level/general.py`: the values of arguments in logs

The arguments of a decorated function, and how `prepare_kwargs_for_log` puts names in the
place of objects.  What an object does when an attribute of it is read, or when it is
printed, is given by `Objects`.

Arguments are nested lists and dictionaries of objects and texts.  Tuples, and arguments that
contain themselves, are left out.
-/

namespace OvirtArt.TestsLib.General

open OvirtArt.CoreApi

/-- The exceptions that are raised; `other` stands for those that objects and decorated
functions raise. -/
inductive Raised where
  | typeError
  | attributeError
  | indexError
  | keyError
  | unicodeEncodeError
  | other (name : String)
  deriving DecidableEq

/-- An argument; tuples and all other objects are opaque. -/
inductive Arg (Obj : Type) where
  | none
  | prim (value : Prim)
  | list (items : List (Arg Obj))
  | dict (entries : List (Arg Obj × Arg Obj))
  | obj (o : Obj)

/-- A dictionary of keyword arguments. -/
abbrev Kwargs (Obj : Type) := AList fun _ : String => Arg Obj

/-- What objects do, and in which order a dictionary is gone through. -/
structure Objects (Obj : Type) where
  getattr : Obj → String → Except Raised (Option (Arg Obj))
  format : Obj → Except Raised Text
  repr : Obj → Except Raised Text
  truth : Obj → Except Raised Bool
  printer : Printer
  order : ∀ {β : Type}, List β → List β
  order_perm : ∀ {β : Type} (entries : List β), (order entries).Perm entries

section

variable {Obj : Type} (objects : Objects Obj)

/-! ## Names in the place of objects -/

/-- `getattr(value, name, default)`. -/
def getattrOr (value : Arg Obj) (name : String) (default : Arg Obj) :
    Except Raised (Arg Obj) :=
  match value with
  | .obj o => do
      let found ← objects.getattr o name
      return found.getD default
  | _ => .ok default

/-- `getattr(value, "name", getattr(value, "id", value))`. -/
def nameOrId (value : Arg Obj) : Except Raised (Arg Obj) := do
  let id ← getattrOr objects value "id" value
  getattrOr objects value "name" id

mutual

/-- `convert_list`. -/
def convertList : List (Arg Obj) → Except Raised (List (Arg Obj))
  | [] => .ok []
  | item :: rest => do
      let item ← convertItem item
      let rest ← convertList rest
      return item :: rest

/-- What stands in a converted list for an item. -/
def convertItem : Arg Obj → Except Raised (Arg Obj)
  | .dict entries => do
      let entries ← convertDict entries
      return .dict (objects.order entries)
  | item => nameOrId objects item

/-- `convert_dict`. -/
def convertDict : List (Arg Obj × Arg Obj) → Except Raised (List (Arg Obj × Arg Obj))
  | [] => .ok []
  | (_, .none) :: rest => convertDict rest
  | (key, .list items) :: rest => do
      let items ← convertList items
      let rest ← convertDict rest
      return (key, .list items) :: rest
  | (key, value) :: rest => do
      let value ← nameOrId objects value
      let rest ← convertDict rest
      return (key, value) :: rest

end

/-- What `prepare_kwargs_for_log` puts in the place of a value, if it is kept. -/
def prepareValue : Arg Obj → Except Raised (Option (Arg Obj))
  | .none => .ok none
  | .list items => do
      let items ← convertList objects items
      return some (.list items)
  | .dict entries => do
      let entries ← convertDict objects entries
      return some (.dict (objects.order entries))
  | value => do
      let value ← nameOrId objects value
      return some value

/-- `prepare_kwargs_for_log`. -/
def prepareKwargsForLog (kwargs : Kwargs Obj) : Except Raised (Kwargs Obj) :=
  (objects.order kwargs.entries).foldlM (fun newKwargs entry => do
    match ← prepareValue objects entry.2 with
    | none => return newKwargs
    | some value => return newKwargs.insert entry.1 value) ∅

/-! ## Texts of values -/

mutual

/-- `repr(value)`. -/
def reprOf : Arg Obj → Except Raised Text
  | .none => .ok "None".toList
  | .prim value => .ok (value.repr objects.printer)
  | .list items => do
      let items ← reprItems items
      return '[' :: ", ".toList.intercalate items ++ [']']
  | .dict entries => do
      let entries ← reprEntries entries
      return '\x7b' :: ", ".toList.intercalate entries ++ ['\x7d']
  | .obj o => objects.repr o

/-- The items of a list, each printed by `repr`. -/
def reprItems : List (Arg Obj) → Except Raised (List Text)
  | [] => .ok []
  | item :: rest => do
      let item ← reprOf item
      let rest ← reprItems rest
      return item :: rest

/-- The entries of a dictionary, each printed by `repr`. -/
def reprEntries : List (Arg Obj × Arg Obj) → Except Raised (List Text)
  | [] => .ok []
  | (key, value) :: rest => do
      let key ← reprOf key
      let value ← reprOf value
      let rest ← reprEntries rest
      return (key ++ ": ".toList ++ value) :: rest

end

/-- What `format` puts in the place of a field. -/
def formatOf : Arg Obj → Except Raised Text
  | .prim value =>
    match value.pyStr objects.printer with
    | .ok text => .ok text
    | .error _ => .error .unicodeEncodeError
  | .obj o => objects.format o
  | value => reprOf objects value

/-- The text of a list of nothing but strings. -/
def joinedStrings : List (Arg Obj) → Option (List Text)
  | [] => some []
  | .prim (.str text) :: rest => (joinedStrings rest).map fun texts => text :: texts
  | _ :: _ => none

/-- The truth of a value. -/
def truth : Arg Obj → Except Raised Bool
  | .none => .ok false
  | .prim value => .ok (!value.falsy)
  | .list items => .ok (!items.isEmpty)
  | .dict entries => .ok (!entries.isEmpty)
  | .obj o => objects.truth o

/-- `isinstance(value, bool)`. -/
def isBool : Arg Obj → Bool
  | .prim (.bool _) => true
  | _ => false

end

end OvirtArt.TestsLib.General
