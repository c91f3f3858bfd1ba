import OvirtArt.CoreApi.PyValue
import OvirtArt.Foundation.KeySort

set_option autoImplicit false

/-!
# `core_api/validator.py`: `compareElements`

The comparison of an expected with an actual element.  The classes are those of
the generated data structures module; a class is given by what the comparison
asks it for.  The expected and the actual value are data structure elements, not
`JavaTranslator` objects.

The recursion goes down the two trees together, and ends as their depth does.  What is logged of a
difference is left out, and so is the order of objects by their addresses.
-/

namespace OvirtArt.CoreApi

open OvirtArt.Foundation

/-! ## Data structure classes -/

/-- `MemberSpec_`; a single type is a chain of one. -/
structure MemberSpec where
  dataType : List String
  container : Bool
  deriving DecidableEq, Repr

namespace MemberSpec

/-- `get_data_type`. -/
def getDataType (spec : MemberSpec) : String := spec.dataType.getLast?.getD "xs:string"

/-- `attrType.startswith('xs:')`. -/
def isXs (spec : MemberSpec) : Bool := "xs:".toList.isPrefixOf spec.getDataType.toList

/-- `re.search('boolean', attrType)`. -/
def isBoolean (spec : MemberSpec) : Bool :=
  spec.getDataType.toList.tails.any "boolean".toList.isPrefixOf

end MemberSpec

/-- A generated class: its `member_data_items_` and its `superclass`. -/
inductive DsClass where
  | mk (members : List (String × MemberSpec)) (superclass : Option DsClass)

/-- The module of the data structures: its classes by their names. -/
abbrev DsModule := String → Option DsClass

/-- `d.update(other)`; the order of a `dict` is arbitrary. -/
def dictUpdate (d other : List (String × MemberSpec)) : List (String × MemberSpec) :=
  d.filter (fun item => ! other.any fun found => found.1 = item.1) ++ other

/-- `getObjAttributes`: the items of the class and of its superclasses, merged. -/
def getObjAttributes : DsClass → List (String × MemberSpec)
  | .mk members none => members
  | .mk members (some superclass) => dictUpdate members (getObjAttributes superclass)

/-! ## Tables -/

/-- `NameTable`. -/
def nameTable : List (String × String) :=
  [("import", "import___"), ("from", "from___")]

/-- The names that `compareElements` never looks at, with `ATTR_IGNORE_LIST`. -/
def ignoreList : List String :=
  ["status", "role", "active", "total", "required", "permit", "root_password", "namespace",
    "href", "link", "rel", "build_"]

/-- `VALS_IGNORE_DICT`. -/
def valsIgnoreDict : List (String × List Value) :=
  [("usage", [.prim (.str "vm".toList)])]

/-- `DS_CLASS_MAPPER`. -/
def dsClassMapper : List (String × String) :=
  [("clusternetwork", "Network"), ("vmcdrom", "Cdrom"), ("rolepermits", "Permits"),
    ("hostnicstatistics", "Statistics"), ("diskstatistics", "Statistics"),
    ("datacenternetworkvnicprofile", "VnicProfile"), ("jobstep", "Step"),
    ("hostniclabels", "Labels"), ("datacenternetwork", "Network"),
    ("vmpermissions", "Permissions"), ("templatepermissions", "Permissions")]

/-- `SORT_ATTRS`. -/
def sortAttrs : List String := ["name", "id", "index"]

/-- `getClassName`. -/
def getClassName (elmClass : String) : String :=
  (dsClassMapper.lookup elmClass.toLower).getD elmClass

/-- The name of an attribute before it was changed for Python. -/
def originalName (attr : String) : String :=
  ((nameTable.find? fun entry => entry.2 = attr).map Prod.fst).getD attr

/-! ## Attribute values -/

/-- `val.encode('UTF-8', 'replace')`. -/
def encodeUtf8 (text : Text) : Text :=
  text.flatMap fun c => (String.utf8EncodeChar c).map fun byte => Char.ofNat byte.toNat

/-- The name of the getter of an attribute, without `get_`. -/
def getterName (attrName : String) : String :=
  if "type".toList.isPrefixOf attrName.toList then
    String.ofList (attrName.toList.reverse.dropWhile (· = '_')).reverse
  else attrName

/-- `getAttibuteValue`; `none` is `AttributeError`. -/
def getAttibuteValue (elm : Value) (attrName : String) : Option Value :=
  (elm.getattr (getterName attrName)).map fun value =>
    match value with
    | .prim (.unicode text) => .prim (.str (encodeUtf8 text))
    | value => value

/-! ## Sorting lists of elements -/

/-- What an element is sorted by. -/
def sortKey (attr : String) (elm : Value) : Value.Key := ((elm.getattr attr).getD .none).key

/-- `sort_elements_by_attr`, as the actual and the expected elements sorted. -/
def sortElementsByAttr (actElms expElms : List Value) (attr : String) :
    Except PyError (List Value × List Value) :=
  if ∀ elm ∈ actElms ++ expElms, (elm.getattr attr).isSome then
    .ok (sortOn (sortKey attr) actElms, sortOn (sortKey attr) expElms)
  else .error .attributeError

/-- The elements with a key among those of the other list come first. -/
def sortByExistence (attr : String) (elms others : List Value) : List Value :=
  sortOn (fun elm => if sortKey attr elm ∈ others.map (sortKey attr) then (-1 : Int) else 1) elms

/-- `sort_elements_by_existence`. -/
def sortElementsByExistence (actElms expElms : List Value) (attr : String) :
    List Value × List Value :=
  if actElms.length = expElms.length then (actElms, expElms)
  else if expElms.length < actElms.length then
    (sortByExistence attr actElms expElms, expElms)
  else (actElms, sortByExistence attr expElms actElms)

/-- The attribute by which `sort_elements` sorts: the first one that is set in
the first element of both lists. -/
def sortAttr (actElms expElms : List Value) : Option String :=
  sortAttrs.find? fun attr =>
    ((actElms.head?.bind (·.getattr attr)).any Value.isSet) &&
      ((expElms.head?.bind (·.getattr attr)).any Value.isSet)

/-- `sort_elements`. -/
def sortElements (actElms expElms : List Value) : Except PyError (List Value × List Value) :=
  match sortAttr actElms expElms with
  | none => .ok (actElms, expElms)
  | some attr => do
      let (actElms, expElms) ← sortElementsByAttr actElms expElms attr
      pure (sortElementsByExistence actElms expElms attr)

/-! ## Primitives -/

/-- `set(items)`: of values that are equal the first one. -/
def toSet : List Value → List Value
  | [] => []
  | item :: rest => item :: (toSet rest).filter fun other => other.key ≠ item.key

/-- The items of the actual list that count: of some attributes, those that are
not expected may be ignored. -/
def withoutIgnored (attr : String) (expVal actVal : List Value) : List Value :=
  match valsIgnoreDict.lookup attr with
  | none => actVal
  | some ignored =>
    let ignoreVals := actVal.filter fun x =>
      x.key ∉ expVal.map Value.key ∧ x.key ∈ ignored.map Value.key
    sortOn Value.key
      ((toSet actVal).filter fun x => x.key ∉ ignoreVals.map Value.key)

/-- The values as they are compared: lists sorted, and of an expected list its
first item where the actual value is not a list. -/
def comparedValues (attr : String) (spec : MemberSpec) (expVal actVal : Value) :
    Except PyError (Value × Value) :=
  match expVal, actVal with
  | .list expItems, .list actItems =>
    if spec.container then
      let expItems := sortOn Value.key expItems
      .ok (.list expItems,
        .list (withoutIgnored attr expItems (sortOn Value.key actItems)))
    else .ok (expVal, actVal)
  | .list expItems, _ =>
    if spec.container then
      match expItems with
      | [] => .error .indexError
      | first :: _ => .ok (first, actVal)
    else .ok (expVal, actVal)
  | _, _ => .ok (expVal, actVal)

/-- The texts that are compared: booleans in lower case. -/
def comparedTexts (printer : Printer) (attr : String) (spec : MemberSpec)
    (expVal actVal : Value) : Except PyError (Text × Text) := do
  let (expVal, actVal) ← comparedValues attr spec expVal actVal
  let expText ← expVal.pyStr printer
  let actText ← actVal.pyStr printer
  if spec.isBoolean || actVal.isBool then
    pure (expText.map Char.toLower, actText.map Char.toLower)
  else pure (expText, actText)

/-! ## Elements -/

/-- A recursive call of `compareElements`, with what `equal` is so far. -/
abbrev Recursion := Value → Value → Bool → Except PyError Bool

/-- The loop over the expected elements of a list. -/
def compareLists (recursion : Recursion) :
    List Value → List Value → Bool → Except PyError Bool
  | [], _, equal => .ok equal
  -- the index is beyond the actual list
  | _ :: expElms, [], equal => compareLists recursion expElms [] equal
  | expElm :: expElms, actElm :: actElms, equal => do
      let same ← recursion expElm actElm equal
      compareLists recursion expElms actElms (if same then equal else false)

/-- The values of an attribute that is set in both elements. -/
def compareValues (printer : Printer) (recursion : Recursion) (attr : String)
    (spec : MemberSpec) (expVal actVal : Value) (equal : Bool) : Except PyError Bool :=
  if spec.isXs || actVal.isPrimitive then do
    let (expText, actText) ← comparedTexts printer attr spec expVal actVal
    pure (if expText = actText then equal else false)
  else
    match expVal, actVal with
    | .list (firstExp :: restExp), .list (firstAct :: restAct) => do
        let (actElms, expElms) ← sortElements (firstAct :: restAct) (firstExp :: restExp)
        compareLists recursion expElms actElms equal
    | _, _ => do
        let same ← recursion expVal actVal equal
        pure (if same then equal else false)

/-- The body of the loop over the attributes. -/
def compareAttribute (printer : Printer) (recursion : Recursion) (ignore : List String)
    (expElm actElm : Value) (equal : Bool) (item : String × MemberSpec) :
    Except PyError Bool :=
  let (attr, spec) := item
  if attr ∈ ignoreList ++ ignore then .ok equal
  else
    match getAttibuteValue expElm (originalName attr),
        getAttibuteValue actElm (originalName attr) with
    | some expVal, some actVal =>
      if expVal.isSet && actVal.isSet then
        compareValues printer recursion attr spec expVal actVal equal
      else .ok equal
    -- `AttributeError`: a collection is skipped
    | _, _ => .ok (if actElm.className.toList.getLast? = some 's' then equal else false)

/-- `compareElements`, with the number of nested calls that Python allows. -/
def compareElements (printer : Printer) (ds : DsModule) :
    Nat → List String → Recursion
  | 0, _, _, _, _ => .error .maximumRecursionDepth
  | limit + 1, ignore, expElm, actElm, equal =>
    if actElm.falsy then .ok true
    else
      match ds (getClassName expElm.className) with
      | none => .error .attributeError
      | some elmClass =>
        (getObjAttributes elmClass).foldlM
          (compareAttribute printer (compareElements printer ds limit []) ignore expElm
            actElm) equal

end OvirtArt.CoreApi
