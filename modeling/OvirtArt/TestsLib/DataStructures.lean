import Mathlib.Data.List.DropRight
import Mathlib.Data.List.Nodup
import OvirtArt.Foundation.XmlReader

set_option autoImplicit false

/-!
# `rhevm_api/tests_lib/high_level/datastructures.py`: `BaseClass`

Export and build of an object by its table of members.  The class is mixed into classes
that `generateDS.py` generates; what it uses of them (formatting, validation, quoting,
the indentation) is translated from the templates of the generator, and the elements
nested in an object are taken as they are: by the text that their own `export` writes.

The `ExternalEncoding` is the `utf-8` of `conf/defaults.yaml`, so what is written stands
here as it is decoded again, and the only step that encoding can fail at is the one that
makes a `unicode` of a `str`.  The literal export (`exportLiteralChildren`) is left out.
-/

namespace OvirtArt.TestsLib.HighLevel.DataStructures

open Foundation.Xml

/-! ## Names, namespaces and member tables -/

/-- The names of Python. -/
def isIdentifier : Text → Bool
  | [] => false
  | c :: rest => (c.isAlpha || c = '_') && rest.all fun x => x.isAlphanum || x = '_'

/-- The name of a member. -/
structure Name where
  text : Text
  valid : isIdentifier text = true
  deriving DecidableEq

/-- What `namespace_` can be: nothing, or a prefix, which is written with its colon. -/
inductive Namespace where
  | empty
  | named (name : Text) (valid : isNcName name = true)
  deriving DecidableEq

/-- The text in front of a name. -/
def Namespace.text : Namespace → Text
  | .empty => []
  | .named name _ => name ++ [':']

/-- `data_type` of a member. -/
inductive DataType where
  | xsString
  | xsBoolean
  | other (name : Text)
  deriving DecidableEq

/-- `MemberSpec_`. -/
structure MemberSpec where
  dataType : DataType
  container : Bool
  deriving DecidableEq

/-- `data_type in ['xs:string', 'xs:boolean']`. -/
def MemberSpec.isScalar (spec : MemberSpec) : Bool :=
  spec.dataType = .xsString || spec.dataType = .xsBoolean

/-- `member_data_items_`, in the order of its iteration. -/
structure MemberTable where
  rows : List (Name × MemberSpec)
  nodup : (rows.map Prod.fst).Nodup

namespace MemberTable

/-- `member_data_items_[name]`, with the key. -/
def lookup (table : MemberTable) (name : Text) : Option (Name × MemberSpec) :=
  table.rows.find? fun row => row.1.text = name

/-- `member_data_items_[name] = spec` on a copy of the table. -/
def set (table : MemberTable) (name : Name) (spec : MemberSpec) : MemberTable :=
  if h : name ∈ table.rows.map Prod.fst then
    { rows := table.rows.map fun row => if row.1 = name then (name, spec) else row
      nodup := by
        have hkeys : (table.rows.map fun row => if row.1 = name then (name, spec) else row).map
            Prod.fst = table.rows.map Prod.fst := by
          rw [List.map_map]
          refine List.map_congr_left fun row _ => ?_
          simp only [Function.comp_apply]
          split
          case isTrue heq => exact heq.symm
          case isFalse => rfl
        rw [hkeys]
        exact table.nodup }
  else
    { rows := table.rows ++ [(name, spec)]
      nodup := by
        rw [List.map_append]
        refine List.nodup_append.mpr ⟨table.nodup, List.nodup_singleton _, ?_⟩
        intro key hkey added hadded heq
        have hname : key = name := heq.trans (List.mem_singleton.mp hadded)
        exact h (hname ▸ hkey) }

end MemberTable

/-- `MemberSpec_(name, 'xs:string', 0)`. -/
def stringMember : MemberSpec := ⟨.xsString, false⟩

/-- The table of `HostStorage`, from that of the generated class. -/
def hostStorageItems (generated : MemberTable) : MemberTable :=
  (((generated.set ⟨"nfs_timeo".toList, by decide⟩ stringMember).set
    ⟨"nfs_retrans".toList, by decide⟩ stringMember).set
    ⟨"nfs_version".toList, by decide⟩ stringMember).set
    ⟨"type_".toList, by decide⟩ stringMember

/-- The table of `StorageConnection`, from that of the generated class. -/
def storageConnectionItems (generated : MemberTable) : MemberTable :=
  generated.set ⟨"port".toList, by decide⟩ stringMember

/-! ## Values and objects -/

/-- A `str` with a byte that is not ASCII. -/
structure ByteString where
  bytes : List UInt8
  beyond : ∃ byte ∈ bytes, 128 ≤ byte

/-- What a member can hold. -/
inductive Value (Element : Type) where
  | none
  /-- A `unicode`, or a `str` of ASCII characters: these are equal if their characters are. -/
  | str (text : Text)
  | bytes (string : ByteString)
  | bool (b : Bool)
  | element (item : Element)
  | elements (items : List Element)

/-- The values of the members of an object. -/
abbrev Object (Element : Type) := Name → Value Element

/-- The exceptions of export and build. -/
inductive PyError where
  | typeError
  | attributeError
  | unicodeDecodeError
  | keyError (name : Text)
  | gdsParseError (message : Text)
  deriving DecidableEq

/-- What is used of nested elements: the text that `export(outfile, level, namespace_,
name_)` writes, and `repr`. -/
structure ElementClass (Element : Type) where
  exportText : Element → Nat → Text → Text → Text
  repr : Element → Text

variable {Element : Type} (cls : ElementClass Element)

/-- `not value`, negated. -/
def Value.truthy : Value Element → Bool
  | .none => false
  | .str text => !text.isEmpty
  | .bytes _ => true
  | .bool b => b
  | .element _ => true
  | .elements items => !items.isEmpty

/-- `str(value)`, with a character for each byte; a `unicode` stays what it is. -/
def pyStr : Value Element → Text
  | .none => "None".toList
  | .str text => text
  | .bytes string => string.bytes.map fun byte => Char.ofNat byte.toNat
  | .bool true => "True".toList
  | .bool false => "False".toList
  | .element item => cls.repr item
  | .elements items => '[' :: (List.intercalate ", ".toList (items.map cls.repr) ++ [']'])

/-! ## What the generator's templates define -/

/-- `s1.replace(c, new)` for one character. -/
def replaceChar (c : Char) (new s1 : Text) : Text :=
  s1.flatMap fun x => if x = c then new else [x]

/-- `quote_xml`. -/
def quoteXml (inStr : Value Element) : Text :=
  if inStr.truthy then
    replaceChar '>' "&gt;".toList (replaceChar '<' "&lt;".toList
      (replaceChar '&' "&amp;".toList (pyStr cls inStr)))
  else []

/-- `lower()`. -/
def lower (text : Text) : Text := text.map Char.toLower

/-- `gds_format_boolean`. -/
def gdsFormatBoolean (inputData : Text) : Text := lower inputData

/-- `showIndent`. -/
def showIndent (level : Nat) : Text := (List.replicate level "    ".toList).flatten

/-- `gds_validate_string`, of the text of a node, which is `None` where it is empty. -/
def gdsValidateString : Option Text → Text
  | none => []
  | some text => text

/-! ## Export -/

/-- `encode(ExternalEncoding)` of what was quoted: a `str` is decoded first, as ASCII. -/
def encode (value : Value Element) (quoted : Text) : Except PyError Text :=
  match value with
  | .bytes _ => .error .unicodeDecodeError
  | _ => .ok quoted

/-- `_format_string`. -/
def formatString (value : Value Element) : Except PyError Text :=
  encode value (quoteXml cls value)

/-- `_format_boolean`. -/
def formatBoolean (value : Value Element) : Except PyError Text :=
  .ok (gdsFormatBoolean (lower (pyStr cls value)))

/-- `_write_one_member`. -/
def writeOneMember (spec : MemberSpec) (value : Value Element) (level : Nat)
    (namespace_ entityName : Text) : Except PyError Text :=
  let formatFunction :=
    if spec.dataType = .xsBoolean then formatBoolean cls else formatString cls
  match value with
  | .none => .ok []
  | value => do
    let formatted ← formatFunction value
    return showIndent level ++
      (('<' :: (namespace_ ++ entityName) ++ ['>']) ++
        (formatted ++ ('<' :: '/' :: (entityName ++ namespace_) ++ ['>']))) ++
      ['\n']

/-- `for item in value: item.export(..)`. -/
def exportItems (value : Value Element) (level : Nat) (namespace_ name : Text) :
    Except PyError Text :=
  match value with
  | .elements items => .ok (items.flatMap fun item => cls.exportText item level namespace_ name)
  | .str [] => .ok []
  | .str (_ :: _) => .error .attributeError
  | .bytes _ => .error .attributeError
  | _ => .error .typeError

/-- `if value is not None: value.export(..)`. -/
def exportItem (value : Value Element) (level : Nat) (namespace_ name : Text) :
    Except PyError Text :=
  match value with
  | .none => .ok []
  | .element item => .ok (cls.exportText item level namespace_ name)
  | _ => .error .attributeError

/-- The body of the loop in `exportChildren`. -/
def exportMember (level : Nat) (namespace_ : Text) (name : Name) (spec : MemberSpec)
    (value : Value Element) : Except PyError Text :=
  if spec.isScalar then
    writeOneMember cls spec value level namespace_ (name.text.rdropWhile (· = '_'))
  else if spec.container then exportItems cls value level namespace_ name.text
  else exportItem cls value level namespace_ name.text

/-- The loop in `exportChildren`. -/
def exportRows (level : Nat) (namespace_ : Text) (obj : Object Element) :
    List (Name × MemberSpec) → Except PyError Text
  | [] => .ok []
  | row :: rest => do
      let first ← exportMember cls level namespace_ row.1 row.2 (obj row.1)
      let others ← exportRows level namespace_ obj rest
      return first ++ others

/-- `exportChildren`: what it writes to `outfile`. -/
def exportChildren (table : MemberTable) (obj : Object Element) (level : Nat)
    (namespace_ : Namespace) : Except PyError Text :=
  exportRows cls level namespace_.text obj table.rows

/-! ## Build -/

/-- `__setattr__`. -/
def setattr (obj : Object Element) (name : Name) (value : Value Element) : Object Element :=
  fun member => if member = name then value else obj member

/-- `child.text`. -/
def textOf (child : Node) : Option Text := if child.text = [] then none else some child.text

/-- `_build_child`, for a member of one of the two scalar types. -/
def buildChild (obj : Object Element) (child : Node) (name : Name) (spec : MemberSpec) :
    Except PyError (Object Element) :=
  if spec.dataType = .xsString then
    .ok (setattr obj name (.str (gdsValidateString (textOf child))))
  else if textOf child = some "true".toList ∨ textOf child = some "1".toList then
    .ok (setattr obj name (.bool true))
  else if textOf child = some "false".toList ∨ textOf child = some "0".toList then
    .ok (setattr obj name (.bool false))
  else .error (.gdsParseError "requires boolean".toList)

/-- `_build_collection`: `data_structures.__dict__(name)` calls a dictionary. -/
def buildCollection (_obj : Object Element) (_child : Node) (_name : Name) :
    Except PyError (Object Element) := .error .typeError

/-- `_build_object`: `data_structures.__dict__(name)` calls a dictionary. -/
def buildObject (_obj : Object Element) (_child : Node) (_name : Name) :
    Except PyError (Object Element) := .error .typeError

local instance lawfulBEqText : LawfulBEq Text := inferInstance

/-- The member name that `buildChildren` makes of the name of a node. -/
def memberName (nodeName : Text) : Text :=
  if nodeName ∈ ["type".toList, "float".toList, "build".toList] then nodeName ++ "_".toList
  else nodeName

/-- `buildChildren`. -/
def buildChildren (table : MemberTable) (obj : Object Element) (child : Node)
    (nodeName : Text) : Except PyError (Object Element) :=
  match table.lookup (memberName nodeName) with
  | none => .error (.keyError (memberName nodeName))
  | some (name, spec) =>
    if spec.isScalar then buildChild obj child name spec
    else if spec.container then buildCollection obj child name
    else buildObject obj child name

/-- The loop of the generated `build` over the child nodes, with the name of each node
without its namespace. -/
def build (table : MemberTable) : List Node → Object Element → Except PyError (Object Element)
  | [], obj => .ok obj
  | child :: rest, obj => do
      let next ← buildChildren table obj child (localPart child.tag)
      build table rest next

/-- A new object: no value, and an empty list for a collection. -/
def fresh (table : MemberTable) : Object Element := fun name =>
  match table.lookup name.text with
  | some (_, spec) => if spec.container then .elements [] else .none
  | none => .none

end OvirtArt.TestsLib.HighLevel.DataStructures
