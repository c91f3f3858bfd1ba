import Mathlib.Data.Char
import Mathlib.Data.List.Lex
import Mathlib.Data.Prod.Lex
import Mathlib.Algebra.Order.Ring.Rat

set_option autoImplicit false

/-!
# The values that the validator compares

Elements of the data structures, lists of them, and the primitives of Python 2
that stand in them: their truth, their order, and what `str` prints.

A float is a rational number, and what is printed for it is a parameter, as is the text of an
object without `__str__`.  Everything else is computed.
-/

namespace OvirtArt.CoreApi

/-- A string; of a `str` each character stands for a byte. -/
abbrev Text := List Char

/-- The comparison of texts is lawful: the one instance that all modules find. -/
instance lawfulBEqText : LawfulBEq Text := inferInstance

/-- A primitive; `int` and `long` are one type. -/
inductive Prim where
  | int (value : Int)
  | bool (value : Bool)
  | float (value : ℚ)
  | str (text : Text)
  | unicode (text : Text)
  deriving DecidableEq

/-- A value: an attribute of an element, or an element itself, with the name of
its class and its attributes under the names that their getters have. -/
inductive Value where
  | none
  | prim (value : Prim)
  | list (items : List Value)
  | elem (className : String) (attrs : List (String × Value))

/-- The exceptions that `compareElements` can run into. -/
inductive PyError where
  | attributeError
  | indexError
  | unicodeEncodeError
  | maximumRecursionDepth
  deriving DecidableEq, Repr

/-- What `str` and `repr` make of the values whose text Python computes by means
that are not modelled: floats, and objects without `__str__`. -/
structure Printer where
  floatStr : ℚ → Text
  floatRepr : ℚ → Text
  objectStr : Value → Text

/-! ## `repr` and `str` -/

/-- A number in lower case hexadecimal digits, at least `width` of them. -/
def hexDigits (width n : Nat) : Text :=
  let digits := Nat.toDigits 16 n
  List.replicate (width - digits.length) '0' ++ digits

/-- The character as it stands in a literal with these quotes. -/
def escape (quote c : Char) : Text :=
  if c = quote ∨ c = '\\' then ['\\', c]
  else if c = '\t' then "\\t".toList
  else if c = '\n' then "\\n".toList
  else if c = '\r' then "\\r".toList
  else if 32 ≤ c.toNat ∧ c.toNat < 127 then [c]
  else if c.toNat < 256 then "\\x".toList ++ hexDigits 2 c.toNat
  else if c.toNat < 65536 then "\\u".toList ++ hexDigits 4 c.toNat
  else "\\U".toList ++ hexDigits 8 c.toNat

/-- The literal of a string. -/
def quoted (text : Text) : Text :=
  let quote := if '\'' ∈ text ∧ '"' ∉ text then '"' else '\''
  quote :: text.flatMap (escape quote) ++ [quote]

namespace Prim

/-- `repr` of a primitive. -/
def repr (printer : Printer) : Prim → Text
  | int value => (toString value).toList
  | bool value => if value then "True".toList else "False".toList
  | float value => printer.floatRepr value
  | str text => quoted text
  | unicode text => 'u' :: quoted text

/-- `str` of a primitive. -/
def pyStr (printer : Printer) : Prim → Except PyError Text
  | float value => .ok (printer.floatStr value)
  | str text => .ok text
  | unicode text =>
    if text.all fun c => c.toNat < 128 then .ok text else .error .unicodeEncodeError
  | value => .ok (value.repr printer)

/-- The primitive is false. -/
def falsy : Prim → Bool
  | int value => value == 0
  | bool value => !value
  | float value => value == 0
  | str text => text.isEmpty
  | unicode text => text.isEmpty

end Prim

namespace Value

mutual

/-- `repr` of a value. -/
def repr (printer : Printer) : Value → Text
  | none => "None".toList
  | prim value => value.repr printer
  | list items => '[' :: reprItems printer items ++ [']']
  | elem className attrs => printer.objectStr (elem className attrs)

/-- The items of a list, with commas between them. -/
def reprItems (printer : Printer) : List Value → Text
  | [] => []
  | [item] => item.repr printer
  | item :: rest => item.repr printer ++ ", ".toList ++ reprItems printer rest

end

/-- `str` of a value. -/
def pyStr (printer : Printer) : Value → Except PyError Text
  | prim value => value.pyStr printer
  | value => .ok (value.repr printer)

/-- `not value`. -/
def falsy : Value → Bool
  | none => true
  | prim value => value.falsy
  | list items => items.isEmpty
  | elem _ _ => false

/-- `value is not None`. -/
def isSet : Value → Bool
  | none => false
  | _ => true

/-- `is_primitive`. -/
def isPrimitive : Value → Bool
  | prim _ => true
  | _ => false

/-- `isinstance(value, bool)`. -/
def isBool : Value → Bool
  | prim (.bool _) => true
  | _ => false

/-- `value.__class__.__name__`. -/
def className : Value → String
  | none => "NoneType"
  | prim (.int _) => "int"
  | prim (.bool _) => "bool"
  | prim (.float _) => "float"
  | prim (.str _) => "str"
  | prim (.unicode _) => "unicode"
  | list _ => "list"
  | elem name _ => name

/-- `getattr(value, name)`, for the attributes of an element. -/
def getattr (value : Value) (name : String) : Option Value :=
  match value with
  | elem _ attrs => attrs.lookup name
  | _ => Option.none

/-! ## Order and equality -/

/-- What Python 2 compares: `None` first, then numbers by their value, then
objects, lists and strings.  Objects and lists are not told apart here. -/
abbrev Key := Nat ×ₗ ℚ ×ₗ Text

/-- What the value is compared by. -/
def key : Value → Key
  | none => toLex (0, toLex (0, []))
  | prim (.int value) => toLex (1, toLex (value, []))
  | prim (.bool value) => toLex (1, toLex (if value then 1 else 0, []))
  | prim (.float value) => toLex (1, toLex (value, []))
  | elem _ _ => toLex (2, toLex (0, []))
  | list _ => toLex (3, toLex (0, []))
  | prim (.str text) => toLex (4, toLex (0, text))
  | prim (.unicode text) => toLex (4, toLex (0, text))

/-! ## Depth -/

mutual

/-- How deep elements and lists are nested in a value. -/
def depth : Value → Nat
  | none => 0
  | prim _ => 0
  | list items => depthItems items + 1
  | elem _ attrs => depthAttrs attrs + 1

/-- The greatest depth in a list. -/
def depthItems : List Value → Nat
  | [] => 0
  | item :: rest => max item.depth (depthItems rest)

/-- The greatest depth among attributes. -/
def depthAttrs : List (String × Value) → Nat
  | [] => 0
  | (_, value) :: rest => max value.depth (depthAttrs rest)

end

theorem depth_le_depthItems {item : Value} {items : List Value} (h : item ∈ items) :
    item.depth ≤ depthItems items := by
  induction items with
  | nil => simp at h
  | cons first rest ih =>
    rcases List.mem_cons.mp h with rfl | hrest
    · exact Nat.le_max_left _ _
    · exact Nat.le_trans (ih hrest) (Nat.le_max_right _ _)

theorem depth_lt_of_mem {item : Value} {items : List Value} (h : item ∈ items) :
    item.depth < (list items).depth := by
  exact Nat.lt_succ_of_le (depth_le_depthItems h)

theorem depth_lt_of_getattr {value found : Value} {name : String}
    (h : value.getattr name = some found) : found.depth < value.depth := by
  cases value with
  | elem className attrs =>
    refine Nat.lt_succ_of_le ?_
    simp only [getattr] at h
    induction attrs with
    | nil => simp at h
    | cons first rest ih =>
      obtain ⟨firstName, firstValue⟩ := first
      rw [List.lookup_cons] at h
      split at h
      · obtain rfl := Option.some.inj h
        exact Nat.le_max_left _ _
      · exact Nat.le_trans (ih h) (Nat.le_max_right _ _)
  | none | prim _ | list _ => simp [getattr] at h

end Value

end OvirtArt.CoreApi
