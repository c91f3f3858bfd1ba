import OvirtArt.CoreApi.PyValue

set_option autoImplicit false

/-!
# Strings

The operations on strings that the clients of the API and the logs use, as Python has them.

A string is a list of characters.  The definitions stand under the names that the library of the
language has for them, and their laws are in the modules on lines, replacement and search.
-/

namespace OvirtArt.CoreApi

namespace Text

/-- The position of the first occurrence of `part`. -/
def index? (part : Text) : Text → Option Nat
  | [] => if part.isEmpty then some 0 else none
  | c :: rest =>
    if part.isPrefixOf (c :: rest) then some 0 else (index? part rest).map (· + 1)

/-- `text.find(part)`. -/
def find (text part : Text) : Int :=
  match index? part text with
  | some position => position
  | none => -1

/-- The place in the text that an index of a slice stands for. -/
def place (text : Text) (index : Int) : Nat :=
  if index < 0 then (text.length + index).toNat else min index.toNat text.length

/-- `text[start:stop]`. -/
def slice (text : Text) (start stop : Int) : Text :=
  (text.take (place text stop)).drop (place text start)

/-- `text[start:]`. -/
def sliceFrom (text : Text) (start : Int) : Text := text.drop (place text start)

/-- `separator.join(texts)`. -/
def join (separator : Text) : List Text → Text
  | [] => []
  | [text] => text
  | text :: rest => text ++ separator ++ join separator rest

/-- `text.replace(old, new)`, after `skip` more characters of an occurrence. -/
def replaceFrom (old new : Text) : Nat → Text → Text
  | _, [] => []
  | skip + 1, _ :: rest => replaceFrom old new skip rest
  | 0, c :: rest =>
    if old.isPrefixOf (c :: rest) then new ++ replaceFrom old new (old.length - 1) rest
    else c :: replaceFrom old new 0 rest

/-- `text.replace(old, new)`. -/
def replace (text old new : Text) : Text := replaceFrom old new 0 text

/-- A character that `\s` matches. -/
def isSpace (c : Char) : Bool := c ∈ [' ', '\t', '\n', '\r', '\x0b', '\x0c']

/-- `text.strip()`. -/
def strip (text : Text) : Text :=
  ((text.dropWhile isSpace).reverse.dropWhile isSpace).reverse

/-- `text.upper()`. -/
def upper (text : Text) : Text := text.map Char.toUpper

/-- `text.lower()`. -/
def lower (text : Text) : Text := text.map Char.toLower

/-- `text.split()`. -/
def words (text : Text) : List Text := (text.splitOnP isSpace).filter fun word => !word.isEmpty

/-- `text.splitlines()`, with what was read of the line before. -/
def splitlinesFrom : Text → Text → List Text
  | line, [] => if line.isEmpty then [] else [line]
  | line, '\r' :: '\n' :: rest => line :: splitlinesFrom [] rest
  | line, c :: rest =>
    if c = '\n' ∨ c = '\r' then line :: splitlinesFrom [] rest
    else splitlinesFrom (line ++ [c]) rest

/-- `text.splitlines()`. -/
def splitlines (text : Text) : List Text := splitlinesFrom [] text

/-- The number with at least this many characters, filled up in front. -/
def ofNat (fill : Char) (width number : Nat) : Text :=
  (toString number).toList.leftpad width fill

/-- What `'{0}'.format` makes of a text that may be `None`. -/
def formatted : Option Text → Text
  | none => "None".toList
  | some text => text

/-- A text that may be `None` is neither that nor empty. -/
def truthy : Option Text → Bool
  | none => false
  | some text => !text.isEmpty

end Text

end OvirtArt.CoreApi
