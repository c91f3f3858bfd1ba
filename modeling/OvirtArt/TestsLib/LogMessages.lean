import Mathlib.Data.List.DropRight
import OvirtArt.Foundation.Splitting
import OvirtArt.TestsLib.LogValues

set_option autoImplicit false

/-!
# `art/rhevm_api/tests_lib/low_level/general.py`: the messages of an action

`get_log_msg` puts the values of keyword arguments after the words of the action that name
them, and lists the others.

Keyword arguments have an order, that of the dictionary.  Docstrings that are Unicode are left
out.
-/

namespace OvirtArt.TestsLib.General

open OvirtArt.CoreApi OvirtArt.Foundation

/-! ## Words of a text -/

/-- A character that `split` and `strip` take for a blank. -/
def isBlank (c : Char) : Bool := c ∈ [' ', '\t', '\n', '\r', '\x0b', '\x0c']

/-- `text.split()`. -/
def splitWords (text : Text) : List Text := (text.splitOnP isBlank).filter fun word => word ≠ []

/-- A character that `\b` takes for a part of a word. -/
def isWordChar (c : Char) : Bool := c.isAlphanum || c = '_'

/-- The words of the action, as keywords are looked up among them. -/
def logWords (logAction : Text) : List Text :=
  (splitWords (logAction.map Char.toLower)).map fun word =>
    word.filter fun c => isWordChar c || c = '|'

/-- There is a boundary of a word between what stands before and after a place. -/
def isBoundary (before after : Option Char) : Bool := before.any isWordChar != after.any isWordChar

/-- One alternative of a pattern at the beginning of `text`, with a boundary at its start or
at its end if it is the first or the last one. -/
def matchAlternative (first last : Bool) (previous : Option Char) (alternative text : Text) :
    Option Text :=
  let found := text.take alternative.length
  if found.map Char.toLower = alternative.map Char.toLower ∧
      (first → isBoundary previous text.head?) ∧
        (last → isBoundary (found.getLast?.or previous) (text.drop alternative.length).head?) then
    some found
  else none

/-- The first alternative that matches at the beginning of `text`. -/
def matchAlternatives (previous : Option Char) (text : Text) (first : Bool) :
    List Text → Option Text
  | [] => none
  | [alternative] => matchAlternative first true previous alternative text
  | alternative :: rest =>
    (matchAlternative first false previous alternative text).or
      (matchAlternatives previous text false rest)

/-- The leftmost match in a text. -/
def searchFrom (alternatives : List Text) (previous : Option Char) : Text → Option Text
  | [] => matchAlternatives previous [] true alternatives
  | c :: text =>
    (matchAlternatives previous (c :: text) true alternatives).or
      (searchFrom alternatives (some c) text)

/-- `re.findall(r'\b%s\b' % keyword, text, re.IGNORECASE)`, its first element; a keyword has
letters, digits, `_` and `|` only. -/
def findKeyword (keyword : String) (text : Text) : Option Text :=
  searchFrom (splitAll '|' keyword.toList) none text

/-- The rest of a replacement, after the characters that belong to the last occurrence. -/
def replaceFrom (old new : Text) : Nat → Text → Text
  | _, [] => if old = [] then new else []
  | skip + 1, _ :: text => replaceFrom old new skip text
  | 0, c :: text =>
    if old = [] then new ++ c :: replaceFrom old new 0 text
    else if old.isPrefixOf (c :: text) then new ++ replaceFrom old new (old.length - 1) text
    else c :: replaceFrom old new 0 text

/-- `text.replace(old, new)`. -/
def replaceText (old new text : Text) : Text := replaceFrom old new 0 text

/-- `text.strip()`. -/
def stripText (text : Text) : Text := (text.dropWhile isBlank).rdropWhile isBlank

/-- `text.capitalize()`. -/
def capitalizeText (text : Text) : Text :=
  match text with
  | [] => []
  | c :: text => c.toUpper :: text.map Char.toLower

section

variable {Obj : Type} (objects : Objects Obj)

/-! ## The message -/

/-- The arguments of `get_log_msg` but for the action and the keywords. -/
structure LogParams (Obj : Type) where
  objType : Arg Obj := .prim (.str [])
  objName : Arg Obj := .prim (.str [])
  positive : Arg Obj := .prim (.bool true)
  extraTxt : Arg Obj := .prim (.str [])

/-- A keyword is a word of the action, and its value is not a truth value. -/
def isMentioned (words : List Text) (entry : Sigma fun _ : String => Arg Obj) : Bool :=
  decide (entry.1.toList.map Char.toLower ∈ words) && !isBool entry.2

/-- The value as it is put after its keyword. -/
def mentionedText (value : Arg Obj) : Except Raised Text :=
  match value with
  | .list items =>
    match joinedStrings items with
    | some texts => .ok (", ".toList.intercalate texts)
    | none => formatOf objects (.list items)
  | value => formatOf objects value

/-- A keyword in the loop over the keywords: the action, and the keywords to leave out. -/
def logKeyword (words : List Text) (state : Text × List String)
    (entry : Sigma fun _ : String => Arg Obj) : Except Raised (Text × List String) := do
  let toPop := if entry.1 = "self" then state.2 ++ [entry.1] else state.2
  if isMentioned words entry then
    match findKeyword entry.1 state.1 with
    | none => .error .indexError
    | some key => do
        let value ← mentionedText objects entry.2
        return (replaceText key (key ++ ' ' :: value) state.1, toPop ++ [entry.1])
  else return (state.1, toPop)

/-- `kwargs.pop(k)`. -/
def popKeyword (kwargs : Kwargs Obj) (keyword : String) : Except Raised (Kwargs Obj) :=
  if keyword ∈ kwargs then .ok (kwargs.erase keyword) else .error .keyError

/-- `getattr(i, "name", getattr(i, "id", i))` for each item of a list, and else also the
attribute `fqdn`. -/
def loggedValue (value : Arg Obj) : Except Raised (Arg Obj) :=
  match value with
  | .list items => do
      let items ← items.mapM (nameOrId objects)
      return .list items
  | value => do
      let fqdn ← getattrOr objects value "fqdn" value
      let id ← getattrOr objects value "id" fqdn
      getattrOr objects value "name" id

/-- The keywords that are left, for the end of the message. -/
def withKwargs (kwargs : Kwargs Obj) : Except Raised Text := do
  let kwargsToLog : Kwargs Obj ← (objects.order kwargs.entries).foldlM (fun kwargsToLog entry => do
    let value ← loggedValue objects entry.2
    return kwargsToLog.insert entry.1 value) ∅
  if kwargsToLog.entries.isEmpty then return []
  else do
    let entries := (objects.order kwargsToLog.entries).map fun entry =>
      (Arg.prim (.str entry.1.toList), entry.2)
    let text ← reprOf objects (.dict entries)
    return "with ".toList ++ text

/-- The end of `get_log_msg`: what is logged before the action and what if it fails. -/
def composeLogMsg (params : LogParams Obj) (logAction withKwargs : Text) :
    Except Raised (Text × Text) := do
  let positive ← truth objects params.positive
  let objType ← formatOf objects params.objType
  let objName ← formatOf objects params.objName
  let extraTxt ← formatOf objects params.extraTxt
  let infoText := replaceText "  ".toList [] (stripText (" ".toList.intercalate
    [logAction, objType, objName, withKwargs, extraTxt]))
  let logInfoTxt :=
    if positive then infoText else "Negative: ".toList ++ capitalizeText infoText
  let state := if positive then "Failed to".toList else "Succeeded to".toList
  return (logInfoTxt, state ++ ' ' :: infoText.map Char.toLower)

/-- `get_log_msg`. -/
def getLogMsg (logAction : Text) (params : LogParams Obj) (kwargs : Kwargs Obj) :
    Except Raised (Text × Text) := do
  let kwargs ← prepareKwargsForLog objects kwargs
  let state ←
    (objects.order kwargs.entries).foldlM (logKeyword objects (logWords logAction)) (logAction, [])
  let kwargs ← state.2.foldlM popKeyword kwargs
  let withKwargs ← withKwargs objects kwargs
  composeLogMsg objects params state.1 withKwargs

end

end OvirtArt.TestsLib.General
