import Mathlib.Data.List.Basic

set_option autoImplicit false

/-!
# Reading XML content

A reader of the content of an XML element.  It refuses a text with a character that is
none of XML, makes a line feed of each line end, and then goes through the text character
by character with a stack of open elements: tags with qualified names, character data
with the five predefined references, attributes (which are skipped).

Comments, sections, instructions and references to characters by number are left out: a
text with one of them is not read.  A name may have any prefix, since no declaration of
namespaces is looked at.

The second half says what the reader makes of an element that is written as a start tag,
escaped text and an end tag, and what the line ends of that text become.
-/

namespace OvirtArt.Foundation.Xml

/-- A text, decoded. -/
abbrev Text := List Char

/-! ## Names -/

/-- The characters with which a name without a colon starts. -/
def startRanges : List (Nat × Nat) :=
  [(0x41, 0x5A), (0x5F, 0x5F), (0x61, 0x7A), (0xC0, 0xD6), (0xD8, 0xF6), (0xF8, 0x2FF),
    (0x370, 0x37D), (0x37F, 0x1FFF), (0x200C, 0x200D), (0x2070, 0x218F), (0x2C00, 0x2FEF),
    (0x3001, 0xD7FF), (0xF900, 0xFDCF), (0xFDF0, 0xFFFD), (0x10000, 0xEFFFF)]

/-- The other characters of a name. -/
def innerRanges : List (Nat × Nat) :=
  [(0x2D, 0x2E), (0x30, 0x39), (0xB7, 0xB7), (0x300, 0x36F), (0x203F, 0x2040)]

/-- The character is in one of the ranges. -/
def inRanges (ranges : List (Nat × Nat)) (c : Char) : Bool :=
  ranges.any fun range => decide (range.1 ≤ c.toNat) && decide (c.toNat ≤ range.2)

/-- The character can start a name. -/
def isNameStart (c : Char) : Bool := inRanges startRanges c

/-- The character can stand in a name. -/
def isNameChar (c : Char) : Bool := isNameStart c || inRanges innerRanges c

/-- A name without a colon. -/
def isNcName : Text → Bool
  | [] => false
  | c :: rest => isNameStart c && rest.all isNameChar

/-- What stands after the first colon; the whole name where there is none. -/
def localPart (name : Text) : Text :=
  match name.dropWhile (· ≠ ':') with
  | [] => name
  | _ :: part => part

/-- A name, or a prefix, a colon and a name. -/
def isQName (name : Text) : Bool :=
  isNcName (name.takeWhile (· ≠ ':')) && isNcName (localPart name)

/-- White space. -/
def isSpace (c : Char) : Bool := c = ' ' || c = '\t' || c = '\n' || c = '\r'

/-! ## Characters and line ends -/

/-- The characters of XML. -/
def charRanges : List (Nat × Nat) :=
  [(0x9, 0xA), (0xD, 0xD), (0x20, 0xD7FF), (0xE000, 0xFFFD), (0x10000, 0x10FFFF)]

/-- The character may stand in a document. -/
def isChar (c : Char) : Bool := inRanges charRanges c

/-- The text with line feeds for its line ends: a return, or a return and a line feed.  The
first argument says whether a return stands right before the text. -/
def normalizedFrom : Bool → Text → Text
  | _, [] => []
  | afterReturn, c :: rest =>
    if c = '\r' then '\n' :: normalizedFrom true rest
    else if afterReturn ∧ c = '\n' then normalizedFrom false rest
    else c :: normalizedFrom false rest

/-- The text as a reader gets it. -/
def normalized (text : Text) : Text := normalizedFrom false text

/-! ## The reader -/

/-- An element: its tag, the text before its first child and its children. -/
inductive Node where
  | mk (tag text : Text) (children : List Node)

namespace Node

/-- The name of the element. -/
def tag : Node → Text
  | .mk tag _ _ => tag

/-- The text before the first child. -/
def text : Node → Text
  | .mk _ text _ => text

end Node

/-- An open element, with the children read so far, the last one first. -/
structure Frame where
  tag : Text
  text : Text
  children : List Node

namespace Frame

/-- The element, at its end tag. -/
def close (frame : Frame) : Node := .mk frame.tag frame.text frame.children.reverse

/-- Character data; what comes after a child is not kept. -/
def addText (frame : Frame) (text : Text) : Frame :=
  if frame.children.isEmpty then { frame with text := frame.text ++ text } else frame

/-- A child that was closed. -/
def addChild (frame : Frame) (child : Node) : Frame :=
  { frame with children := child :: frame.children }

end Frame

/-- Where the reader is. -/
inductive Mode where
  | content
  /-- after an ampersand -/
  | reference (name : Text)
  /-- after `<` -/
  | tagOpen
  | startName (name : Text)
  | attributes
  | quoted (mark : Char)
  /-- after the `/` of an empty element -/
  | emptyEnd
  | endName (name : Text)
  | endSpace (name : Text)
  deriving DecidableEq

/-- The state of the reader: where it is, the innermost open element and those around it. -/
structure Reader where
  mode : Mode
  top : Frame
  outer : List Frame

/-- The predefined references. -/
def predefined : List (Text × Char) :=
  [("amp".toList, '&'), ("lt".toList, '<'), ("gt".toList, '>'), ("quot".toList, '"'),
    ("apos".toList, Char.ofNat 39)]

namespace Reader

/-- The start of a tag, up to the end of its name. -/
def openTag (r : Reader) (name : Text) (mode : Mode) : Option Reader :=
  if isQName name then some ⟨mode, ⟨name, [], []⟩, r.top :: r.outer⟩ else none

/-- The end of the innermost element. -/
def closeTop (r : Reader) : Option Reader :=
  match r.outer with
  | [] => none
  | parent :: outer => some ⟨.content, parent.addChild r.top.close, outer⟩

/-- An end tag: its name is the name of the innermost element. -/
def closeTag (r : Reader) (name : Text) : Option Reader :=
  if name = r.top.tag then r.closeTop else none

/-- Read a character. -/
def step (r : Reader) (c : Char) : Option Reader :=
  match r.mode with
  | .content =>
    if c = '<' then some { r with mode := .tagOpen }
    else if c = '&' then some { r with mode := .reference [] }
    else some { r with top := r.top.addText [c] }
  | .reference name =>
    if c = ';' then (predefined.lookup name).map fun meant =>
      { r with mode := .content, top := r.top.addText [meant] }
    else some { r with mode := .reference (name ++ [c]) }
  | .tagOpen =>
    if c = '/' then some { r with mode := .endName [] }
    else if isNameStart c then some { r with mode := .startName [c] }
    else none
  | .startName name =>
    if c = '>' then r.openTag name .content
    else if c = '/' then r.openTag name .emptyEnd
    else if isSpace c then r.openTag name .attributes
    else some { r with mode := .startName (name ++ [c]) }
  | .attributes =>
    if c = '>' then some { r with mode := .content }
    else if c = '/' then some { r with mode := .emptyEnd }
    else if c = '<' then none
    else if c = '"' || c.toNat = 39 then some { r with mode := .quoted c }
    else some r
  | .quoted mark =>
    if c = mark then some { r with mode := .attributes }
    else if c = '<' then none
    else some r
  | .emptyEnd => if c = '>' then r.closeTop else none
  | .endName name =>
    if c = '>' then r.closeTag name
    else if isSpace c then some { r with mode := .endSpace name }
    else some { r with mode := .endName (name ++ [c]) }
  | .endSpace name =>
    if c = '>' then r.closeTag name else if isSpace c then some r else none

/-- Read a piece of text. -/
def feed (r : Reader) (text : Text) : Option Reader := text.foldlM step r

end Reader

/-- The child elements of an element with this content; `none` where it is not well
formed. -/
def readChildren (text : Text) : Option (List Node) :=
  if text.all isChar then
    match Reader.feed ⟨.content, ⟨[], [], []⟩, []⟩ (normalized text) with
    | some ⟨.content, top, []⟩ => some top.children.reverse
    | _ => none
  else none

/-! ## Escaping -/

/-- Write a character so that it is read as itself. -/
def escapeChar (c : Char) : Text :=
  if c = '&' then "&amp;".toList
  else if c = '<' then "&lt;".toList
  else if c = '>' then "&gt;".toList
  else [c]

/-- Write a text so that it is read as itself, but for its line ends. -/
def escape (text : Text) : Text := text.flatMap escapeChar

theorem all_isChar_escape (text : Text) : (escape text).all isChar = text.all isChar := by
  have hchar : ∀ c, (escapeChar c).all isChar = isChar c := by
    intro c
    unfold escapeChar
    split
    case isTrue h =>
      subst h
      decide
    case isFalse =>
      split
      case isTrue h =>
        subst h
        decide
      case isFalse =>
        split
        case isTrue h =>
          subst h
          decide
        case isFalse => exact Bool.and_true _
  rw [escape, List.all_flatMap]
  exact congrArg text.all (funext hchar)

/-- A name in tags is of the characters of XML. -/
theorem isChar_of_isNameChar {c : Char} (hc : isNameChar c = true) : isChar c = true := by
  simp only [isNameChar, isNameStart, isChar, inRanges, startRanges, innerRanges, charRanges,
    List.any_cons, List.any_nil, Bool.or_eq_true, Bool.and_eq_true, decide_eq_true_eq,
    Bool.or_false] at hc ⊢
  omega

/-! ### Line ends -/

section

variable {afterReturn : Bool} {c : Char} {rest : Text}

/-- What is no line end stays. -/
theorem normalizedFrom_cons (hreturn : c ≠ '\r') (hfeed : c ≠ '\n') :
    normalizedFrom afterReturn (c :: rest) = c :: normalizedFrom false rest := by
  rw [normalizedFrom, if_neg hreturn, if_neg fun h => hfeed h.2]

theorem normalizedFrom_append {plain : Text} (hplain : ∀ c ∈ plain, c ≠ '\r' ∧ c ≠ '\n') :
    normalizedFrom false (plain ++ rest) = plain ++ normalizedFrom false rest := by
  induction plain with
  | nil => rfl
  | cons c plain ih =>
    obtain ⟨hreturn, hfeed⟩ := hplain c List.mem_cons_self
    rw [List.cons_append, normalizedFrom_cons hreturn hfeed,
      ih fun x hx => hplain x (List.mem_cons_of_mem c hx)]
    rfl

/-- A line end does not go on behind a character that is none. -/
theorem normalizedFrom_append_cons (hreturn : c ≠ '\r') (hfeed : c ≠ '\n') (text : Text) :
    normalizedFrom afterReturn (text ++ c :: rest) =
      normalizedFrom afterReturn text ++ c :: normalizedFrom false rest := by
  induction text generalizing afterReturn with
  | nil => exact normalizedFrom_cons hreturn hfeed
  | cons first text ih =>
    rw [List.cons_append, normalizedFrom, normalizedFrom]
    split
    case isTrue =>
      rw [ih]
      rfl
    case isFalse =>
      split
      case isTrue => exact ih
      case isFalse =>
        rw [ih]
        rfl

theorem normalizedFrom_escape (text : Text) :
    normalizedFrom afterReturn (escape text) = escape (normalizedFrom afterReturn text) := by
  induction text generalizing afterReturn with
  | nil => rfl
  | cons first text ih =>
    have hescape : ∀ (c : Char) (rest : Text), escape (c :: rest) = escapeChar c ++ escape rest :=
      fun _ _ => List.flatMap_cons
    have hends : escapeChar '\r' = ['\r'] ∧ escapeChar '\n' = ['\n'] := by decide
    rw [hescape]
    by_cases hreturn : first = '\r'
    · subst hreturn
      rw [hends.1, normalizedFrom, if_pos rfl, hescape, hends.2]
      exact congrArg ('\n' :: ·) ih
    · by_cases hfeed : first = '\n'
      · subst hfeed
        rw [hends.2, List.singleton_append, normalizedFrom, normalizedFrom, if_neg hreturn,
          if_neg hreturn]
        split
        case isTrue => exact ih
        case isFalse =>
          rw [hescape, hends.2, ih]
          rfl
      · rw [normalizedFrom_cons hreturn hfeed, hescape, ← ih]
        -- the first character of what is written instead ends a line end before it
        unfold escapeChar
        split
        case isTrue => simp [normalizedFrom]
        case isFalse =>
          split
          case isTrue => simp [normalizedFrom]
          case isFalse =>
            split
            case isTrue => simp [normalizedFrom]
            case isFalse => exact normalizedFrom_cons hreturn hfeed

/-- No return is left. -/
theorem return_not_mem_normalizedFrom (text : Text) :
    '\r' ∉ normalizedFrom afterReturn text := by
  induction text generalizing afterReturn with
  | nil => exact List.not_mem_nil
  | cons first text ih =>
    rw [normalizedFrom]
    split
    case isTrue =>
      rw [List.mem_cons, not_or]
      exact ⟨by decide, ih⟩
    case isFalse hreturn =>
      split
      case isTrue => exact ih
      case isFalse =>
        rw [List.mem_cons, not_or]
        exact ⟨fun h => hreturn h.symm, ih⟩

/-- A text comes through exactly if there is no return in it. -/
theorem normalized_eq_self_iff {text : Text} : normalized text = text ↔ '\r' ∉ text := by
  constructor
  · intro heq
    rw [← heq]
    exact return_not_mem_normalizedFrom text
  · intro hnone
    unfold normalized
    induction text with
    | nil => rfl
    | cons first text ih =>
      rw [List.mem_cons, not_or] at hnone
      rw [normalizedFrom, if_neg fun h => hnone.1 h.symm, if_neg fun h => absurd h.1 nofun]
      exact congrArg (first :: ·) (ih hnone.2)

end

/-! ## What the reader makes of tags and escaped text -/

/-- A text that the reader takes for the name in a tag, up to its end. -/
def TagText (name : Text) : Prop := ∀ c ∈ name, c ≠ '>' ∧ c ≠ '/' ∧ isSpace c = false

theorem tagText_append {name rest : Text} (hname : TagText name) (hrest : TagText rest) :
    TagText (name ++ rest) := by
  intro c hc
  rcases List.mem_append.mp hc with hc | hc
  · exact hname c hc
  · exact hrest c hc

/-- A qualified name starts with a letter. -/
theorem isNameStart_of_isQName {c : Char} {rest : Text} (hname : isQName (c :: rest) = true) :
    isNameStart c = true := by
  unfold isQName at hname
  rw [Bool.and_eq_true, List.takeWhile_cons] at hname
  have hfirst := hname.1
  split at hfirst
  · unfold isNcName at hfirst
    rw [Bool.and_eq_true] at hfirst
    exact hfirst.1
  · cases hfirst

namespace Frame

@[simp] theorem addText_nil (frame : Frame) : frame.addText [] = frame := by
  unfold addText
  split
  · rw [List.append_nil]
  · rfl

theorem addText_addText (frame : Frame) (first second : Text) :
    (frame.addText first).addText second = frame.addText (first ++ second) := by
  unfold addText
  cases hchildren : frame.children with
  | nil => simp
  | cons child children => simp [hchildren]

@[simp] theorem addText_children (frame : Frame) (text : Text) :
    (frame.addText text).children = frame.children := by
  unfold addText
  split <;> rfl

end Frame

namespace Reader

variable {top : Frame} {outer : List Frame} {name : Text}

@[simp] theorem feed_nil (r : Reader) : feed r [] = some r := rfl

@[simp] theorem feed_cons (r : Reader) (c : Char) (text : Text) :
    feed r (c :: text) = (step r c).bind fun next => feed next text := rfl

theorem feed_append (r : Reader) (first second : Text) :
    feed r (first ++ second) = (feed r first).bind fun next => feed next second := by
  unfold feed
  rw [List.foldlM_append]
  rfl

/-- Text without markup is read as itself. -/
theorem feed_plain {text : Text} (hplain : ∀ c ∈ text, c ≠ '<' ∧ c ≠ '&') :
    feed ⟨.content, top, outer⟩ text = some ⟨.content, top.addText text, outer⟩ := by
  induction text generalizing top with
  | nil => simp
  | cons c text ih =>
    obtain ⟨hlt, hamp⟩ := hplain c List.mem_cons_self
    have hrest : feed ⟨.content, top.addText [c], outer⟩ text = _ :=
      ih fun x hx => hplain x (List.mem_cons_of_mem c hx)
    rw [Frame.addText_addText] at hrest
    simpa [step, hlt, hamp] using hrest

theorem feed_escapeChar (c : Char) :
    feed ⟨.content, top, outer⟩ (escapeChar c) = some ⟨.content, top.addText [c], outer⟩ := by
  unfold escapeChar
  split
  case isTrue h =>
    subst h
    rfl
  case isFalse hamp =>
    split
    case isTrue h =>
      subst h
      rfl
    case isFalse hlt =>
      split
      case isTrue h =>
        subst h
        rfl
      case isFalse =>
        apply feed_plain
        simp [hlt, hamp]

/-- Escaped text is read as the text. -/
theorem feed_escape (text : Text) :
    feed ⟨.content, top, outer⟩ (escape text) = some ⟨.content, top.addText text, outer⟩ := by
  induction text generalizing top with
  | nil => simp [escape]
  | cons c text ih =>
    have hescape : escape (c :: text) = escapeChar c ++ escape text := List.flatMap_cons
    rw [hescape, feed_append, feed_escapeChar, Option.bind_some, ih, Frame.addText_addText]
    rfl

/-- The rest of the name in a start tag. -/
theorem feed_startName {rest : Text} (hrest : TagText rest) :
    feed ⟨.startName name, top, outer⟩ rest = some ⟨.startName (name ++ rest), top, outer⟩ := by
  induction rest generalizing name with
  | nil => simp
  | cons c rest ih =>
    obtain ⟨hgt, hslash, hspace⟩ := hrest c List.mem_cons_self
    have htail : feed ⟨.startName (name ++ [c]), top, outer⟩ rest = _ :=
      ih fun x hx => hrest x (List.mem_cons_of_mem c hx)
    rw [List.append_assoc] at htail
    simpa [step, hgt, hslash, hspace] using htail

/-- A start tag opens an element exactly if its name is a qualified one. -/
theorem feed_startTag (hname : TagText name) :
    feed ⟨.content, top, outer⟩ ('<' :: name ++ ['>']) =
      if isQName name then some ⟨.content, ⟨name, [], []⟩, top :: outer⟩ else none := by
  cases name with
  | nil => rfl
  | cons c rest =>
    obtain ⟨_, hslash, _⟩ := hname c List.mem_cons_self
    have hrest : TagText rest := fun x hx => hname x (List.mem_cons_of_mem c hx)
    have hopen : step ⟨.content, top, outer⟩ '<' = some ⟨.tagOpen, top, outer⟩ := rfl
    rw [List.cons_append, feed_cons, hopen, Option.bind_some, List.cons_append, feed_cons]
    cases hstart : isNameStart c with
    | true =>
      have hfirst : step ⟨.tagOpen, top, outer⟩ c = some ⟨.startName [c], top, outer⟩ := by
        simp [step, hslash, hstart]
      rw [hfirst, Option.bind_some, feed_append, feed_startName hrest]
      simp [step, openTag]
    | false =>
      have hnone : step ⟨.tagOpen, top, outer⟩ c = none := by
        simp [step, hslash, hstart]
      have hbad : isQName (c :: rest) = false := by
        rw [Bool.eq_false_iff]
        intro hgood
        rw [isNameStart_of_isQName hgood] at hstart
        cases hstart
      rw [hnone, hbad]
      rfl

/-- The rest of the name in an end tag. -/
theorem feed_endName {rest : Text} (hrest : TagText rest) :
    feed ⟨.endName name, top, outer⟩ rest = some ⟨.endName (name ++ rest), top, outer⟩ := by
  induction rest generalizing name with
  | nil => simp
  | cons c rest ih =>
    obtain ⟨hgt, _, hspace⟩ := hrest c List.mem_cons_self
    have htail : feed ⟨.endName (name ++ [c]), top, outer⟩ rest = _ :=
      ih fun x hx => hrest x (List.mem_cons_of_mem c hx)
    rw [List.append_assoc] at htail
    simpa [step, hgt, hspace] using htail

/-- An end tag closes the innermost element exactly if it has its name. -/
theorem feed_endTag {parent : Frame} (hname : TagText name) :
    feed ⟨.content, top, parent :: outer⟩ ('<' :: '/' :: name ++ ['>']) =
      if name = top.tag then some ⟨.content, parent.addChild top.close, outer⟩ else none := by
  have hopen : step ⟨.content, top, parent :: outer⟩ '<' =
      some ⟨.tagOpen, top, parent :: outer⟩ := rfl
  have hslash : step ⟨.tagOpen, top, parent :: outer⟩ '/' =
      some ⟨.endName [], top, parent :: outer⟩ := rfl
  rw [List.cons_append, feed_cons, hopen, Option.bind_some, List.cons_append, feed_cons, hslash,
    Option.bind_some, feed_append, feed_endName hname, List.nil_append, Option.bind_some]
  simp [step, closeTag, closeTop]

/-- A start tag, escaped text and an end tag are an element exactly if the name in the
start tag is a qualified one and the name in the end tag is the same. -/
theorem feed_element {start stop : Text} (text : Text) (hstart : TagText start)
    (hstop : TagText stop) :
    feed ⟨.content, top, outer⟩
        (('<' :: start ++ ['>']) ++ (escape text ++ ('<' :: '/' :: stop ++ ['>']))) =
      if isQName start ∧ stop = start then
        some ⟨.content, top.addChild (.mk start text []), outer⟩
      else none := by
  rw [feed_append, feed_startTag hstart]
  cases hname : isQName start with
  | false => simp
  | true =>
    rw [if_pos rfl, Option.bind_some, feed_append, feed_escape, Option.bind_some,
      feed_endTag hstop]
    simp [Frame.addText, Frame.close]

end Reader

end OvirtArt.Foundation.Xml
