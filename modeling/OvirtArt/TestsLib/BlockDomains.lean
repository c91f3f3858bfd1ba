import OvirtArt.CoreApi.TextLines
import OvirtArt.Foundation.Recordings
import OvirtArt.Foundation.Splitting

set_option autoImplicit false

/-!
# `import_block_storage_domain` of `high_level/storagedomains.py`

The ids of the storage domains to import are taken from the words of the response, not from its
elements.

A response is a list of the pieces that make it up: tags, declarations and texts.  The words are
what the source finds by splitting at white space; an id that is not ASCII is left out.
-/

namespace OvirtArt.TestsLib.BlockDomains

open OvirtArt.CoreApi OvirtArt.Foundation

/-- `text.strip(chars)`. -/
def stripChars (chars text : Text) : Text :=
  ((text.dropWhile (· ∈ chars)).reverse.dropWhile (· ∈ chars)).reverse

/-- The items that are taken for ids. -/
def isIdItem (item : Text) : Bool :=
  "id=".toList.isPrefixOf item && ['"', '>'].isSuffixOf item

/-- The id of an item. -/
def sdIdOf (item : Text) : Text := Text.slice (stripChars "id=>".toList item) 1 (-1)

/-- The ids of the items of a response. -/
def sdIds (response : Text) : List Text := ((Text.words response).filter isIdItem).map sdIdOf

/-- The storage domain that is created. -/
structure ImportRequest where
  id : Text
  type : Text
  host : Text
  storageType : Text
  importFlag : Text
  deriving DecidableEq, Repr

/-- The request for an id. -/
def importRequest (hostId storageType id : Text) : ImportRequest where
  id := id
  type := "data".toList
  host := hostId
  storageType := storageType
  importFlag := "true".toList

section

variable (create : Nat → ImportRequest → Bool) (hostId : Text)

/-- `import_block_storage_domain`; the entries are the requests, whose status `create` gives by the
number of requests before. -/
def importBlockStorageDomain (response : Option Text) (storageType : Text) :
    Recorded Empty ImportRequest Bool := do
  if !Text.truthy response then return false
  else
    let sdsStatus ← (sdIds (response.getD [])).foldlM (fun sdsStatus sdId => do
      let request := importRequest hostId storageType sdId
      let status ← Recorded.ask request (.ok (create sdsStatus.length request))
      return sdsStatus ++ [status]) []
    return sdsStatus.all id

end

/-! ## The response -/

/-- A character of a name. -/
def isNameChar (c : Char) : Bool :=
  !Text.isSpace c && !(c ∈ ['"', '<', '>', '='])

/-- An attribute whose value needs no escapes. -/
structure Attribute where
  name : Text
  value : Text
  name_chars : ∀ c ∈ name, isNameChar c = true
  value_chars : ∀ c ∈ value, c ∉ ['"', '<', '>']

/-- The attribute as it is written. -/
def Attribute.text (attr : Attribute) : Text := attr.name ++ '=' :: '"' :: (attr.value ++ ['"'])

/-- An attribute and the blanks before it. -/
structure SpacedAttribute where
  blanks : Text
  attr : Attribute
  blanks_ne_nil : blanks ≠ []
  blanks_space : ∀ c ∈ blanks, Text.isSpace c = true

/-- The attribute with the blanks before it. -/
def SpacedAttribute.text (spaced : SpacedAttribute) : Text := spaced.blanks ++ spaced.attr.text

/-- A tag that begins an element, or that is a whole one. -/
structure StartTag where
  name : Text
  attributes : List SpacedAttribute
  blanks : Text
  isEmptyElement : Bool
  name_chars : ∀ c ∈ name, isNameChar c = true
  blanks_space : ∀ c ∈ blanks, Text.isSpace c = true

/-- The tag up to its end. -/
def StartTag.front (tag : StartTag) : Text :=
  '<' :: (tag.name ++ (tag.attributes.flatMap SpacedAttribute.text ++ tag.blanks))

/-- The tag as it is written. -/
def StartTag.text (tag : StartTag) : Text :=
  tag.front ++ (if tag.isEmptyElement then ['/', '>'] else ['>'])

/-- A piece of the response. -/
inductive Piece where
  | start (tag : StartTag)
  | close (name : Text) (plain : '"' ∉ name)
  | declaration (inner : Text) (plain : '>' ∉ inner)
  /-- White space or other text between tags. -/
  | content (text : Text) (plain : '>' ∉ text)

/-- The piece as it is written. -/
def Piece.text : Piece → Text
  | .start tag => tag.text
  | .close name _ => '<' :: '/' :: (name ++ ['>'])
  | .declaration inner _ => '<' :: '?' :: (inner ++ ['?', '>'])
  | .content text _ => text

/-- The response that the pieces make. -/
def textOf (pieces : List Piece) : Text := pieces.flatMap Piece.text

/-- The id of a tag. -/
def StartTag.id? (tag : StartTag) : Option Text :=
  (tag.attributes.find? fun spaced => spaced.attr.name == "id".toList).map (·.attr.value)

/-- The id of a `storage_domain` element that begins here. -/
def Piece.storageDomainId? : Piece → Option Text
  | .start tag => if tag.name = "storage_domain".toList then tag.id? else none
  | .close _ _ => none
  | .declaration _ _ => none
  | .content _ _ => none

/-- The ids of the `storage_domain` elements. -/
def domainIds (pieces : List Piece) : List Text := pieces.filterMap Piece.storageDomainId?

/-- One request is sent for each of the elements, and what is returned says whether there are any
and all these requests have succeeded. -/
structure ImportsDomains (create : Nat → ImportRequest → Bool) (hostId storageType : Text)
    (pieces : List Piece) (run : Recorded Empty ImportRequest Bool) : Prop where
  requests : run.entries = (domainIds pieces).map (importRequest hostId storageType)
  status : ∃ status, run.result = .ok status ∧ (status = true ↔ domainIds pieces ≠ [] ∧
    ∀ position request, run.entries[position]? = some request → create position request = true)

/-! ## What is marked as an id -/

/-- White space comes next, or nothing. -/
def isSeparated : Text → Bool
  | [] => true
  | c :: _ => Text.isSpace c

/-- What the end of a tag is taken for, if white space follows: its last attribute has `">`
directly after its value. -/
def StartTag.marked (tag : StartTag) : List Text :=
  if tag.blanks.isEmpty && !tag.isEmptyElement then
    match tag.attributes.getLast? with
    | none => []
    | some last => sdIds (last.attr.text ++ ['>'])
  else []

/-- The ids of domains that a piece is taken for: only a start tag is taken for one. -/
def Piece.marked : Piece → List Text
  | .start tag => tag.marked
  | .close _ _ => []
  | .declaration _ _ => []
  | .content _ _ => []

/-- What is taken for ids, piece by piece. -/
def markedIds : List Piece → List Text
  | [] => []
  | piece :: rest =>
    (if isSeparated (textOf rest) then piece.marked else []) ++ markedIds rest

section

variable {text before after rest : Text} {c : Char}

/-! ### Words that are no ids -/

theorem sdIds_append_space {space : Char} (hspace : Text.isSpace space = true) :
    sdIds (before ++ space :: after) = sdIds before ++ sdIds after := by
  unfold sdIds
  rw [Text.words_append_space hspace, List.filter_append, List.map_append]

theorem sdIds_nil : sdIds [] = [] := rfl

/-- Unless `">` stands before white space or at the end, nothing is taken for an id. -/
theorem sdIds_eq_nil_of_not_ends
    (h : ∀ before after, text = before ++ ['"', '>'] ++ after → isSeparated after = false) :
    sdIds text = [] := by
  unfold sdIds
  rw [List.map_eq_nil_iff, List.filter_eq_nil_iff]
  intro word hword hitem
  obtain ⟨left, right, htext, hright⟩ := ends_of_mem_splitOnP (List.mem_of_mem_filter hword)
  obtain ⟨front, rfl⟩ := List.isSuffixOf_iff_suffix.mp (Bool.and_eq_true_iff.mp hitem).2
  have hnot : isSeparated right = false := by
    refine h (left ++ front) right ?_
    rw [htext]
    simp only [List.append_assoc]
  rcases hright with rfl | ⟨space, rest, rfl, hspace⟩
  · exact nomatch hnot
  · exact absurd (hspace.symm.trans hnot) Bool.true_eq_false.mp

theorem sdIds_eq_nil (h : ¬ ['"', '>'] <:+: text) : sdIds text = [] :=
  sdIds_eq_nil_of_not_ends fun left right htext => absurd ⟨left, right, htext.symm⟩ h

/-- A text begins with a word, or with nothing, before white space or the end. -/
theorem exists_first_word (text : Text) : ∃ word rest, text = word ++ rest ∧
    (∀ c ∈ word, Text.isSpace c = false) ∧ isSeparated rest = true := by
  induction text with
  | nil => exact ⟨[], [], rfl, nofun, rfl⟩
  | cons c text ih =>
    cases hc : Text.isSpace c with
    | true => exact ⟨[], c :: text, rfl, nofun, hc⟩
    | false =>
      obtain ⟨word, rest, rfl, hword, hrest⟩ := ih
      exact ⟨c :: word, rest, rfl, List.forall_mem_cons.mpr ⟨hc, hword⟩, hrest⟩

theorem sdIds_append_separated (h : isSeparated after = true) :
    sdIds (before ++ after) = sdIds before ++ sdIds after := by
  cases after with
  | nil => rw [List.append_nil, sdIds_nil, List.append_nil]
  | cons c after =>
    have hafter : sdIds ([] ++ c :: after) = sdIds [] ++ sdIds after := sdIds_append_space h
    rw [sdIds_append_space h]
    exact congrArg (sdIds before ++ ·) hafter.symm

/-! ### Tags -/

theorem not_mem_of_isNameChar {name : Text} (hname : ∀ c ∈ name, isNameChar c = true)
    (h : isNameChar c = false) : c ∉ name :=
  fun hmem => absurd ((hname c hmem).symm.trans h) Bool.true_eq_false.mp

theorem not_mem_of_isSpace {blanks : Text} (hblanks : ∀ c ∈ blanks, Text.isSpace c = true)
    (h : Text.isSpace c = false) : c ∉ blanks :=
  fun hmem => absurd ((hblanks c hmem).symm.trans h) Bool.true_eq_false.mp

/-- What stands before the closing `">` of an attribute. -/
def Attribute.front (attr : Attribute) : Text := attr.name ++ '=' :: '"' :: attr.value

theorem Attribute.text_eq (attr : Attribute) : attr.text = attr.front ++ ['"'] := by
  unfold Attribute.text Attribute.front
  simp only [List.append_assoc, List.cons_append]

theorem Attribute.not_mem_front (attr : Attribute) : '>' ∉ attr.front := by
  unfold Attribute.front
  intro hmem
  rcases List.mem_append.mp hmem with hname | hrest
  · exact not_mem_of_isNameChar attr.name_chars rfl hname
  · have hvalue : '>' ∈ attr.value := by simpa using hrest
    exact attr.value_chars '>' hvalue (by decide)

theorem Attribute.not_mem_text (attr : Attribute) : '>' ∉ attr.text := by
  rw [Attribute.text_eq]
  intro hmem
  rcases List.mem_append.mp hmem with hfront | hquote
  · exact attr.not_mem_front hfront
  · exact absurd (List.mem_singleton.mp hquote) (by decide)

theorem SpacedAttribute.not_mem_text (spaced : SpacedAttribute) : '>' ∉ spaced.text := by
  intro hmem
  rcases List.mem_append.mp hmem with hblanks | hattr
  · exact not_mem_of_isSpace spaced.blanks_space rfl hblanks
  · exact spaced.attr.not_mem_text hattr

/-- Attributes have no end of a tag in them. -/
theorem not_mem_attributes (attributes : List SpacedAttribute) :
    '>' ∉ attributes.flatMap SpacedAttribute.text := by
  intro hmem
  obtain ⟨spaced, -, hspaced⟩ := List.mem_flatMap.mp hmem
  exact spaced.not_mem_text hspaced

theorem not_mem_tag_start {name : Text} (hname : ∀ c ∈ name, isNameChar c = true)
    (hc : c ≠ '<') (h : isNameChar c = false) : c ∉ '<' :: name := by
  intro hmem
  rcases List.mem_cons.mp hmem with heq | hrest
  · exact hc heq
  · exact not_mem_of_isNameChar hname h hrest

theorem StartTag.not_mem_front (tag : StartTag) : '>' ∉ tag.front := by
  intro hmem
  have hfront : tag.front = ('<' :: tag.name) ++
    (tag.attributes.flatMap SpacedAttribute.text ++ tag.blanks) := rfl
  rw [hfront] at hmem
  rcases List.mem_append.mp hmem with hname | hrest
  · exact not_mem_tag_start tag.name_chars (by decide) rfl hname
  · rcases List.mem_append.mp hrest with hattributes | hblanks
    · exact not_mem_attributes _ hattributes
    · exact not_mem_of_isSpace tag.blanks_space rfl hblanks

/-- A tag that ends with a blank or a slash, or has no attributes, has no `">` in it. -/
theorem StartTag.not_pair_infix (tag : StartTag)
    (h : tag.isEmptyElement = true ∨ tag.front.getLast? ≠ some '"') :
    ¬ ['"', '>'] <:+: tag.text := by
  intro hpair
  rcases pair_infix_append hpair with hfront | hend | ⟨hlast, hhead⟩
  · exact not_pair_infix_of_second tag.not_mem_front hfront
  · cases hempty : tag.isEmptyElement with
    | true =>
      rw [hempty] at hend
      exact not_pair_infix_of_first (by decide) hend
    | false =>
      rw [hempty] at hend
      exact not_pair_infix_of_first (by decide) hend
  · rcases h with hempty | hquote
    · rw [hempty] at hhead
      exact absurd (Option.some.inj hhead) (by decide)
    · exact hquote hlast

/-- The tags that are marked. -/
structure StartTag.EndsWith (tag : StartTag) (last : SpacedAttribute) : Prop where
  last : tag.attributes.getLast? = some last
  blanks : tag.blanks = []
  whole : tag.isEmptyElement = false

variable {last : SpacedAttribute} {tag : StartTag} {word : Text}

theorem StartTag.EndsWith.marked (h : tag.EndsWith last) :
    tag.marked = sdIds (last.attr.text ++ ['>']) := by
  unfold StartTag.marked
  rw [h.blanks, h.whole, h.last]
  rfl

/-- Any other tag has no `">` in it and is not marked. -/
theorem StartTag.quiet_of_not_endsWith (h : ∀ last, ¬ tag.EndsWith last) :
    ¬ ['"', '>'] <:+: tag.text ∧ tag.marked = [] := by
  unfold StartTag.marked
  cases hempty : tag.isEmptyElement with
  | true =>
    refine ⟨tag.not_pair_infix (.inl hempty), ?_⟩
    rw [Bool.not_true, Bool.and_false]
    rfl
  | false =>
    rcases List.eq_nil_or_concat tag.blanks with hblanks | ⟨init, space, hblanks⟩
    · cases hlast : tag.attributes.getLast? with
      | none =>
        refine ⟨tag.not_pair_infix (.inr fun hquote => ?_), ite_self _⟩
        have hfront : tag.front = '<' :: tag.name := by
          unfold StartTag.front
          rw [List.getLast?_eq_none_iff.mp hlast, hblanks]
          simp only [List.flatMap_nil, List.append_nil]
        rw [hfront] at hquote
        exact not_mem_tag_start tag.name_chars (by decide) rfl (List.mem_of_getLast? hquote)
      | some last => exact absurd ⟨hlast, hblanks, hempty⟩ (h last)
    · refine ⟨tag.not_pair_infix (.inr fun hquote => ?_), ?_⟩
      · have hfront : tag.front = ('<' :: (tag.name ++
            (tag.attributes.flatMap SpacedAttribute.text ++ init))) ++ [space] := by
          unfold StartTag.front
          rw [hblanks]
          simp only [List.cons_append, List.append_assoc, List.concat_eq_append]
        rw [hfront, List.getLast?_concat] at hquote
        have hspace := tag.blanks_space space (by rw [hblanks]; simp)
        rw [Option.some.inj hquote] at hspace
        exact nomatch hspace
      · rw [hblanks]
        refine if_neg ?_
        simp

/-- A marked tag is its last attribute and `>`, after a blank and what comes before that. -/
theorem StartTag.EndsWith.text_eq (h : tag.EndsWith last) :
    ∃ before space, Text.isSpace space = true ∧ '>' ∉ before ∧
      tag.text = before ++ space :: (last.attr.text ++ ['>']) := by
  obtain ⟨init, hinit⟩ : ∃ init, tag.attributes = init ++ [last] :=
    ⟨_, (List.dropLast_append_getLast? last h.last).symm⟩
  obtain ⟨blanks, space, hblanks⟩ := (List.eq_nil_or_concat last.blanks).resolve_left
    last.blanks_ne_nil
  rw [List.concat_eq_append] at hblanks
  have hspaces := last.blanks_space
  rw [hblanks] at hspaces
  refine ⟨('<' :: tag.name) ++ (init.flatMap SpacedAttribute.text ++ blanks), space,
    hspaces space (by simp), ?_, ?_⟩
  · intro hmem
    rcases List.mem_append.mp hmem with hname | hrest
    · exact not_mem_tag_start tag.name_chars (by decide) rfl hname
    · rcases List.mem_append.mp hrest with hattributes | hblank
      · exact not_mem_attributes _ hattributes
      · have hspace := hspaces '>' (List.mem_append_left _ hblank)
        exact nomatch hspace
  · unfold StartTag.text StartTag.front
    rw [h.whole, h.blanks, hinit, List.flatMap_append, List.flatMap_singleton]
    unfold SpacedAttribute.text
    rw [hblanks]
    simp

/-! ### Pieces -/

/-- A piece has no `">` in it, or it is a tag that ends with an attribute. -/
theorem Piece.quiet_or_endsWith (piece : Piece) :
    (¬ ['"', '>'] <:+: piece.text ∧ piece.marked = []) ∨
      ∃ tag last, piece = .start tag ∧ tag.EndsWith last := by
  cases piece with
  | start tag =>
    by_cases h : ∃ last, tag.EndsWith last
    · obtain ⟨last, hlast⟩ := h
      exact .inr ⟨tag, last, rfl, hlast⟩
    · exact .inl (StartTag.quiet_of_not_endsWith (not_exists.mp h))
  | close name plain =>
    refine .inl ⟨not_pair_infix_of_first ?_, rfl⟩
    unfold Piece.text
    simpa using plain
  | declaration inner plain =>
    refine .inl ⟨fun hpair => ?_, rfl⟩
    have htext : (Piece.declaration inner plain).text = ('<' :: '?' :: inner) ++ ['?', '>'] := rfl
    rw [htext] at hpair
    rcases pair_infix_append hpair with hinner | hend | ⟨-, hhead⟩
    · refine not_pair_infix_of_second ?_ hinner
      simpa using plain
    · exact not_pair_infix_of_first (by decide) hend
    · exact absurd (Option.some.inj hhead) (by decide)
  | content text plain => exact .inl ⟨not_pair_infix_of_second plain, rfl⟩

theorem Piece.head_ne (piece : Piece) : piece.text.head? ≠ some '>' := by
  cases piece with
  | start tag => exact fun h => absurd (Option.some.inj h) (by decide)
  | close name plain => exact fun h => absurd (Option.some.inj h) (by decide)
  | declaration inner plain => exact fun h => absurd (Option.some.inj h) (by decide)
  | content text plain => exact fun h => plain (List.mem_of_head? h)

/-- What can follow a tag: it does not begin with `>`, and its first word has no `">` in it. -/
structure Follows (text : Text) : Prop where
  head : text.head? ≠ some '>'
  word : ∀ word rest, text = word ++ rest → (∀ c ∈ word, Text.isSpace c = false) →
    ¬ ['"', '>'] <:+: word

/-- What comes before the first blank of a marked tag has no quote in it. -/
theorem StartTag.EndsWith.word_quiet (h : tag.EndsWith last)
    (hword : ∀ c ∈ word, Text.isSpace c = false) (hbegins : word <+: tag.text ++ rest) :
    '"' ∉ word := by
  obtain ⟨first, others, hattributes⟩ : ∃ first others, tag.attributes = first :: others := by
    cases hcase : tag.attributes with
    | nil =>
      have hlast := h.last
      rw [hcase] at hlast
      exact nomatch hlast
    | cons first others => exact ⟨first, others, rfl⟩
  obtain ⟨space, blanks, hblanks⟩ := List.exists_cons_of_ne_nil first.blanks_ne_nil
  have hspace : Text.isSpace space = true :=
    first.blanks_space space (hblanks ▸ List.mem_cons_self)
  obtain ⟨more, htext⟩ : ∃ more, tag.text ++ rest = ('<' :: tag.name) ++ space :: more := by
    unfold StartTag.text StartTag.front
    rw [hattributes, List.flatMap_cons, SpacedAttribute.text, hblanks]
    simp
  obtain ⟨after, hafter⟩ := hbegins
  rw [htext] at hafter
  have hquote : '"' ∉ '<' :: tag.name := not_mem_tag_start tag.name_chars (by decide) rfl
  rcases List.append_eq_append_iff.mp hafter with ⟨middle, hname, -⟩ | ⟨middle, hlonger, hmiddle⟩
  · rw [hname] at hquote
    exact fun hmem => hquote (List.mem_append_left _ hmem)
  · cases middle with
    | nil =>
      rw [List.append_nil] at hlonger
      exact hlonger ▸ hquote
    | cons c middle =>
      obtain ⟨rfl, -⟩ := List.cons.inj hmiddle
      have hmem : space ∈ word := hlonger ▸ List.mem_append_right _ List.mem_cons_self
      exact absurd (hspace.symm.trans (hword space hmem)) Bool.true_eq_false.mp

theorem Follows.append (h : Follows rest) (piece : Piece) : Follows (piece.text ++ rest) where
  head := by
    cases hpiece : piece.text with
    | nil => exact h.head
    | cons c text =>
      have hhead := piece.head_ne
      rw [hpiece] at hhead
      exact hhead
  word := by
    intro word others htext hword
    rcases piece.quiet_or_endsWith with ⟨hquiet, -⟩ | ⟨tag, last, rfl, hends⟩
    · intro hpair
      rcases List.append_eq_append_iff.mp htext with ⟨middle, rfl, hrest⟩ | ⟨middle, hbegins, -⟩
      · rcases pair_infix_append hpair with hpiece | hmiddle | ⟨-, hhead⟩
        · exact hquiet hpiece
        · refine h.word middle others hrest (fun c hc => ?_) hmiddle
          exact hword c (List.mem_append_right _ hc)
        · refine h.head ?_
          rw [hrest, List.head?_append, hhead]
          rfl
      · exact hquiet (hpair.trans ⟨[], middle, hbegins.symm⟩)
    · exact not_pair_infix_of_first (hends.word_quiet hword ⟨others, htext.symm⟩)

theorem follows_textOf (pieces : List Piece) : Follows (textOf pieces) := by
  induction pieces with
  | nil =>
    refine { head := nofun, word := fun word others htext _ => ?_ }
    obtain ⟨rfl, -⟩ := List.append_eq_nil_iff.mp htext.symm
    exact not_pair_infix_of_first List.not_mem_nil
  | cons piece pieces ih => exact ih.append piece

/-- A text without `">` makes no difference. -/
theorem sdIds_quiet_append (hquiet : ¬ ['"', '>'] <:+: text) (h : Follows rest) :
    sdIds (text ++ rest) = sdIds rest := by
  obtain ⟨word, others, rfl, hword, hothers⟩ := exists_first_word rest
  have hnone := h.word word others rfl hword
  rw [← List.append_assoc, sdIds_append_separated hothers, sdIds_append_separated hothers,
    sdIds_eq_nil hnone, sdIds_eq_nil]
  intro hpair
  rcases pair_infix_append hpair with htext | hother | ⟨-, hhead⟩
  · exact hquiet htext
  · exact hnone hother
  · refine h.head ?_
    rw [List.head?_append, hhead]
    rfl

theorem isSeparated_of_word (hne : word ≠ []) (hword : ∀ c ∈ word, Text.isSpace c = false) :
    isSeparated word = false := by
  cases word with
  | nil => exact absurd rfl hne
  | cons c word => exact hword c List.mem_cons_self

/-- The only `">` before a word is not followed by a blank. -/
theorem not_ends_of_word {front left right : Text} (hfront : '>' ∉ front) (hne : word ≠ [])
    (hword : ∀ c ∈ word, Text.isSpace c = false) (hnone : ¬ ['"', '>'] <:+: word)
    (h : front ++ '>' :: word = (left ++ ['"']) ++ '>' :: right) : isSeparated right = false := by
  rcases List.append_eq_append_iff.mp h with ⟨middle, hleft, hmiddle⟩ | ⟨middle, hsplit, hmiddle⟩
  · cases middle with
    | nil =>
      obtain ⟨-, rfl⟩ := List.cons.inj hmiddle
      exact isSeparated_of_word hne hword
    | cons c middle =>
      obtain ⟨rfl, hrest⟩ := List.cons.inj hmiddle
      -- The quote that ends the left side is in the word.
      have hquote : ('>' :: middle).getLast? = some '"' := by
        have hlast := congrArg List.getLast? hleft
        rw [List.getLast?_concat, List.getLast?_append] at hlast
        cases hcase : ('>' :: middle).getLast? with
        | none => exact nomatch List.getLast?_eq_none_iff.mp hcase
        | some last =>
          rw [hcase] at hlast
          exact hlast.symm
      rcases List.eq_nil_or_concat middle with rfl | ⟨init, last, rfl⟩
      · exact absurd (Option.some.inj hquote) (by decide)
      · rw [List.concat_eq_append, ← List.cons_append, List.getLast?_concat] at hquote
        obtain rfl := Option.some.inj hquote
        refine absurd ⟨init, right, ?_⟩ hnone
        rw [hrest]
        simp
  · cases middle with
    | nil =>
      obtain ⟨-, rfl⟩ := List.cons.inj hmiddle
      exact isSeparated_of_word hne hword
    | cons c middle =>
      obtain ⟨rfl, -⟩ := List.cons.inj hmiddle
      refine absurd ?_ hfront
      rw [hsplit]
      exact List.mem_append_right _ List.mem_cons_self

/-- The end of a tag joins the word that follows, unless a blank stands between. -/
theorem sdIds_end_append (attr : Attribute) (h : Follows rest) :
    sdIds (attr.text ++ ['>'] ++ rest) =
      (if isSeparated rest then sdIds (attr.text ++ ['>']) else []) ++ sdIds rest := by
  cases hseparated : isSeparated rest with
  | true => exact sdIds_append_separated hseparated
  | false =>
    rw [if_neg Bool.false_ne_true, List.nil_append]
    obtain ⟨word, others, rfl, hword, hothers⟩ := exists_first_word rest
    have hnone := h.word word others rfl hword
    have hne : word ≠ [] := by
      rintro rfl
      exact absurd (hothers.symm.trans hseparated) Bool.true_eq_false.mp
    rw [← List.append_assoc, sdIds_append_separated hothers, sdIds_append_separated hothers,
      sdIds_eq_nil hnone, sdIds_eq_nil_of_not_ends]
    intro left right htext
    have hsplit : attr.text ++ '>' :: word = (left ++ ['"']) ++ '>' :: right := by
      simpa using htext
    exact not_ends_of_word attr.not_mem_text hne hword hnone hsplit

/-- What is taken for ids. -/
theorem sdIds_textOf (pieces : List Piece) : sdIds (textOf pieces) = markedIds pieces := by
  induction pieces with
  | nil => rfl
  | cons piece pieces ih =>
    have hfollows := follows_textOf pieces
    have htext : textOf (piece :: pieces) = piece.text ++ textOf pieces := rfl
    rw [htext, markedIds, ← ih]
    rcases piece.quiet_or_endsWith with ⟨hquiet, hmarked⟩ | ⟨tag, last, rfl, hends⟩
    · rw [sdIds_quiet_append hquiet hfollows, hmarked, ite_self, List.nil_append]
    · obtain ⟨before, space, hspace, hbefore, htag⟩ := hends.text_eq
      have hmarked : (Piece.start tag).marked = sdIds (last.attr.text ++ ['>']) := hends.marked
      change sdIds (tag.text ++ textOf pieces) = _
      rw [htag, List.append_assoc, List.cons_append, sdIds_append_space hspace,
        sdIds_eq_nil (not_pair_infix_of_second hbefore), List.nil_append,
        sdIds_end_append last.attr hfollows, hmarked]

end

/-! ## The requests -/

section

variable {create : Nat → ImportRequest → Bool} {hostId storageType : Text} {pieces : List Piece}
  {ids : List Text} {statuses : List Bool}

/-- The statuses after one more request. -/
def statusesAfter (create : Nat → ImportRequest → Bool) (hostId storageType : Text)
    (statuses : List Bool) (id : Text) : List Bool :=
  statuses ++ [create statuses.length (importRequest hostId storageType id)]

/-- All the statuses are good if those before are and each request has been successful. -/
theorem all_foldl_statusesAfter :
    (ids.foldl (statusesAfter create hostId storageType) statuses).all id = true ↔
      statuses.all id = true ∧ ∀ position request,
        (ids.map (importRequest hostId storageType))[position]? = some request →
          create (statuses.length + position) request = true := by
  induction ids generalizing statuses with
  | nil => exact (and_iff_left nofun).symm
  | cons sdId ids ih =>
    rw [List.foldl_cons, ih, statusesAfter, List.all_append, Bool.and_eq_true, and_assoc,
      List.length_append, List.length_singleton]
    refine and_congr_right fun _ => ?_
    rw [List.map_cons]
    constructor
    · rintro ⟨hfirst, hrest⟩ position request hrequest
      cases position with
      | zero =>
        obtain rfl := Option.some.inj hrequest
        simpa using hfirst
      | succ position =>
        have hstatus := hrest position request hrequest
        rwa [Nat.add_right_comm] at hstatus
    · intro hall
      refine ⟨by simpa using hall 0 _ rfl, fun position request hrequest => ?_⟩
      have hstatus := hall (position + 1) request hrequest
      rwa [Nat.add_right_comm]

/-- A response that is not empty is read for ids, and a request is sent for each of them. -/
theorem importBlockStorageDomain_eq {response : Text} (h : response ≠ []) :
    importBlockStorageDomain create hostId (some response) storageType =
      { entries := (sdIds response).map (importRequest hostId storageType)
        result := .ok (((sdIds response).foldl
          (statusesAfter create hostId storageType) []).all id) } := by
  have htruthy : Text.truthy (some response) = true := by
    unfold Text.truthy
    simpa using h
  have hround : ∀ (statuses : List Bool), ∀ sdId ∈ sdIds response, (do
      let request := importRequest hostId storageType sdId
      let status ← Recorded.ask request (.ok (create statuses.length request))
      return statuses ++ [status] : Recorded Empty ImportRequest (List Bool)) =
      { entries := [importRequest hostId storageType sdId]
        result := .ok (statusesAfter create hostId storageType statuses sdId) } :=
    fun _ _ _ => rfl
  unfold importBlockStorageDomain
  rw [htruthy]
  change (sdIds response).foldlM _ [] >>= _ = _
  rw [Recorded.foldlM_eq_of_rounds hround, Recorded.bind_eq_of_ok rfl, List.map_eq_flatMap]
  exact congrArg (Recorded.mk · _) (List.append_nil _)

theorem importRequest_injective : Function.Injective (importRequest hostId storageType) :=
  fun _ _ h => congrArg ImportRequest.id h

theorem Piece.text_ne_nil {piece : Piece} {id : Text} (h : piece.storageDomainId? = some id) :
    piece.text ≠ [] := by
  cases piece with
  | start tag => exact List.cons_ne_nil _ _
  | close name plain => exact nomatch h
  | declaration inner plain => exact nomatch h
  | content text plain => exact nomatch h

/-- An empty response has no elements. -/
theorem domainIds_eq_nil (h : textOf pieces = []) : domainIds pieces = [] := by
  refine List.eq_nil_iff_forall_not_mem.mpr fun id hid => ?_
  obtain ⟨piece, hpiece, hsome⟩ := List.mem_filterMap.mp hid
  exact Piece.text_ne_nil hsome (List.flatMap_eq_nil_iff.mp h piece hpiece)

end

/-- The elements of a response are imported exactly if it is empty, or it has such elements and
what is taken for ids are their ids. -/
theorem importsDomains_iff (create : Nat → ImportRequest → Bool) (hostId storageType : Text)
    (pieces : List Piece) :
    ImportsDomains create hostId storageType pieces
      (importBlockStorageDomain create hostId (some (textOf pieces)) storageType) ↔
      textOf pieces = [] ∨ (domainIds pieces ≠ [] ∧ markedIds pieces = domainIds pieces) := by
  by_cases hempty : textOf pieces = []
  · have hnone := domainIds_eq_nil hempty
    refine iff_of_true ?_ (.inl hempty)
    rw [hempty]
    exact
      { requests := by rw [hnone]; rfl
        status := ⟨false, rfl, iff_of_false Bool.false_ne_true fun h => h.1 hnone⟩ }
  · rw [importBlockStorageDomain_eq hempty, sdIds_textOf, or_iff_right hempty]
    have hall := @all_foldl_statusesAfter create hostId storageType (markedIds pieces) []
    simp only [List.all_nil, true_and, List.length_nil, Nat.zero_add] at hall
    constructor
    · intro hmeets
      have hids : markedIds pieces = domainIds pieces :=
        importRequest_injective.list_map hmeets.requests
      refine ⟨fun hnone => ?_, hids⟩
      obtain ⟨status, hstatus, hiff⟩ := hmeets.status
      obtain rfl := Except.ok.inj hstatus
      refine (hiff.mp (hall.mpr ?_)).1 hnone
      rw [hids, hnone]
      exact nofun
    · rintro ⟨hsome, hids⟩
      refine { requests := congrArg (List.map _) hids, status := ⟨_, rfl, hall.trans ?_⟩ }
      exact (and_iff_right hsome).symm

theorem id_chars : ∀ c ∈ "id".toList, isNameChar c = true :=
  Text.forall_of_all (by decide)

theorem href_chars : ∀ c ∈ "href".toList, isNameChar c = true :=
  Text.forall_of_all (by decide)

theorem storage_domain_chars : ∀ c ∈ "storage_domain".toList, isNameChar c = true :=
  Text.forall_of_all (by decide)

theorem host_chars : ∀ c ∈ "host".toList, isNameChar c = true :=
  Text.forall_of_all (by decide)

theorem value_chars_one : ∀ c ∈ "1".toList, c ∉ ['"', '<', '>'] :=
  Text.forall_of_all (by decide)

theorem value_chars_two : ∀ c ∈ "2".toList, c ∉ ['"', '<', '>'] :=
  Text.forall_of_all (by decide)

theorem blank_ne_nil : [' '] ≠ [] := List.cons_ne_nil _ _

theorem blank_space : ∀ c ∈ [' '], Text.isSpace c = true :=
  Text.forall_of_all (by decide)

theorem no_blank_space : ∀ c ∈ ([] : Text), Text.isSpace c = true := nofun

theorem newline_plain : '>' ∉ ['\n'] := by decide

/-- An attribute after one blank. -/
def spacedAttribute (attr : Attribute) : SpacedAttribute where
  blanks := [' ']
  attr := attr
  blanks_ne_nil := blank_ne_nil
  blanks_space := blank_space

/-- The id of the first domain. -/
def idOne : SpacedAttribute := spacedAttribute ⟨"id".toList, "1".toList, id_chars, value_chars_one⟩

/-- The id of the second domain. -/
def idTwo : SpacedAttribute := spacedAttribute ⟨"id".toList, "2".toList, id_chars, value_chars_two⟩

/-- The reference to the first domain. -/
def hrefOne : SpacedAttribute :=
  spacedAttribute ⟨"href".toList, "1".toList, href_chars, value_chars_one⟩

/-- A tag `storage_domain` and a new line. -/
def storageDomainTag (attributes : List SpacedAttribute) : List Piece :=
  [.start ⟨"storage_domain".toList, attributes, [], false, storage_domain_chars, no_blank_space⟩,
    .content ['\n'] newline_plain]

/-- A tag `host` with an id, and a new line. -/
def hostTag : List Piece :=
  [.start ⟨"host".toList, [idTwo], [], false, host_chars, no_blank_space⟩,
    .content ['\n'] newline_plain]

/-- An id that is not the last attribute is not found, and `True` is returned; the id of a nested
element is taken for that of a storage domain. -/
theorem nested_id_imported :
    (importBlockStorageDomain (fun _ _ => true) "h".toList
        (some (textOf (storageDomainTag [idOne, hrefOne]))) "iscsi".toList).entries = [] ∧
      ¬ ImportsDomains (fun _ _ => true) "h".toList "iscsi".toList
        (storageDomainTag [idOne, hrefOne])
        (importBlockStorageDomain (fun _ _ => true) "h".toList
          (some (textOf (storageDomainTag [idOne, hrefOne]))) "iscsi".toList) ∧
      (importBlockStorageDomain (fun _ _ => true) "h".toList
        (some (textOf (storageDomainTag [idOne] ++ hostTag))) "iscsi".toList).entries =
          ["1".toList, "2".toList].map (importRequest "h".toList "iscsi".toList) := by
  refine ⟨by decide, fun h => ?_, by decide⟩
  have hids : (domainIds (storageDomainTag [idOne, hrefOne])).length = 1 := rfl
  have hnone : (importBlockStorageDomain (fun _ _ => true) "h".toList
      (some (textOf (storageDomainTag [idOne, hrefOne]))) "iscsi".toList).entries.length = 0 := by
    decide
  rw [h.requests, List.length_map, hids] at hnone
  exact absurd hnone (by decide)

end OvirtArt.TestsLib.BlockDomains
