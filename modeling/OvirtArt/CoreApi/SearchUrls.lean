import Mathlib.Data.Bool.AllAny
import OvirtArt.CoreApi.RequestUrls
import OvirtArt.CoreApi.TextReplace
import OvirtArt.Foundation.Pieces
import OvirtArt.Foundation.UriTemplates

set_option autoImplicit false

/-!
# The URL of `query`

The extra parameters are put into the template of the search, which is then expanded with the
constraint.  This file says what a search is to send, and what `query` sends.

A search is right if its URL stands whole in the line of the request, and each parameter is read
back from it in bytes: those of the template, the extra ones, the constraint and the event.  The
expansion of templates is a parameter with one hypothesis; the answer of the engine, and what is
made of it, are left out.
-/

namespace OvirtArt.CoreApi

open OvirtArt.Foundation OvirtArt.Foundation.Percent OvirtArt.Foundation.UriTemplate

/-! ## The parameters of a URL -/

namespace SearchUrl

/-- The name of a parameter and its value, in bytes. -/
abbrev Pair := List UInt8 × Option (List UInt8)

/-- The path ends with the query or the fragment. -/
def pathEnds (sign : Sign) : Bool := sign = .plain '?' || sign = .plain '#'

/-- The parameters in the path: each from a semicolon up to the next one or to the end of the
segment. -/
def matrixTexts (url : List Sign) : List (List Sign) :=
  match afterFirst? (.plain ';') (cutBefore pathEnds url) with
  | none => []
  | some text => (text.splitOn (.plain ';')).map (upTo (.plain '/'))

/-- The parameters in the query. -/
def queryTexts (url : List Sign) : List (List Sign) :=
  match afterFirst? (.plain '?') (upTo (.plain '#') url) with
  | none => []
  | some text => text.splitOn (.plain '&')

/-- A parameter is decoded after it was cut at its first equals sign. -/
def readPair (text : List Sign) : Pair :=
  (bytes (upTo (.plain '=') text), (afterFirst? (.plain '=') text).map bytes)

/-- The parameters that are not empty. -/
def readPairs (texts : List (List Sign)) : List Pair :=
  (texts.filter fun text => !text.isEmpty).map readPair

/-- The parameters in the path of a URL. -/
def matrixPairs (url : Text) : List Pair := readPairs (matrixTexts (signs url))

/-- The parameters in the query of a URL. -/
def queryPairs (url : Text) : List Pair := readPairs (queryTexts (signs url))

/-- A path with parameters, and a query. -/
def assemble (path : Text) (matrix query : List Text) : Text :=
  path ++ delimited ';' matrix ++ '?' :: Text.join ['&'] query

end SearchUrl

open SearchUrl

/-! ## Searches -/

/-- A place in the template of a search: a parameter of the template itself, an extra parameter,
the constraint or the event from which on is searched. -/
inductive Slot where
  | fixed (text : Text)
  | param (name value : Text)
  | search
  | fromEvent
  deriving DecidableEq

namespace Slot

/-- What the template has there. -/
def text : Slot → Text
  | fixed text => text
  | param name value => name ++ '=' :: value
  | search => "search=".toList ++ '\x7b' :: "query".toList ++ ['\x7d']
  | fromEvent => "from=".toList ++ '\x7b' :: "event_id".toList ++ ['\x7d']

/-- The text of a slot that is not expanded to a value. -/
def literal? : Slot → Option Text
  | fixed text => some text
  | param name value => some (name ++ '=' :: value)
  | search => none
  | fromEvent => none

/-- What it is expanded to, where these characters of literal text are kept. -/
def expanded (keep : Char → Bool) (values : Values) : Slot → Text
  | fixed text => encode keep text
  | param name value => encode keep (name ++ '=' :: value)
  | search => "search=".toList ++ encode unreserved (valueOf values "query".toList)
  | fromEvent => "from=".toList ++ encode unreserved (valueOf values "event_id".toList)

end Slot

/-- What is kept of literal text where the spaces are replaced by `%20`. -/
def sentChar (c : Char) : Bool := literalChar c && c ≠ ' '

/-- The template of a search, well formed: a path with parameters and a query, which has the
variable for the constraint once, and at most one variable for the event. -/
structure SearchTemplate where
  path : Text
  matrix : List Slot
  query : List Slot
  path_literal : isWellFormed path
  path_plain : ∀ c ∈ [';', '?', '#'], c ∉ path
  matrix_slots : ∀ slot ∈ matrix, slot = .fromEvent ∨
    ∃ text, slot = .fixed text ∧ isWellFormed text ∧ ∀ c ∈ [';', '/', '?', '#'], c ∉ text
  query_slots : ∀ slot ∈ query, slot = .search ∨ slot = .fromEvent ∨
    ∃ text, slot = .fixed text ∧ isWellFormed text ∧ ∀ c ∈ ['&', '?', '#'], c ∉ text
  one_search : query.count .search = 1
  one_event : (matrix ++ query).count .fromEvent ≤ 1

/-- The text of the template. -/
def SearchTemplate.text (template : SearchTemplate) : Text :=
  assemble template.path (template.matrix.map Slot.text) (template.query.map Slot.text)

/-- What is searched for: the extra parameters of events stand in the path, those of other
collections in the query. -/
structure Search where
  template : SearchTemplate
  events : Bool
  params : List (Text × Text)
  constraint : Text
  eventId : Option Text

namespace Search

variable (s : Search)

/-- The extra parameters as slots. -/
def paramSlots : List Slot := s.params.map fun param => .param param.1 param.2

/-- The slots in the path, with the extra parameters of an event search. -/
def matrixSlots : List Slot :=
  if s.events then s.template.matrix ++ s.paramSlots else s.template.matrix

/-- The slots in the query, with the extra parameters of any other search. -/
def querySlots : List Slot :=
  if s.events then s.template.query else s.template.query ++ s.paramSlots

/-- All slots of the template that is expanded. -/
def slots : List Slot := s.matrixSlots ++ s.querySlots

/-- The template with the extra parameters. -/
def text : Text :=
  assemble s.template.path (s.matrixSlots.map Slot.text) (s.querySlots.map Slot.text)

/-- The id of an event that is neither `None` nor empty. -/
def given : Bool := Text.truthy s.eventId

/-! ## What is asked of the URL -/

/-- A parameter with its value; those of the template as they stand there. -/
def literalPairs : Slot → List Pair
  | .fixed text => readPairs [signs (encode sentChar text)]
  | .param name value => [(utf8 name, some (utf8 value))]
  | .search => []
  | .fromEvent => []

/-- The parameter that carries the constraint. -/
def searchPair : Pair := (utf8 "search".toList, some (utf8 s.constraint))

/-- The parameter that carries the event id, if one is given. -/
def eventPairs : List Pair := s.eventId.toList.map fun id => (utf8 "from".toList, some (utf8 id))

/-- What a slot stands for in the URL that is meant. -/
def slotPairs : Slot → List Pair
  | .search => [s.searchPair]
  | .fromEvent => s.eventPairs
  | slot => literalPairs slot

/-- The line of a request ends its URL there, or is broken. -/
def breaks (c : Char) : Bool := c.toNat ≤ 32 || c.toNat == 127

/-- The URL stands whole in the line of the request, and of it are read the parameters of the
template, the extra parameters, the constraint, and the id of the event if there is one; those of
the path are found there. -/
structure Right (url : Text) : Prop where
  whole : ∀ c ∈ url, breaks c = false
  read : (matrixPairs url ++ queryPairs url).Perm
    (s.slots.flatMap literalPairs ++ s.searchPair :: s.eventPairs)
  placed : (matrixPairs url).Perm (s.matrixSlots.flatMap s.slotPairs)

/-- The characters that an extra parameter would have to be rid of. -/
def special : List Char :=
  if s.events then ['\x7b', '\x7d', '%', '#', ';', '/', '?'] else ['\x7b', '\x7d', '%', '#', '&']

/-- The text that is taken out of a URL without an event. -/
def fromText : Text := "from=".toList

/-- There is nothing special in the extra parameters, no control character, and no space if an event
is given; `from=` is nowhere if none is given, and an id that is given is not empty and has its place
in the template. -/
structure Clean : Prop where
  plain : ∀ param ∈ s.params, ∀ c ∈ s.special, c ∉ param.1 ++ '=' :: param.2
  unbroken : ∀ param ∈ s.params, ∀ c ∈ param.1 ++ '=' :: param.2,
    breaks c → c = ' ' ∧ s.given = false
  names : ∀ param ∈ s.params, '=' ∉ param.1
  kept : s.given = false → ∀ slot ∈ s.slots, ∀ text ∈ slot.literal?, ¬ fromText <:+: text
  placed : ∀ id, s.eventId = some id → id ≠ [] ∧ .fromEvent ∈ s.slots

/-- The extra parameters can stand in a template, and no parameter of the template itself has both
encoded bytes and `from=`. -/
structure Regular : Prop where
  literal : ∀ param ∈ s.params, isLiteral (param.1 ++ '=' :: param.2)
  unencoded : ∀ text, .fixed text ∈ s.slots → '%' ∈ text → ¬ fromText <:+: text

end Search

/-! ## What is sent -/

/-- `uritemplate.expand` does what is written about templates, and copies the literal characters that
their grammar leaves out. -/
def ExpandsTemplates {Obj : Type} (py : Objects Obj) : Prop :=
  ∀ template values uri, expand values template = some uri → py.expand template values = .ok uri

namespace RestUtil

variable {Obj : Type} (py : Objects Obj) (self : RestUtil)

/-- The template that `query` takes. -/
def searchHref (args : QueryArgs) : Except PyException Text :=
  if Text.truthy args.href then .ok (args.href.getD [])
  else self.link (self.collectionName ++ "/search".toList)

/-- The search that the arguments of `query` stand for. -/
def search (args : QueryArgs) (template : SearchTemplate) : Search where
  template := template
  events := self.collectionName = "events".toList
  params := args.params
  constraint := args.constraint
  eventId := args.eventId

end RestUtil

namespace SearchUrl

variable {values : Values} {path : Text} {matrix query : List Text}

theorem assemble_cons (path : Text) (matrix : List Text) (first : Text) (rest : List Text) :
    assemble path matrix (first :: rest) =
      path ++ delimited ';' matrix ++ '?' :: (first ++ delimited '&' rest) := by
  rw [assemble, Text.join_eq_delimited]

theorem expands_delimited {sep : Char} (hsep : Expands values [sep] [sep]) {slots : List Slot}
    (h : ∀ slot ∈ slots, Expands values slot.text (slot.expanded literalChar values)) :
    Expands values (delimited sep (slots.map Slot.text))
      (delimited sep (slots.map (Slot.expanded literalChar values))) := by
  induction slots with
  | nil => exact Expands.nil
  | cons slot rest ih =>
    rw [List.forall_mem_cons] at h
    exact (hsep.append h.1).append (ih h.2)

theorem expands_assemble (hpath : isLiteral path) {matrix query : List Slot}
    (h : ∀ slot ∈ matrix ++ query, Expands values slot.text (slot.expanded literalChar values)) :
    Expands values (assemble path (matrix.map Slot.text) (query.map Slot.text))
      (assemble (encode literalChar path) (matrix.map (Slot.expanded literalChar values))
        (query.map (Slot.expanded literalChar values))) := by
  have hchar : ∀ c ∈ [';', '?', '&'], Expands values [c] [c] := by
    intro c hc
    have hall : ∀ d ∈ [';', '?', '&'], d ≠ '\x7b' ∧ d ≠ '\x7d' ∧ d ≠ '%' ∧ literalChar d :=
      List.all_iff_forall_prop.mp (by decide)
    obtain ⟨hopen, hclose, hpercent, hliteral⟩ := hall c hc
    exact expands_char hopen hclose hpercent hliteral
  rw [List.forall_mem_append] at h
  have hmatrix := expands_delimited (hchar ';' (by simp)) h.1
  have hbefore := (expands_literal hpath).append hmatrix
  have hquestion := hbefore.append (hchar '?' (by simp))
  cases query with
  | nil => exact hquestion
  | cons slot rest =>
    rw [List.forall_mem_cons] at h
    have hquery := h.2.1.append (expands_delimited (hchar '&' (by simp)) h.2.2)
    rw [List.map_cons, List.map_cons, assemble_cons, assemble_cons]
    have hall := hquestion.append hquery
    rw [List.append_assoc, List.append_assoc _ ['?']] at hall
    exact hall

theorem replace_assemble {old : Text} (hold : old ≠ []) (h : ∀ c ∈ [';', '?', '&'], c ∉ old)
    (new path : Text) (matrix query : List Text) :
    Text.replace (assemble path matrix query) old new =
      assemble (path.replace old new) (matrix.map fun text => text.replace old new)
        (query.map fun text => text.replace old new) := by
  have hmatrix : old ≠ [] ∧ ';' ∉ old := ⟨hold, h ';' (by simp)⟩
  have hquestion := h '?' (by simp)
  have hand := h '&' (by simp)
  cases query with
  | nil =>
    unfold assemble
    rw [Text.replace_append_cons hquestion hold, Text.replace_append_delimited hmatrix.2 hold]
    rfl
  | cons first rest =>
    rw [List.map_cons, assemble_cons, assemble_cons, Text.replace_append_cons hquestion hold,
      Text.replace_append_delimited hmatrix.2 hold, Text.replace_append_delimited hand hold]

/-- A character that is no separator stands in the path or in one of the texts. -/
theorem mem_assemble_iff {c : Char} (hc : c ∉ [';', '?', '&']) :
    c ∈ assemble path matrix query ↔ c ∈ path ∨ ∃ text ∈ matrix ++ query, c ∈ text := by
  simp only [List.mem_cons, List.not_mem_nil, or_false, not_or] at hc
  obtain ⟨hsemi, hquestion, hand⟩ := hc
  cases query with
  | nil => simp [assemble, Text.join, mem_delimited, hsemi, hquestion]
  | cons first rest =>
    rw [assemble_cons]
    simp [mem_delimited, hsemi, hquestion, hand, or_and_right, exists_or]

end SearchUrl

namespace Slot

variable {values : Values}

theorem expands {slot : Slot} (h : ∀ text ∈ slot.literal?, isLiteral text) :
    Expands values slot.text (slot.expanded literalChar values) := by
  cases slot with
  | fixed text => exact expands_literal (h text rfl)
  | param name value => exact expands_literal (h _ rfl)
  | search =>
    have hname : Expands values "search=".toList (encode literalChar "search=".toList) :=
      expands_literal (by decide)
    have hvarchar : ∀ c ∈ "query".toList, varchar c := List.all_eq_true.mp (by decide)
    have hvariable := @expands_variable values "query".toList hvarchar (by simp)
    exact hname.append hvariable
  | fromEvent =>
    have hname : Expands values "from=".toList (encode literalChar "from=".toList) :=
      expands_literal (by decide)
    have hvarchar : ∀ c ∈ "event_id".toList, varchar c :=
      List.all_eq_true.mp (by decide)
    have hvariable := @expands_variable values "event_id".toList hvarchar (by simp)
    exact hname.append hvariable

/-- Replacing the spaces is keeping all literal text but them. -/
theorem replace_space_encode (text : Text) :
    Text.replace (encode literalChar text) [' '] "%20".toList = encode sentChar text := by
  rw [Text.replace_char, encode, List.flatMap_assoc]
  refine List.flatMap_congr fun c _ => ?_
  have hsame : ∀ {piece : Text}, ' ' ∉ piece →
      (piece.flatMap fun d => if d = ' ' then "%20".toList else [d]) = piece := by
    intro piece hnot
    rw [← Text.replace_char, Text.replace_eq_self_of_not_mem List.mem_cons_self hnot]
  by_cases hspace : c = ' '
  · subst hspace
    decide
  · have hkeep : sentChar c = literalChar c := by simp [sentChar, hspace]
    have hencoded : encodeChar sentChar c = encodeChar literalChar c := by
      rw [encodeChar, hkeep]
      rfl
    rw [hencoded]
    exact hsame fun hmem => hspace (mem_encodeChar (by decide) hmem).1.symm

theorem encode_of_not_mem {text : Text} (h : ' ' ∉ text) :
    encode literalChar text = encode sentChar text := by
  rw [← replace_space_encode, Text.replace_eq_self_of_not_mem List.mem_cons_self]
  exact fun hmem => h ((mem_encode_iff (by decide)).mp hmem).1

theorem expanded_of_not_mem {slot : Slot} (h : ∀ text ∈ slot.literal?, ' ' ∉ text) :
    slot.expanded literalChar values = slot.expanded sentChar values := by
  cases slot with
  | fixed text => exact encode_of_not_mem (h text rfl)
  | param name value => exact encode_of_not_mem (h _ rfl)
  | search => rfl
  | fromEvent => rfl

theorem replace_space_expanded (values : Values) (slot : Slot) :
    Text.replace (slot.expanded literalChar values) [' '] "%20".toList =
      slot.expanded sentChar values := by
  have hvalue : ∀ name value : Text, ' ' ∉ name →
      Text.replace (name ++ encode unreserved value) [' '] "%20".toList =
        name ++ encode unreserved value := by
    intro name value hname
    refine Text.replace_eq_self_of_not_mem List.mem_cons_self (fun hmem => ?_) _
    refine (List.mem_append.mp hmem).elim hname fun hencoded => ?_
    exact absurd ((mem_encode_iff (by decide)).mp hencoded).2 (by decide)
  cases slot with
  | fixed text => exact replace_space_encode text
  | param name value => exact replace_space_encode _
  | search => exact hvalue _ _ (by decide)
  | fromEvent => exact hvalue _ _ (by decide)

end Slot

namespace SearchTemplate

variable (template : SearchTemplate)

theorem query_ne_nil : template.query ≠ [] := by
  intro hnil
  have hone := template.one_search
  rw [hnil] at hone
  exact absurd hone (by decide)

theorem question_not_mem_text {slot : Slot} (h : slot ∈ template.matrix ++ template.query) :
    '?' ∉ slot.text := by
  have hsearch : '?' ∉ Slot.search.text := by decide
  have hevent : '?' ∉ Slot.fromEvent.text := by decide
  rcases List.mem_append.mp h with hmatrix | hquery
  · rcases template.matrix_slots slot hmatrix with rfl | ⟨text, rfl, -, hplain⟩
    · exact hevent
    · exact hplain '?' (by simp)
  · rcases template.query_slots slot hquery with rfl | rfl | ⟨text, rfl, -, hplain⟩
    · exact hsearch
    · exact hevent
    · exact hplain '?' (by simp)

/-- The template is cut at its only question mark. -/
theorem splitOn_text : template.text.splitOn '?' =
    [template.path ++ delimited ';' (template.matrix.map Slot.text),
      Text.join ['&'] (template.query.map Slot.text)] := by
  have hslots : ∀ {slots : List Slot}, slots ⊆ template.matrix ++ template.query →
      ∀ text ∈ slots.map Slot.text, '?' ∉ text := by
    intro slots hsub text htext
    obtain ⟨slot, hslot, rfl⟩ := List.mem_map.mp htext
    exact template.question_not_mem_text (hsub hslot)
  have hpath : '?' ∉ template.path ++ delimited ';' (template.matrix.map Slot.text) := by
    rw [List.mem_append, not_or]
    exact ⟨template.path_plain '?' (by simp),
      not_mem_delimited (by decide) (hslots (List.subset_append_left _ _))⟩
  have hquery : '?' ∉ Text.join ['&'] (template.query.map Slot.text) :=
    Text.not_mem_join (by decide) (hslots (List.subset_append_right _ _))
  rw [text, assemble, List.splitOn_append_cons_self, List.splitOn_eq_singleton hpath,
    List.splitOn_eq_singleton hquery]
  rfl

end SearchTemplate

namespace RestUtil

variable {Obj : Type} {py : Objects Obj} {self : RestUtil}

/-- The template with the extra parameters. -/
def withParams (self : RestUtil) (args : QueryArgs) (href : Text) : Except PyException Text :=
  let searchParams := args.params.map fun param => param.1 ++ '=' :: param.2
  if self.collectionName = "events".toList then
    match href.splitOn '?' with
    | [beforeSearch, afterSearch] =>
      .ok (Text.join [';'] (beforeSearch :: searchParams) ++ '?' :: afterSearch)
    | _ => .error .valueError
  else if searchParams.isEmpty then .ok href
  else .ok (href ++ '&' :: Text.join ['&'] searchParams)

theorem queryHref_eq_bind (args : QueryArgs) : self.queryHref py args =
    (self.searchHref args).bind fun href => (self.withParams args href).bind fun href =>
      (py.expand href [("query".toList, args.constraint)]).bind fun uri =>
        if Text.truthy args.eventId then
          py.expand href
            [("query".toList, args.constraint), ("event_id".toList, args.eventId.getD [])]
        else .ok ((uri.replace [' '] "%20".toList).replace "from=".toList []) := by
  have hwith : ∀ (before : Except PyException Text) (next : Text → Except PyException Text),
      (before >>= fun href =>
        if self.collectionName = "events".toList then
          match href.splitOn '?' with
          | [beforeSearch, afterSearch] =>
            Except.ok (Text.join [';'] (beforeSearch :: args.params.map fun param =>
              param.1 ++ '=' :: param.2) ++ '?' :: afterSearch) >>= next
          | _ => Except.error PyException.valueError >>= next
        else if (args.params.map fun param => param.1 ++ '=' :: param.2).isEmpty then
          Except.ok href >>= next
        else Except.ok (href ++ '&' :: Text.join ['&'] (args.params.map fun param =>
          param.1 ++ '=' :: param.2)) >>= next) =
      before.bind fun href => (self.withParams args href).bind next := by
    intro before next
    refine congrArg (Except.bind before) (funext fun href => ?_)
    unfold withParams
    dsimp only
    split
    · split <;> rfl
    · split <;> rfl
  unfold queryHref searchHref
  by_cases hhref : Text.truthy args.href
  · simp only [if_pos hhref]
    exact hwith _ _
  · simp only [if_neg hhref]
    exact hwith _ _

theorem withParams_text (args : QueryArgs) (template : SearchTemplate) :
    self.withParams args template.text = .ok (self.search args template).text := by
  have hparams : (args.params.map fun param => param.1 ++ '=' :: param.2) =
      (self.search args template).paramSlots.map Slot.text := by
    unfold Search.paramSlots
    rw [List.map_map]
    rfl
  unfold withParams Search.text Search.matrixSlots Search.querySlots
  rw [hparams]
  by_cases hevents : self.collectionName = "events".toList
  · have htrue : (self.search args template).events = true := decide_eq_true hevents
    rw [if_pos hevents, if_pos htrue, if_pos htrue, template.splitOn_text]
    dsimp only
    change Except.ok _ = Except.ok (assemble template.path
      ((template.matrix ++ _).map Slot.text) (template.query.map Slot.text))
    rw [Text.join_eq_delimited, List.map_append, assemble, delimited_append]
    simp
  · have hfalse : ¬ (self.search args template).events = true :=
      fun h => hevents (of_decide_eq_true h)
    rw [if_neg hevents, if_neg hfalse, if_neg hfalse]
    cases hslots : (self.search args template).paramSlots with
    | nil =>
      rw [List.append_nil]
      rfl
    | cons slot rest =>
      obtain ⟨first, others, hquery⟩ := List.exists_cons_of_ne_nil template.query_ne_nil
      rw [if_neg (by simp)]
      change Except.ok (template.text ++ _) = Except.ok (assemble template.path
        (template.matrix.map Slot.text) ((template.query ++ slot :: rest).map Slot.text))
      rw [SearchTemplate.text, hquery, List.map_cons, List.map_cons, List.cons_append,
        List.map_cons, assemble_cons, assemble_cons, Text.join_eq_delimited, List.map_append,
        delimited_append, List.map_cons, delimited_cons]
      simp

end RestUtil

/-! ## The URL slot by slot -/

namespace Search

variable (s : Search)

/-- The values with which the template is expanded at last. -/
def values : Values :=
  ("query".toList, s.constraint) ::
    if s.given then [("event_id".toList, s.eventId.getD [])] else []

/-- What becomes of a part of the URL in the end. -/
def strip (text : Text) : Text := if s.given then text else text.replace fromText []

/-- What is sent for a slot. -/
def sentSlot (slot : Slot) : Text := s.strip (slot.expanded sentChar s.values)

/-- What is sent, without spaces. -/
def sent : Text :=
  assemble (s.strip (encode sentChar s.template.path)) (s.matrixSlots.map s.sentSlot)
    (s.querySlots.map s.sentSlot)

/-- What the template is expanded to. -/
def expansion (keep : Char → Bool) (values : Values) : Text :=
  assemble (encode keep s.template.path) (s.matrixSlots.map (Slot.expanded keep values))
    (s.querySlots.map (Slot.expanded keep values))

theorem expands_text (values : Values)
    (h : ∀ slot ∈ s.slots, ∀ text ∈ slot.literal?, isLiteral text) :
    expand values s.text = some (s.expansion literalChar values) :=
  (expands_assemble (isLiteral_of_isWellFormed s.template.path_literal)
    fun slot hslot => Slot.expands (h slot hslot)).expand_eq

theorem fromText_ne_nil : fromText ≠ [] := by decide

theorem expansion_of_given (h : s.given) : s.expansion sentChar s.values = s.sent := by
  have hstrip : s.strip = id := funext fun text => if_pos h
  have hslot : s.sentSlot = Slot.expanded sentChar s.values := by
    unfold sentSlot
    rw [hstrip]
    rfl
  rw [sent, hslot, hstrip]
  rfl

theorem replace_expansion {old : Text} (hold : old ≠ []) (h : ∀ c ∈ [';', '?', '&'], c ∉ old)
    (keep : Char → Bool) (new : Text) :
    Text.replace (s.expansion keep s.values) old new =
      assemble (Text.replace (encode keep s.template.path) old new)
        (s.matrixSlots.map fun slot => Text.replace (slot.expanded keep s.values) old new)
        (s.querySlots.map fun slot => Text.replace (slot.expanded keep s.values) old new) := by
  rw [expansion, replace_assemble hold h, List.map_map, List.map_map]
  rfl

/-- Without an event the spaces are replaced, and `from=` is taken out. -/
theorem replace_expansion_of_not_given (h : ¬ s.given) :
    Text.replace (Text.replace (s.expansion literalChar s.values) [' '] "%20".toList)
      fromText [] = s.sent := by
  have hstrip : s.strip = fun text => text.replace fromText [] := funext fun text => if_neg h
  have hspaces : Text.replace (s.expansion literalChar s.values) [' '] "%20".toList =
      s.expansion sentChar s.values := by
    rw [s.replace_expansion (List.cons_ne_nil _ _) (List.all_iff_forall_prop.mp (by decide)),
      Slot.replace_space_encode, expansion]
    simp only [Slot.replace_space_expanded]
  have hslot : s.sentSlot =
      fun slot => Text.replace (slot.expanded sentChar s.values) fromText [] := by
    unfold sentSlot
    rw [hstrip]
  rw [hspaces, s.replace_expansion fromText_ne_nil (List.all_iff_forall_prop.mp (by decide)), sent,
    hslot, hstrip]

theorem mem_matrixSlots {slot : Slot} (h : slot ∈ s.matrixSlots) : slot ∈ s.template.matrix ∨
    s.events = true ∧ ∃ param ∈ s.params, slot = .param param.1 param.2 := by
  unfold matrixSlots at h
  split at h
  case isTrue hevents =>
    rcases List.mem_append.mp h with hown | hparam
    · exact .inl hown
    · obtain ⟨param, hmem, rfl⟩ := List.mem_map.mp hparam
      exact .inr ⟨hevents, param, hmem, rfl⟩
  case isFalse => exact .inl h

theorem mem_querySlots {slot : Slot} (h : slot ∈ s.querySlots) : slot ∈ s.template.query ∨
    s.events = false ∧ ∃ param ∈ s.params, slot = .param param.1 param.2 := by
  unfold querySlots at h
  split at h
  case isTrue => exact .inl h
  case isFalse hevents =>
    rcases List.mem_append.mp h with hown | hparam
    · exact .inl hown
    · obtain ⟨param, hmem, rfl⟩ := List.mem_map.mp hparam
      exact .inr ⟨Bool.eq_false_of_not_eq_true hevents, param, hmem, rfl⟩

/-- A literal text of a slot is the template's own or that of an extra parameter. -/
theorem literal_cases {slot : Slot} (h : slot ∈ s.slots) :
    slot = .search ∨ slot = .fromEvent ∨ (∃ text, slot = .fixed text ∧ isWellFormed text) ∨
      ∃ param ∈ s.params, slot = .param param.1 param.2 := by
  rcases List.mem_append.mp h with hmatrix | hquery
  · rcases s.mem_matrixSlots hmatrix with hown | ⟨-, hparam⟩
    · rcases s.template.matrix_slots slot hown with hevent | ⟨text, heq, hliteral, -⟩
      · exact .inr (.inl hevent)
      · exact .inr (.inr (.inl ⟨text, heq, hliteral⟩))
    · exact .inr (.inr (.inr hparam))
  · rcases s.mem_querySlots hquery with hown | ⟨-, hparam⟩
    · rcases s.template.query_slots slot hown with hsearch | hevent | ⟨text, heq, hliteral, -⟩
      · exact .inl hsearch
      · exact .inr (.inl hevent)
      · exact .inr (.inr (.inl ⟨text, heq, hliteral⟩))
    · exact .inr (.inr (.inr hparam))

/-- There are spaces in the extra parameters only. -/
theorem expansion_of_unspaced (h : ∀ param ∈ s.params, ' ' ∉ param.1 ++ '=' :: param.2) :
    s.expansion literalChar s.values = s.expansion sentChar s.values := by
  have hown : ∀ {text : Text}, isWellFormed text → ' ' ∉ text := fun hwell hmem =>
    absurd (excluded_of_isWellFormed hwell hmem) (by decide)
  have hslots : ∀ slot ∈ s.slots,
      slot.expanded literalChar s.values = slot.expanded sentChar s.values := by
    intro slot hslot
    refine Slot.expanded_of_not_mem fun text htext => ?_
    rcases s.literal_cases hslot with rfl | rfl | ⟨own, rfl, hwell⟩ | ⟨param, hparam, rfl⟩
    · exact nomatch htext
    · exact nomatch htext
    · obtain rfl := Option.some.inj htext
      exact hown hwell
    · obtain rfl := Option.some.inj htext
      exact h param hparam
  unfold expansion
  rw [Slot.encode_of_not_mem (hown s.template.path_literal),
    List.map_congr_left fun slot hslot => hslots slot (List.mem_append_left _ hslot),
    List.map_congr_left fun slot hslot => hslots slot (List.mem_append_right _ hslot)]

end Search

/-- With an event `query` sends the expansion as it is, and without one what its search puts
together. -/
theorem RestUtil.queryHref_eq {Obj : Type} {py : Objects Obj} {self : RestUtil}
    {args : QueryArgs} {template : SearchTemplate} (hpy : ExpandsTemplates py)
    (hhref : self.searchHref args = .ok template.text)
    (h : ∀ slot ∈ (self.search args template).slots, ∀ text ∈ slot.literal?, isLiteral text) :
    self.queryHref py args = .ok (if (self.search args template).given then
      (self.search args template).expansion literalChar (self.search args template).values
      else (self.search args template).sent) := by
  have hexpand := fun values => hpy _ values _ ((self.search args template).expands_text values h)
  rw [queryHref_eq_bind, hhref]
  change (self.withParams args template.text).bind _ = _
  rw [withParams_text]
  change (py.expand (self.search args template).text _).bind _ = _
  rw [hexpand]
  change (if Text.truthy args.eventId then py.expand (self.search args template).text _
    else Except.ok _) = _
  rw [hexpand]
  by_cases hgiven : (self.search args template).given
  · have htruthy : Text.truthy args.eventId := hgiven
    rw [if_pos htruthy, if_pos hgiven, Search.values, if_pos hgiven]
    rfl
  · have hfalsy : ¬ Text.truthy args.eventId := hgiven
    rw [if_neg hfalsy, if_neg hgiven,
      ← (self.search args template).replace_expansion_of_not_given hgiven, Search.values,
      if_neg hgiven]
    rfl

end OvirtArt.CoreApi
