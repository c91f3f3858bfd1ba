import OvirtArt.TestsLib.DataStructures

set_option autoImplicit false

/-!
# `rhevm_api/tests_lib/high_level/datastructures.py`: when a round trip succeeds

What `exportChildren` writes is read back, and built into an object with the same values,
exactly for flat objects without a namespace whose members with a value have names that
`buildChildren` gets back from the names in the tags, and whose strings can be encoded,
are of the characters of XML and have no returns, which a reader takes for line ends.

The result is about every table of members.  For those of `HostStorage` and
`StorageConnection`, which add strings to the table of a generated class, nothing more is
asked than that: the sample below is an object of such a table.
-/

namespace OvirtArt.TestsLib.HighLevel.DataStructures

open Foundation.Xml

variable {Element : Type} {cls : ElementClass Element}

/-! ## Formatting -/

theorem replaceChar_eq_escape (text : Text) :
    replaceChar '>' "&gt;".toList (replaceChar '<' "&lt;".toList
      (replaceChar '&' "&amp;".toList text)) = escape text := by
  unfold replaceChar escape
  rw [List.flatMap_assoc, List.flatMap_assoc]
  refine List.flatMap_congr fun c _ => ?_
  unfold escapeChar
  by_cases hamp : c = '&'
  · subst hamp
    decide
  · by_cases hlt : c = '<'
    · subst hlt
      decide
    · by_cases hgt : c = '>'
      · subst hgt
        decide
      · simp [hamp, hlt, hgt]

theorem formatString_str (text : Text) :
    formatString cls (.str text) = .ok (escape text) := by
  unfold formatString encode quoteXml
  cases text with
  | nil => rfl
  | cons c rest =>
    rw [pyStr, replaceChar_eq_escape]
    rfl

/-- What stands between the tags of a member with a scalar value. -/
def contentOf : Value Element → Option Text
  | .str text => some text
  | .bool true => some "true".toList
  | .bool false => some "false".toList
  | _ => none

theorem formatBoolean_bool (b : Bool) : ∃ content,
    contentOf (.bool b : Value Element) = some content ∧
      formatBoolean cls (.bool b) = .ok (escape content) := by
  have htrue : "true".toList = escape "true".toList := by decide
  have hfalse : "false".toList = escape "false".toList := by decide
  cases b with
  | true => exact ⟨_, rfl, congrArg Except.ok htrue⟩
  | false => exact ⟨_, rfl, congrArg Except.ok hfalse⟩

/-- The value is one that a member of this kind can be given. -/
def Fits (spec : MemberSpec) : Value Element → Prop
  | .none => spec.container = false
  | .str _ => spec = ⟨.xsString, false⟩
  | .bytes _ => spec = ⟨.xsString, false⟩
  | .bool _ => spec = ⟨.xsBoolean, false⟩
  | .element _ => spec.isScalar = false ∧ spec.container = false
  | .elements _ => spec.isScalar = false ∧ spec.container = true

/-- What is written for a member with a scalar value. -/
def elementText (level : Nat) (namespace_ entityName content : Text) : Text :=
  showIndent level ++
    (('<' :: (namespace_ ++ entityName) ++ ['>']) ++
      (escape content ++ ('<' :: '/' :: (entityName ++ namespace_) ++ ['>']))) ++
    ['\n']

/-- The name that a member has in its tags. -/
def Name.entity (name : Name) : Text := name.text.rdropWhile (· = '_')

/-- What is written for the member, where it holds neither elements nor an element. -/
def memberText (level : Nat) (namespace_ : Text) (name : Name) (value : Value Element) : Text :=
  match contentOf value with
  | none => []
  | some content => elementText level namespace_ name.entity content

/-- Nothing is nested in the value, and it can be encoded. -/
def Flat : Value Element → Prop
  | .bytes _ => False
  | .element _ => False
  | .elements items => items = []
  | _ => True

variable {obj : Object Element} {table : MemberTable} {row : Name × MemberSpec}
  {value : Value Element} {writes : List (Name × Text)} {name : Name}
  {rows : List (Name × MemberSpec)} {ns : Namespace} {spec : MemberSpec} {level : Nat} {c : Char}

theorem exportMember_flat (level : Nat) (namespace_ : Text) (name : Name) (hfits : Fits spec value)
    (hflat : Flat value) :
    exportMember cls level namespace_ name spec value =
      .ok (memberText level namespace_ name value) := by
  cases value with
  | none =>
    unfold exportMember
    simp only [Fits] at hfits
    rw [hfits]
    cases spec.isScalar <;> rfl
  | str text =>
    obtain rfl : spec = ⟨.xsString, false⟩ := hfits
    change (formatString cls (.str text) >>= _) = _
    rw [formatString_str]
    rfl
  | bytes string => exact hflat.elim
  | bool b =>
    obtain rfl : spec = ⟨.xsBoolean, false⟩ := hfits
    obtain ⟨content, hcontent, hformat⟩ := @formatBoolean_bool Element cls b
    change (formatBoolean cls (.bool b) >>= _) = _
    rw [hformat, memberText, hcontent]
    rfl
  | element item => exact hflat.elim
  | elements items =>
    obtain ⟨hscalar, hcontainer⟩ := hfits
    obtain rfl : items = [] := hflat
    simp only [exportMember, hscalar, hcontainer]
    rfl

/-- An export that returns has written every member. -/
theorem exportRows_ok {level : Nat} {namespace_ text : Text}
    (hok : exportRows cls level namespace_ obj rows = .ok text) :
    ∀ row ∈ rows, ∃ part,
      exportMember cls level namespace_ row.1 row.2 (obj row.1) = .ok part := by
  induction rows generalizing text with
  | nil => exact nofun
  | cons first rest ih =>
    rw [exportRows] at hok
    cases hfirst : exportMember cls level namespace_ first.1 first.2 (obj first.1) with
    | error e =>
      rw [hfirst] at hok
      exact nomatch hok
    | ok part =>
      rw [hfirst] at hok
      cases hrest : exportRows cls level namespace_ obj rest with
      | error e =>
        rw [hrest] at hok
        exact nomatch hok
      | ok others =>
        intro row hrow
        rcases List.mem_cons.mp hrow with rfl | hrow
        · exact ⟨part, hfirst⟩
        · exact ih hrest row hrow

/-! ## Names in tags -/

theorem isNameStart_of_alpha (hc : (c.isAlpha || c = '_') = true) : isNameStart c = true := by
  rw [Bool.or_eq_true] at hc
  rcases hc with hc | hc
  · change (decide (c.val ≥ 'A'.val ∧ c.val ≤ 'Z'.val) ||
      decide (c.val ≥ 'a'.val) && decide (c.val ≤ 'z'.val)) = true at hc
    simp only [Bool.or_eq_true, Bool.and_eq_true, decide_eq_true_eq, ge_iff_le,
      UInt32.le_iff_toNat_le] at hc
    simp only [isNameStart, inRanges, startRanges, List.any_cons, Bool.or_eq_true,
      Bool.and_eq_true, decide_eq_true_eq, Char.toNat]
    rcases hc with ⟨hlow, hhigh⟩ | ⟨hlow, hhigh⟩
    · exact Or.inl ⟨hlow, hhigh⟩
    · exact Or.inr (Or.inr (Or.inl ⟨hlow, hhigh⟩))
  · obtain rfl : c = '_' := by simpa using hc
    decide

theorem isNameChar_of_alphanum (hc : (c.isAlphanum || c = '_') = true) : isNameChar c = true := by
  unfold isNameChar
  rw [Bool.or_eq_true]
  rw [Char.isAlphanum, Bool.or_assoc, Bool.or_comm c.isDigit, ← Bool.or_assoc,
    Bool.or_eq_true] at hc
  rcases hc with hc | hc
  · exact Or.inl (isNameStart_of_alpha hc)
  · simp only [Char.isDigit, Bool.and_eq_true, decide_eq_true_eq, ge_iff_le,
      UInt32.le_iff_toNat_le] at hc
    simp only [inRanges, innerRanges, List.any_cons, Bool.or_eq_true, Bool.and_eq_true,
      decide_eq_true_eq, Char.toNat]
    exact Or.inr (Or.inr (Or.inl hc))

/-- What is left of an identifier without its last underscores is an identifier, if
anything is left. -/
theorem isNcName_entity (hne : name.entity ≠ []) : isNcName name.entity = true := by
  obtain ⟨more, hmore⟩ : name.entity <+: name.text := List.rdropWhile_prefix _ _
  have hvalid := name.valid
  rw [← hmore] at hvalid
  cases hentity : name.entity with
  | nil => exact absurd hentity hne
  | cons c rest =>
    rw [hentity, List.cons_append, isIdentifier, Bool.and_eq_true, List.all_append,
      Bool.and_eq_true] at hvalid
    rw [isNcName, Bool.and_eq_true, List.all_eq_true]
    refine ⟨isNameStart_of_alpha hvalid.1, fun x hx => ?_⟩
    exact isNameChar_of_alphanum (List.all_eq_true.mp hvalid.2.1 x hx)

/-- The characters of names stand for themselves in tags, and none is a colon. -/
theorem isNameChar_of_isNcName {name : Text} (hname : isNcName name = true) (hc : c ∈ name) :
    isNameChar c = true := by
  cases name with
  | nil => cases hname
  | cons first rest =>
    rw [isNcName, Bool.and_eq_true] at hname
    rcases List.mem_cons.mp hc with rfl | hc
    · rw [isNameChar, hname.1]
      rfl
    · exact List.all_eq_true.mp hname.2 c hc

theorem ne_colon_of_isNameChar (hc : isNameChar c = true) : c ≠ ':' := by
  rintro rfl
  exact absurd hc (by decide)

theorem tagText_of_isNcName {name : Text} (hname : isNcName name = true) : TagText name := by
  intro c hc
  have hchar := isNameChar_of_isNcName hname hc
  refine ⟨?_, ?_, ?_⟩
  · rintro rfl
    exact absurd hchar (by decide)
  · rintro rfl
    exact absurd hchar (by decide)
  · rw [Bool.eq_false_iff]
    intro hspace
    simp only [isSpace, Bool.or_eq_true, decide_eq_true_eq] at hspace
    rcases hspace with ((rfl | rfl) | rfl) | rfl <;> exact absurd hchar (by decide)

theorem tagText_entity (name : Name) : TagText name.entity := by
  by_cases hne : name.entity = []
  · rw [hne]
    intro c hc
    cases hc
  · exact tagText_of_isNcName (isNcName_entity hne)

theorem tagText_namespace (ns : Namespace) : TagText ns.text := by
  cases ns with
  | empty =>
    intro c hc
    cases hc
  | named name valid =>
    apply tagText_append (tagText_of_isNcName valid)
    intro c hc
    obtain rfl := List.mem_singleton.mp hc
    decide

/-- A name without a colon is its own local part. -/
theorem localPart_of_isNcName {name : Text} (hname : isNcName name = true) :
    localPart name = name := by
  have hnone : name.dropWhile (· ≠ ':') = [] := by
    rw [List.dropWhile_eq_nil_iff]
    intro c hc
    simpa using ne_colon_of_isNameChar (isNameChar_of_isNcName hname hc)
  rw [localPart, hnone]

theorem isQName_of_isNcName {name : Text} (hname : isNcName name = true) :
    isQName name = true := by
  have hwhole : name.takeWhile (· ≠ ':') = name := by
    rw [List.takeWhile_eq_self_iff]
    intro c hc
    simpa using ne_colon_of_isNameChar (isNameChar_of_isNcName hname hc)
  rw [isQName, hwhole, localPart_of_isNcName hname, hname]
  rfl

/-- The tags of a member match exactly if there is no namespace and the name does not
consist of underscores. -/
theorem tags_match_iff (ns : Namespace) (name : Name) :
    (isQName (ns.text ++ name.entity) = true ∧ name.entity ++ ns.text = ns.text ++ name.entity) ↔
      ns = .empty ∧ name.entity ≠ [] := by
  cases ns with
  | empty =>
    simp only [Namespace.text, List.nil_append, List.append_nil, true_and, and_true]
    constructor
    · intro hname hnil
      rw [hnil] at hname
      cases hname
    · intro hne
      exact isQName_of_isNcName (isNcName_entity hne)
  | named before valid =>
    refine iff_of_false ?_ fun h => by cases h.1
    rintro ⟨hname, hsame⟩
    rcases List.eq_nil_or_concat name.entity with hnil | ⟨start, last, hlast⟩
    · -- nothing after the colon
      have hdrop : (before ++ [':']).dropWhile (· ≠ ':') = [':'] := by
        have hall : ∀ c ∈ before, decide (c ≠ ':') = true := fun c hc => by
          simpa using ne_colon_of_isNameChar (isNameChar_of_isNcName valid hc)
        rw [List.dropWhile_append_of_pos hall]
        rfl
      rw [hnil, List.append_nil, Namespace.text, isQName, localPart, hdrop, Bool.and_eq_true]
        at hname
      cases hname.2
    · -- the start tag ends with a character of the name, the end tag with the colon
      have hne : name.entity ≠ [] := by
        rw [hlast]
        simp
      have hmem : last ∈ name.entity := by
        rw [hlast]
        simp
      have hcolon := ne_colon_of_isNameChar (isNameChar_of_isNcName (isNcName_entity hne) hmem)
      rw [Namespace.text, hlast, List.concat_eq_append, ← List.append_assoc, ← List.append_assoc]
        at hsame
      have hends := (List.append_inj' hsame rfl).2
      exact hcolon (List.singleton_inj.mp hends).symm

/-- The names in tags are of the characters of XML. -/
theorem all_isChar_of_isNcName {name : Text} (hname : isNcName name = true) :
    name.all isChar = true :=
  List.all_eq_true.mpr fun _ hc => isChar_of_isNameChar (isNameChar_of_isNcName hname hc)

theorem all_isChar_entity (name : Name) : name.entity.all isChar = true := by
  by_cases hne : name.entity = []
  · rw [hne]
    rfl
  · exact all_isChar_of_isNcName (isNcName_entity hne)

theorem all_isChar_namespace (ns : Namespace) : ns.text.all isChar = true := by
  cases ns with
  | empty => rfl
  | named name valid =>
    rw [Namespace.text, List.all_append, all_isChar_of_isNcName valid]
    decide

/-! ## Reading what was written -/

/-- The members that are written as elements, with what stands between the tags. -/
def written (obj : Object Element) (rows : List (Name × MemberSpec)) : List (Name × Text) :=
  rows.filterMap fun row => (contentOf (obj row.1)).map fun content => (row.1, content)

theorem mem_written {write : Name × Text} :
    write ∈ written obj rows ↔
      (∃ spec, (write.1, spec) ∈ rows) ∧ contentOf (obj write.1) = some write.2 := by
  unfold written
  rw [List.mem_filterMap]
  constructor
  · rintro ⟨⟨name, spec⟩, hrow, hwrite⟩
    obtain ⟨content, hcontent, rfl⟩ := Option.map_eq_some_iff.mp hwrite
    exact ⟨⟨spec, hrow⟩, hcontent⟩
  · rintro ⟨⟨spec, hrow⟩, hcontent⟩
    exact ⟨(write.1, spec), hrow, by rw [hcontent]; rfl⟩

/-- A flat object is written member by member, as elements. -/
theorem exportRows_flat (level : Nat) (ns : Text) (hfits : ∀ row ∈ rows, Fits row.2 (obj row.1))
    (hflat : ∀ row ∈ rows, Flat (obj row.1)) :
    exportRows cls level ns obj rows =
      .ok ((written obj rows).flatMap fun write =>
        elementText level ns write.1.entity write.2) := by
  induction rows with
  | nil => rfl
  | cons row rest ih =>
    have hrest := ih (fun r hr => hfits r (List.mem_cons_of_mem row hr))
      fun r hr => hflat r (List.mem_cons_of_mem row hr)
    rw [exportRows, exportMember_flat level ns row.1 (hfits row List.mem_cons_self)
      (hflat row List.mem_cons_self), hrest]
    unfold memberText written
    cases hcontent : contentOf (obj row.1) with
    | none => simp [hcontent, bind, Except.bind, pure, Except.pure]
    | some content => simp [hcontent, bind, Except.bind, pure, Except.pure]

/-- The node that a written member is read as. -/
def nodeOf (write : Name × Text) : Node := .mk write.1.entity write.2 []

theorem eq_space_of_mem_showIndent (hc : c ∈ showIndent level) : c = ' ' := by
  obtain ⟨piece, hpiece, hc⟩ := List.mem_flatten.mp hc
  rw [List.eq_of_mem_replicate hpiece] at hc
  simpa using hc

theorem showIndent_plain (level : Nat) : ∀ c ∈ showIndent level, c ≠ '<' ∧ c ≠ '&' := by
  intro c hc
  rw [eq_space_of_mem_showIndent hc]
  decide

/-- What is written is of the characters of XML exactly if the content is. -/
theorem all_isChar_elementText (level : Nat) (ns : Namespace) (write : Name × Text) :
    (elementText level ns.text write.1.entity write.2).all isChar = write.2.all isChar := by
  have hindent : (showIndent level).all isChar = true := List.all_eq_true.mpr fun c hc => by
    rw [eq_space_of_mem_showIndent hc]
    decide
  have hmarks : isChar '<' = true ∧ isChar '>' = true ∧ isChar '/' = true ∧
      isChar '\n' = true := by decide
  simp only [elementText, List.all_append, List.all_cons, List.all_nil, all_isChar_escape,
    all_isChar_entity, all_isChar_namespace, hindent, hmarks, Bool.and_true, Bool.true_and]

/-- The content as it is read. -/
def readBack (write : Name × Text) : Name × Text := (write.1, normalized write.2)

/-- No line ends in a tag. -/
theorem no_line_end_of_tagText {tag : Text} (h : TagText tag) :
    ∀ c ∈ tag, c ≠ '\r' ∧ c ≠ '\n' := by
  intro c hc
  have hspace := (h c hc).2.2
  constructor
  · rintro rfl
    exact absurd hspace (by decide)
  · rintro rfl
    exact absurd hspace (by decide)

/-- Line ends are made line feeds within the contents only. -/
theorem normalized_elementText (level : Nat) (ns : Namespace) (write : Name × Text)
    (rest : Text) :
    normalized (elementText level ns.text write.1.entity write.2 ++ rest) =
      elementText level ns.text write.1.entity (readBack write).2 ++ normalized rest := by
  have hindent : ∀ c ∈ showIndent level, c ≠ '\r' ∧ c ≠ '\n' := by
    intro c hc
    rw [eq_space_of_mem_showIndent hc]
    decide
  have hstart :=
    no_line_end_of_tagText (tagText_append (tagText_namespace ns) (tagText_entity write.1))
  have hstop :=
    no_line_end_of_tagText (tagText_append (tagText_entity write.1) (tagText_namespace ns))
  have hline : normalizedFrom false ('\n' :: rest) = '\n' :: normalizedFrom false rest := by
    simp [normalizedFrom]
  have hbefore : ∀ c ∈ showIndent level ++ '<' :: ((ns.text ++ write.1.entity) ++ ['>']),
      c ≠ '\r' ∧ c ≠ '\n' := by
    intro c hc
    simp only [List.mem_append, List.mem_cons, List.not_mem_nil, or_false] at hc
    rcases hc with hc | rfl | hc | rfl
    · exact hindent c hc
    · decide
    · exact hstart c (List.mem_append.mpr hc)
    · decide
  have hbehind : ∀ c ∈ '/' :: ((write.1.entity ++ ns.text) ++ ['>']),
      c ≠ '\r' ∧ c ≠ '\n' := by
    intro c hc
    simp only [List.mem_append, List.mem_cons, List.not_mem_nil, or_false] at hc
    rcases hc with rfl | hc | rfl
    · decide
    · exact hstop c (List.mem_append.mpr hc)
    · decide
  have hsplit : ∀ content tail : Text,
      elementText level ns.text write.1.entity content ++ tail =
        (showIndent level ++ '<' :: ((ns.text ++ write.1.entity) ++ ['>'])) ++
          (escape content ++
            '<' :: ('/' :: ((write.1.entity ++ ns.text) ++ ['>']) ++ '\n' :: tail)) := by
    intro content tail
    simp [elementText]
  unfold normalized readBack
  rw [hsplit, hsplit, normalizedFrom_append hbefore,
    normalizedFrom_append_cons (by decide) (by decide), normalizedFrom_append hbehind, hline,
    normalizedFrom_escape]
  rfl

/-- What is written for a member is an element exactly if its tags match. -/
theorem feed_elementText (level : Nat) (ns : Namespace) (write : Name × Text) (top : Frame) :
    Reader.feed ⟨.content, top, []⟩ (elementText level ns.text write.1.entity write.2) =
      if ns = .empty ∧ write.1.entity ≠ [] then
        some ⟨.content, (top.addText (showIndent level)).addChild (nodeOf write), []⟩
      else none := by
  have hstart : TagText (ns.text ++ write.1.entity) :=
    tagText_append (tagText_namespace ns) (tagText_entity write.1)
  have hstop : TagText (write.1.entity ++ ns.text) :=
    tagText_append (tagText_entity write.1) (tagText_namespace ns)
  rw [elementText, Reader.feed_append, Reader.feed_append,
    Reader.feed_plain (showIndent_plain level), Option.bind_some,
    Reader.feed_element write.2 hstart hstop, if_congr (tags_match_iff ns write.1) rfl rfl]
  by_cases hmatch : ns = .empty ∧ write.1.entity ≠ []
  · obtain ⟨rfl, _⟩ := id hmatch
    have hnewline : ∀ c ∈ ['\n'], c ≠ '<' ∧ c ≠ '&' := by simp
    rw [if_pos hmatch, if_pos hmatch, Option.bind_some, Reader.feed_plain hnewline]
    rfl
  · rw [if_neg hmatch, if_neg hmatch]
    rfl

theorem feed_writes {level : Nat} {ns : Namespace} {writes : List (Name × Text)}
    (hmatch : ∀ write ∈ writes, ns = .empty ∧ write.1.entity ≠ []) (top : Frame) :
    ∃ next : Frame, next.children = (writes.map nodeOf).reverse ++ top.children ∧
      Reader.feed ⟨.content, top, []⟩
        (writes.flatMap fun write => elementText level ns.text write.1.entity write.2) =
      some ⟨.content, next, []⟩ := by
  induction writes generalizing top with
  | nil => exact ⟨top, rfl, rfl⟩
  | cons write writes ih =>
    obtain ⟨next, hchildren, hfeed⟩ :=
      ih (fun w hw => hmatch w (List.mem_cons_of_mem write hw))
        ((top.addText (showIndent level)).addChild (nodeOf write))
    refine ⟨next, ?_, ?_⟩
    · rw [hchildren, Frame.addChild, Frame.addText_children]
      simp
    · rw [List.flatMap_cons, Reader.feed_append, feed_elementText,
        if_pos (hmatch write List.mem_cons_self), Option.bind_some, hfeed]

theorem feed_writes_none {bad : Name × Text} (hbad : bad ∈ writes)
    (hmatch : ¬ (ns = .empty ∧ bad.1.entity ≠ [])) (top : Frame) :
    Reader.feed ⟨.content, top, []⟩
      (writes.flatMap fun write => elementText level ns.text write.1.entity write.2) = none := by
  induction writes generalizing top with
  | nil => cases hbad
  | cons write writes ih =>
    rw [List.flatMap_cons, Reader.feed_append, feed_elementText]
    split
    case isFalse => rfl
    case isTrue hwrite =>
      rw [Option.bind_some]
      rcases List.mem_cons.mp hbad with rfl | hrest
      · exact absurd hwrite hmatch
      · exact ih hrest _

theorem normalized_writes (level : Nat) (ns : Namespace) (writes : List (Name × Text)) :
    normalized (writes.flatMap fun write => elementText level ns.text write.1.entity write.2) =
      (writes.map readBack).flatMap fun write =>
        elementText level ns.text write.1.entity write.2 := by
  induction writes with
  | nil => rfl
  | cons write writes ih =>
    rw [List.flatMap_cons, normalized_elementText, ih]
    rfl

/-- What is written of a flat object is well formed exactly if all tags match and all
characters are of XML, and it is read as one node for each member that holds a value. -/
theorem readChildren_writes_iff {nodes : List Node} :
    readChildren (writes.flatMap fun write =>
        elementText level ns.text write.1.entity write.2) = some nodes ↔
      (∀ write ∈ writes, ns = .empty ∧ write.1.entity ≠ []) ∧
        (∀ write ∈ writes, write.2.all isChar = true) ∧
        nodes = (writes.map readBack).map nodeOf := by
  have hchars : (writes.flatMap fun write =>
      elementText level ns.text write.1.entity write.2).all isChar = true ↔
        ∀ write ∈ writes, write.2.all isChar = true := by
    simp only [List.all_flatMap, all_isChar_elementText]
    exact List.all_eq_true
  have hback : (∀ write ∈ writes.map readBack, ns = .empty ∧ write.1.entity ≠ []) ↔
      ∀ write ∈ writes, ns = .empty ∧ write.1.entity ≠ [] := List.forall_mem_map
  by_cases hall : ∀ write ∈ writes, write.2.all isChar = true
  · rw [and_iff_right hall, readChildren, if_pos (hchars.mpr hall), normalized_writes, ← hback]
    by_cases hmatch : ∀ write ∈ writes.map readBack, ns = .empty ∧ write.1.entity ≠ []
    · obtain ⟨next, hchildren, hfeed⟩ :=
        @feed_writes level ns (writes.map readBack) hmatch ⟨[], [], []⟩
      rw [and_iff_right hmatch, hfeed]
      simp only [hchildren, List.append_nil, List.reverse_reverse, Option.some.injEq]
      exact eq_comm
    · refine iff_of_false ?_ fun h => hmatch h.1
      obtain ⟨bad, hbad⟩ := not_forall.mp hmatch
      obtain ⟨hmem, hbad⟩ := Classical.not_imp.mp hbad
      rw [feed_writes_none hmem hbad]
      exact nofun
  · refine iff_of_false ?_ fun h => hall h.2.1
    rw [readChildren, if_neg fun h => hall (hchars.mp h)]
    exact nofun

/-! ## Building what was read -/

/-- The name in the tags leads `buildChildren` back to the member. -/
def Readable (name : Name) : Prop := memberName name.entity = name.text

instance (name : Name) : Decidable (Readable name) :=
  inferInstanceAs (Decidable (_ = _))

theorem Readable.entity_ne_nil (hname : Readable name) : name.entity ≠ [] := by
  intro hnil
  have htext : name.text = [] := by
    rw [← hname, hnil]
    rfl
  have hvalid := name.valid
  rw [htext] at hvalid
  cases hvalid

/-- No tag leads to a member that its own tag does not lead to. -/
theorem readable_of_memberName {other : Name} (hother : memberName other.entity = name.text) :
    Readable name := by
  unfold Readable Name.entity
  unfold memberName at hother
  split at hother
  case isTrue hreserved =>
    rw [← hother]
    simp only [List.mem_cons, List.not_mem_nil, or_false] at hreserved
    rcases hreserved with h | h | h <;> rw [h] <;> decide
  case isFalse hfree =>
    rw [← hother]
    unfold Name.entity at hfree ⊢
    rw [List.rdropWhile_idempotent, memberName, if_neg hfree]

namespace MemberTable

variable {table : MemberTable}

theorem lookup_of_mem {row : Name × MemberSpec} (hrow : row ∈ table.rows) :
    table.lookup row.1.text = some row := by
  have hsome : (table.lookup row.1.text).isSome := by
    rw [lookup, List.find?_isSome]
    exact ⟨row, hrow, by simp⟩
  obtain ⟨found, hfound⟩ := Option.isSome_iff_exists.mp hsome
  have hname : found.1 = row.1 := by
    have htext := List.find?_some hfound
    simp only [decide_eq_true_eq] at htext
    cases hf : found.1
    cases hr : row.1
    simp_all
  rw [hfound]
  exact congrArg some
    (List.inj_on_of_nodup_map table.nodup (List.mem_of_find?_eq_some hfound) hrow hname)

theorem lookup_some {name : Text} {row : Name × MemberSpec}
    (hlookup : table.lookup name = some row) : row ∈ table.rows ∧ row.1.text = name :=
  ⟨List.mem_of_find?_eq_some hlookup, by simpa using List.find?_some hlookup⟩

end MemberTable

/-- A successful `buildChildren` sets one member, of a scalar type, and no other. -/
theorem buildChildren_ok {next : Object Element} {child : Node} {nodeName : Text}
    (hbuild : buildChildren table obj child nodeName = .ok next) :
    ∃ row ∈ table.rows, row.1.text = memberName nodeName ∧ row.2.isScalar = true ∧
      ∀ name, name ≠ row.1 → next name = obj name := by
  unfold buildChildren at hbuild
  split at hbuild
  case h_1 => cases hbuild
  case h_2 name spec hlookup =>
    obtain ⟨hrow, htext⟩ := MemberTable.lookup_some hlookup
    split at hbuild
    case isTrue hscalar =>
      refine ⟨(name, spec), hrow, htext, hscalar, fun other hother => ?_⟩
      unfold buildChild at hbuild
      have hset : ∃ value, next = setattr obj name value := by
        split at hbuild
        · exact ⟨_, (Except.ok.inj hbuild).symm⟩
        · split at hbuild
          · exact ⟨_, (Except.ok.inj hbuild).symm⟩
          · split at hbuild
            · exact ⟨_, (Except.ok.inj hbuild).symm⟩
            · cases hbuild
      obtain ⟨value, rfl⟩ := hset
      exact if_neg hother
    case isFalse =>
      split at hbuild
      · cases hbuild
      · cases hbuild

/-- A successful build keeps a member that no node leads to. -/
theorem build_keeps {nodes : List Node} {built : Object Element}
    (hbuild : build table nodes obj = .ok built) (hnodes : ∀ node ∈ nodes, ∀ row ∈ table.rows,
      row.1.text = memberName (localPart node.tag) → row.2.isScalar = true → name ≠ row.1) :
    built name = obj name := by
  induction nodes generalizing obj with
  | nil =>
    obtain rfl := Except.ok.inj hbuild
    rfl
  | cons child rest ih =>
    rw [build] at hbuild
    cases hfirst : buildChildren table obj child (localPart child.tag) with
    | error e =>
      rw [hfirst] at hbuild
      cases hbuild
    | ok next =>
      rw [hfirst] at hbuild
      obtain ⟨row, hrow, htext, hscalar, hkeep⟩ := buildChildren_ok hfirst
      have hrest := ih hbuild fun node hnode => hnodes node (List.mem_cons_of_mem child hnode)
      rw [hrest]
      exact hkeep name (hnodes child List.mem_cons_self row hrow htext hscalar)

/-- Building the node of a readable member sets the member to its value. -/
theorem buildChildren_nodeOf {start : Object Element} {content : Text}
    (hrow : (name, spec) ∈ table.rows) (hfits : Fits spec (obj name))
    (hcontent : contentOf (obj name) = some content) (hname : Readable name) :
    buildChildren table start (nodeOf (name, content)) (localPart (nodeOf (name, content)).tag) =
      .ok (setattr start name (obj name)) := by
  have hlookup : table.lookup (memberName (localPart (nodeOf (name, content)).tag)) =
      some (name, spec) := by
    have hlocal : localPart name.entity = name.entity :=
      localPart_of_isNcName (isNcName_entity hname.entity_ne_nil)
    change table.lookup (memberName (localPart name.entity)) = _
    rw [hlocal, hname]
    exact MemberTable.lookup_of_mem hrow
  unfold buildChildren
  rw [hlookup]
  cases hvalue : obj name with
  | none => rw [hvalue] at hcontent; cases hcontent
  | bytes string => rw [hvalue] at hcontent; cases hcontent
  | element item => rw [hvalue] at hcontent; cases hcontent
  | elements items => rw [hvalue] at hcontent; cases hcontent
  | str text =>
    rw [hvalue] at hfits hcontent
    obtain rfl : spec = ⟨.xsString, false⟩ := hfits
    obtain rfl : text = content := Option.some.inj hcontent
    cases text with
    | nil => rfl
    | cons c rest => rfl
  | bool b =>
    rw [hvalue] at hfits hcontent
    obtain rfl : spec = ⟨.xsBoolean, false⟩ := hfits
    cases b with
    | true =>
      obtain rfl := Option.some.inj hcontent
      rfl
    | false =>
      obtain rfl := Option.some.inj hcontent
      rfl

/-- Building the nodes of readable members sets these members to their values, and no
others. -/
theorem build_writes (hwrites : ∀ write ∈ writes, (∃ spec, (write.1, spec) ∈ table.rows ∧
      Fits spec (obj write.1)) ∧ contentOf (obj write.1) = some write.2 ∧ Readable write.1)
    (start : Object Element) :
    ∃ built, build table (writes.map nodeOf) start = .ok built ∧
      ∀ name, built name = if name ∈ writes.map Prod.fst then obj name else start name := by
  induction writes generalizing start with
  | nil => exact ⟨start, rfl, fun name => rfl⟩
  | cons write writes ih =>
    obtain ⟨⟨spec, hrow, hfits⟩, hcontent, hname⟩ := hwrites write List.mem_cons_self
    obtain ⟨built, hbuild, hvalues⟩ :=
      ih (fun w hw => hwrites w (List.mem_cons_of_mem write hw))
        (setattr start write.1 (obj write.1))
    refine ⟨built, ?_, fun name => ?_⟩
    · rw [List.map_cons, build, buildChildren_nodeOf hrow hfits hcontent hname]
      exact hbuild
    · rw [hvalues, setattr]
      by_cases hfirst : name = write.1
      · subst hfirst
        simp
      · simp only [List.map_cons, List.mem_cons, hfirst, false_or, if_false]

/-! ## The round trip -/

/-- What `exportChildren` writes is well formed, and building its nodes into a new object
gives the values of the members; neither raises. -/
def RoundTrips (cls : ElementClass Element) (table : MemberTable) (obj : Object Element)
    (level : Nat) (ns : Namespace) : Prop :=
  ∃ text nodes built, exportChildren cls table obj level ns = .ok text ∧
    readChildren text = some nodes ∧ build table nodes (fresh table) = .ok built ∧
    ∀ row ∈ table.rows, built row.1 = obj row.1

/-- A string that comes through: of characters of XML, without a return. -/
def Kept (text : Text) : Prop := text.all isChar = true ∧ '\r' ∉ text

instance (text : Text) : Decidable (Kept text) := inferInstanceAs (Decidable (_ ∧ _))

/-- A member that comes through: it has no value, or it is a scalar without a namespace
and with a readable name, a string that is kept or a boolean, or an empty collection. -/
def Survives (ns : Namespace) (name : Name) : Value Element → Prop
  | .none => True
  | .str text => ns = .empty ∧ Readable name ∧ Kept text
  | .bytes _ => False
  | .bool _ => ns = .empty ∧ Readable name
  | .element _ => False
  | .elements items => items = []

instance (spec : MemberSpec) : ∀ value : Value Element, Decidable (Fits spec value)
  | .none => inferInstanceAs (Decidable (_ = _))
  | .str _ => inferInstanceAs (Decidable (_ = _))
  | .bytes _ => inferInstanceAs (Decidable (_ = _))
  | .bool _ => inferInstanceAs (Decidable (_ = _))
  | .element _ => inferInstanceAs (Decidable (_ ∧ _))
  | .elements _ => inferInstanceAs (Decidable (_ ∧ _))

instance (ns : Namespace) (name : Name) :
    ∀ value : Value Element, Decidable (Survives ns name value)
  | .none => isTrue trivial
  | .str _ => inferInstanceAs (Decidable (_ ∧ _))
  | .bytes _ => isFalse id
  | .bool _ => inferInstanceAs (Decidable (_ ∧ _))
  | .element _ => isFalse id
  | .elements _ => decidable_of_iff _ List.isEmpty_iff

theorem survives_iff :
    Survives ns name value ↔
      Flat value ∧ ∀ content, contentOf value = some content →
        ns = .empty ∧ Readable name ∧ Kept content := by
  have hbools : Kept "true".toList ∧ Kept "false".toList := by decide
  cases value with
  | none => simp [Survives, Flat, contentOf]
  | str text => simp [Survives, Flat, contentOf]
  | bytes string => simp [Survives, Flat]
  | bool b =>
    cases b with
    | true =>
      simp only [Survives, Flat, contentOf, Option.some.injEq, forall_eq', hbools.1, and_true,
        true_and]
    | false =>
      simp only [Survives, Flat, contentOf, Option.some.injEq, forall_eq', hbools.2, and_true,
        true_and]
  | element item => simp [Survives, Flat]
  | elements items => simp [Survives, Flat, contentOf]

/-- What a member for such a value holds in a new object. -/
def Value.cleared : Value Element → Value Element
  | .elements _ => .elements []
  | _ => .none

theorem eq_cleared_iff : value = value.cleared ↔ Flat value ∧ contentOf value = none := by
  cases value with
  | none => simp [Value.cleared, Flat, contentOf]
  | str text => simp [Value.cleared, contentOf]
  | bytes string => simp [Value.cleared, Flat]
  | bool b => cases b <;> simp [Value.cleared, contentOf]
  | element item => simp [Value.cleared, Flat]
  | elements items => simp [Value.cleared, Flat, contentOf]

theorem fresh_of_fits (hrow : row ∈ table.rows) (hfits : Fits row.2 value) :
    fresh table row.1 = value.cleared := by
  obtain ⟨name, spec⟩ := row
  have hcleared : value.cleared = if spec.container then .elements [] else .none := by
    cases value with
    | none => rw [show spec.container = false from hfits]; rfl
    | str text => rw [show spec = ⟨.xsString, false⟩ from hfits]; rfl
    | bytes string => rw [show spec = ⟨.xsString, false⟩ from hfits]; rfl
    | bool b => rw [show spec = ⟨.xsBoolean, false⟩ from hfits]; rfl
    | element item => rw [show spec.container = false from hfits.2]; rfl
    | elements items => rw [show spec.container = true from hfits.2]; rfl
  rw [fresh, MemberTable.lookup_of_mem hrow, hcleared]

/-- The value as it is read. -/
def Value.normalized : Value Element → Value Element
  | .str text => .str (Foundation.Xml.normalized text)
  | value => value

theorem contentOf_normalized :
    contentOf value.normalized = (contentOf value).map Foundation.Xml.normalized := by
  have hbools : Foundation.Xml.normalized "true".toList = "true".toList ∧
      Foundation.Xml.normalized "false".toList = "false".toList := by decide
  cases value with
  | bool b =>
    cases b with
    | true => exact congrArg some hbools.1.symm
    | false => exact congrArg some hbools.2.symm
  | none => rfl
  | str text => rfl
  | bytes string => rfl
  | element item => rfl
  | elements items => rfl

theorem fits_normalized (hfits : Fits spec value) : Fits spec value.normalized := by
  cases value <;> exact hfits

/-- Nothing that is nested comes through, and no string that cannot be encoded. -/
theorem RoundTrips.flat (hfits : ∀ row ∈ table.rows, Fits row.2 (obj row.1))
    (htrip : RoundTrips cls table obj level ns) : ∀ row ∈ table.rows, Flat (obj row.1) := by
  intro row hrow
  obtain ⟨_, nodes, built, hexport, _, hbuild, hsame⟩ := htrip
  have hkept : row.2.isScalar = false → obj row.1 = (obj row.1).cleared := by
    intro hscalar
    rw [← fresh_of_fits hrow (hfits row hrow), ← hsame row hrow]
    refine build_keeps hbuild fun node _ other hother _ hotherScalar hname => ?_
    have heq : row = other := List.inj_on_of_nodup_map table.nodup hrow hother hname
    rw [heq, hotherScalar] at hscalar
    cases hscalar
  have hrowFits := hfits row hrow
  cases hvalue : obj row.1 with
  | none => trivial
  | str text => trivial
  | bytes string =>
    obtain ⟨part, hpart⟩ := exportRows_ok hexport row hrow
    rw [hvalue] at hrowFits hpart
    rw [show row.2 = ⟨.xsString, false⟩ from hrowFits] at hpart
    exact nomatch hpart
  | bool b => trivial
  | element item =>
    rw [hvalue] at hrowFits hkept
    exact (eq_cleared_iff.mp (hkept hrowFits.1)).1
  | elements items =>
    rw [hvalue] at hrowFits hkept
    exact (eq_cleared_iff.mp (hkept hrowFits.1)).1

/-- The values as they are read are built of what was written, where the names are
readable. -/
theorem build_readBack (hfits : ∀ row ∈ table.rows, Fits row.2 (obj row.1))
    (hreadable : ∀ write ∈ written obj table.rows, Readable write.1) :
    ∃ built, build table (((written obj table.rows).map readBack).map nodeOf) (fresh table) =
        .ok built ∧
      ∀ row ∈ table.rows, Flat (obj row.1) → built row.1 = (obj row.1).normalized := by
  have hgood : ∀ write ∈ (written obj table.rows).map readBack,
      (∃ spec, (write.1, spec) ∈ table.rows ∧ Fits spec (obj write.1).normalized) ∧
        contentOf (obj write.1).normalized = some write.2 ∧ Readable write.1 := by
    refine List.forall_mem_map.mpr fun write hwrite => ?_
    obtain ⟨⟨spec, hrow⟩, hcontent⟩ := mem_written.mp hwrite
    refine ⟨⟨spec, hrow, fits_normalized (hfits _ hrow)⟩, ?_, hreadable write hwrite⟩
    change contentOf (obj write.1).normalized = some (Foundation.Xml.normalized write.2)
    rw [contentOf_normalized, hcontent]
    rfl
  obtain ⟨built, hbuild, hvalues⟩ :=
    @build_writes _ (fun name => (obj name).normalized) _ _ hgood (fresh table)
  refine ⟨built, hbuild, fun row hrow hflat => ?_⟩
  rw [hvalues]
  split
  case isTrue => rfl
  case isFalse hnot =>
    have hnone : contentOf (obj row.1) = none := by
      by_contra hsome
      obtain ⟨content, hcontent⟩ := Option.ne_none_iff_exists'.mp hsome
      have hmem : (row.1, content) ∈ DataStructures.written obj table.rows :=
        mem_written.mpr ⟨⟨row.2, hrow⟩, hcontent⟩
      exact hnot (List.mem_map.mpr ⟨_, List.mem_map.mpr ⟨_, hmem, rfl⟩, rfl⟩)
    rw [fresh_of_fits hrow (hfits row hrow), ← eq_cleared_iff.mpr ⟨hflat, hnone⟩]
    cases hvalue : obj row.1 with
    | str text =>
      rw [hvalue] at hnone
      exact nomatch hnone
    | none => rfl
    | bytes string => rfl
    | bool b => rfl
    | element item => rfl
    | elements items => rfl

/-- A scalar that comes through has matching tags, a readable name and a content that is
kept. -/
theorem RoundTrips.written (hfits : ∀ row ∈ table.rows, Fits row.2 (obj row.1))
    (htrip : RoundTrips cls table obj level ns) :
    ∀ write ∈ written obj table.rows, ns = .empty ∧ Readable write.1 ∧ Kept write.2 := by
  have hflat := htrip.flat hfits
  obtain ⟨text, nodes, built, htext, hread, hbuild, hsame⟩ := htrip
  rw [exportChildren, exportRows_flat level ns.text hfits hflat] at htext
  obtain rfl := Except.ok.inj htext
  obtain ⟨hmatch, hchars, rfl⟩ := readChildren_writes_iff.mp hread
  have hreadable : ∀ write ∈ DataStructures.written obj table.rows, Readable write.1 := by
    intro write hwrite
    by_contra hunreadable
    obtain ⟨⟨spec, hrow⟩, hcontent⟩ := mem_written.mp hwrite
    have hkept : obj write.1 = (obj write.1).cleared := by
      rw [← fresh_of_fits hrow (hfits _ hrow), ← hsame _ hrow]
      refine build_keeps hbuild fun node hnode row _ htext _ hname => hunreadable ?_
      obtain ⟨back, hback, rfl⟩ := List.mem_map.mp hnode
      obtain ⟨other, hother, rfl⟩ := List.mem_map.mp hback
      have hlocal : localPart other.1.entity = other.1.entity :=
        localPart_of_isNcName (isNcName_entity (hmatch other hother).2)
      have hlead : memberName other.1.entity = write.1.text := by
        rw [hname, htext]
        exact (congrArg memberName hlocal).symm
      exact readable_of_memberName hlead
    rw [(eq_cleared_iff.mp hkept).2] at hcontent
    cases hcontent
  obtain ⟨again, hagain, hvalues⟩ := build_readBack hfits hreadable
  obtain rfl := Except.ok.inj (hbuild.symm.trans hagain)
  intro write hwrite
  obtain ⟨⟨spec, hrow⟩, hcontent⟩ := mem_written.mp hwrite
  have hvalue : obj write.1 = (obj write.1).normalized :=
    (hsame _ hrow).symm.trans (hvalues _ hrow (hflat _ hrow))
  have hsameContent : normalized write.2 = write.2 := by
    have hagainContent := hcontent
    rw [hvalue, contentOf_normalized, hcontent] at hagainContent
    exact Option.some.inj hagainContent
  exact ⟨(hmatch write hwrite).1, hreadable write hwrite, hchars write hwrite,
    normalized_eq_self_iff.mp hsameContent⟩

theorem isIdentifier_port : isIdentifier "port".toList = true := by decide

theorem isIdentifier_portal : isIdentifier "portal".toList = true := by decide

theorem isIdentifier_host : isIdentifier "host".toList = true := by decide

/-- The rows of a generated class: a string, a boolean and a nested object. -/
def generatedRows : List (Name × MemberSpec) :=
  [(⟨"port".toList, isIdentifier_port⟩, stringMember),
    (⟨"portal".toList, isIdentifier_portal⟩, ⟨.xsBoolean, false⟩),
    (⟨"host".toList, isIdentifier_host⟩, ⟨.other "Host".toList, false⟩)]

theorem nodup_generatedRows : (generatedRows.map Prod.fst).Nodup := by decide

/-- The table of `HostStorage` over these rows. -/
def sampleTable : MemberTable := hostStorageItems ⟨generatedRows, nodup_generatedRows⟩

/-- Nested elements that write an empty element. -/
def emptyElements : ElementClass Unit where
  exportText _ level ns name := showIndent level ++ ('<' :: (ns ++ name) ++ "/>\n".toList)
  repr _ := "<Host>".toList

/-- No nested object, but strings with an ampersand, with two lines and without characters. -/
def flatSample : Object Unit := fun name =>
  if name.text = "port".toList then .str "3260 & more".toList
  else if name.text = "type_".toList then .str []
  else if name.text = "nfs_timeo".toList then .str "é\n600".toList
  else if name.text = "portal".toList then .bool true
  else .none

/-- A host, and nothing else. -/
def nestedSample : Object Unit := fun name =>
  if name.text = "host".toList then .element () else .none

end OvirtArt.TestsLib.HighLevel.DataStructures
