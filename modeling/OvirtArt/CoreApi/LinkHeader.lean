import Mathlib.Data.Bool.AllAny
import OvirtArt.CoreApi.HttpRetry
import OvirtArt.CoreApi.TextSearch
import OvirtArt.Foundation.Filling
import OvirtArt.Foundation.Lists

set_option autoImplicit false

/-!
# The link header of `core_api/http.py`

The API tells its links in a header: each link is a URL in angle brackets with parameters after
it, one of which is `rel`.  This file says from which headers `HEAD_for_links` reads the links
that are in them.

The regular expressions and the splits of the source are run on the text of the header.  The links
of a header are structures that can only hold what stands for itself in it.  The condition is
exact for ordinary headers, and sufficient for all others.
-/

namespace OvirtArt.CoreApi

open OvirtArt.Foundation

/-! ## Headers -/

/-- The characters that are not in names and values. -/
def linkSeparators : List Char := [',', ';', '<', '>', '=']

/-- A parameter of a link other than `rel`. -/
structure LinkParam where
  name : Text
  value : Text
  plain : ∀ c ∈ name ++ value, c ∉ linkSeparators

/-- A link of a header, with its parameters before and after `rel`. -/
structure HeaderLink where
  url : Text
  before : List LinkParam
  rel : Text
  after : List LinkParam
  url_plain : '<' ∉ url ∧ '>' ∉ url
  rel_plain : ∀ c ∈ rel, c ∉ linkSeparators

/-- `; name=value`. -/
def LinkParam.render (param : LinkParam) : Text :=
  ';' :: ' ' :: (param.name ++ '=' :: param.value)

namespace HeaderLink

variable (link : HeaderLink)

/-- What stands between the `<` and the parameter `rel`. -/
def front : Text :=
  link.url ++ '>' :: (link.before.flatMap LinkParam.render ++ [';', ' '])

/-- What follows the value of `rel`. -/
def follow : Text := link.after.flatMap LinkParam.render

/-- The link as it stands in a header. -/
def render : Text := '<' :: (link.front ++ "rel=".toList ++ link.rel ++ link.follow)

end HeaderLink

/-- The header with all links. -/
def renderHeader (links : List HeaderLink) : Text :=
  Text.join ", ".toList (links.map HeaderLink.render)

/-! ## What is asked of the map, and when it is so -/

/-- The map takes each `rel` to its URL, and has nothing else but `capabilities`. -/
structure MapsLinks (links : List HeaderLink) (found : Links) : Prop where
  urls : ∀ link ∈ links, found.lookup link.rel = some link.url
  only : ∀ rel ∈ found, rel = "capabilities".toList ∨ ∃ link ∈ links, link.rel = rel

namespace HeaderLink

variable (link : HeaderLink)

/-- What stands between the first `;` of the link and the parameter `rel`. -/
def lead : Text := (afterFirst? ';' link.front).getD []

/-- The first `rel=` after the first `;` is that of the parameter `rel`. -/
def OwnRel : Prop := Text.index? "rel=".toList (link.lead ++ "rel=".toList) = some link.lead.length

/-- The URL has no comma, and `rel` is the last parameter, or what stands between the first two
`;` of the link is before `rel` and as long as its value. -/
structure ReadRight : Prop where
  no_comma : ',' ∉ link.url
  own_rel : link.OwnRel
  cut : link.after = [] ∨ ';' ∈ link.lead ∧ (upTo ';' link.lead).length = link.rel.length

end HeaderLink

/-- Links with the same `rel` have the same URL, and so has `capabilities`. -/
structure Consistent (uri : Text) (links : List HeaderLink) : Prop where
  same : ∀ link ∈ links, ∀ other ∈ links, link.rel = other.rel → link.url = other.url
  capabilities : ∀ link ∈ links, link.rel = "capabilities".toList →
    link.url = uri ++ "capabilities".toList

/-- No two links have the same `rel`, none has `capabilities`, and the only `rel=` after the first
`;` of each link is that of its parameter. -/
structure Ordinary (links : List HeaderLink) : Prop where
  nodup : (links.map HeaderLink.rel).Nodup
  own_rel : ∀ link ∈ links, link.OwnRel
  not_capabilities : ∀ link ∈ links, link.rel ≠ "capabilities".toList

/-! ## Reading one link -/

namespace HeaderLink

variable (link : HeaderLink)

theorem front_eq : ∃ first, ';' ∉ first ∧ link.front = first ++ ';' :: link.lead := by
  have hmem : ';' ∈ link.front := by
    unfold front
    simp
  obtain ⟨first, rest, heq, hfirst⟩ := List.eq_append_cons_of_mem hmem
  refine ⟨first, hfirst, ?_⟩
  rw [lead, heq, afterFirst?_append hfirst, Option.getD_some]

/-- The link after its first `;`. -/
def tail : Text := link.lead ++ "rel=".toList ++ link.rel ++ link.follow

/-- The text that is taken for `rel`. -/
def readRel : Text :=
  if link.after = [] then link.rel
  else (link.rel ++ link.follow).take (upTo ';' link.tail).length

theorem semicolon_not_mem_rel : ';' ∉ link.rel :=
  fun h => link.rel_plain ';' h (by decide)

theorem semicolon_mem_follow_iff : ';' ∈ link.follow ↔ link.after ≠ [] := by
  unfold follow
  cases link.after with
  | nil => simp
  | cons param rest => simp [LinkParam.render]

theorem url_slice (pad : Text) (hpad : '<' ∉ pad ∧ '>' ∉ pad) :
    (pad ++ link.render).slice ((pad ++ link.render).find ['<'] + 1)
      ((pad ++ link.render).find ['>']) = link.url := by
  have hopen : (pad ++ link.render).find ['<'] = pad.length := Text.find_singleton_append hpad.1
  have heq : pad ++ link.render = (pad ++ ['<']) ++ link.url ++
      '>' :: (link.before.flatMap LinkParam.render ++ [';', ' '] ++ "rel=".toList ++ link.rel ++
        link.follow) := by
    simp [render, front]
  have hclose : (pad ++ link.render).find ['>'] = ((pad ++ ['<']) ++ link.url).length := by
    rw [heq]
    apply Text.find_singleton_append
    simp [hpad.2, link.url_plain.2]
  have hstart : (pad.length : Int) + 1 = (pad ++ ['<']).length := by simp
  rw [hopen, hclose, hstart, heq]
  exact Text.slice_append _ _ _

theorem tail_slice (pad : Text) (hpad : ';' ∉ pad) :
    (pad ++ link.render).sliceFrom ((pad ++ link.render).find [';'] + 1) = link.tail := by
  obtain ⟨first, hfirst, hfront⟩ := link.front_eq
  have heq : pad ++ link.render = (pad ++ '<' :: first) ++ ';' :: link.tail := by
    simp [render, hfront, tail]
  have hmem : ';' ∉ pad ++ '<' :: first := by simp [hpad, hfirst]
  have hcut : pad ++ link.render = (pad ++ '<' :: first ++ [';']) ++ link.tail := by
    simp [heq]
  have hend : ((pad ++ '<' :: first).length : Int) + 1 =
      (pad ++ '<' :: first ++ [';']).length := by
    simp only [List.length_append, List.length_singleton]
    omega
  have hfind : (pad ++ link.render).find [';'] = (pad ++ '<' :: first).length := by
    rw [heq]
    exact Text.find_singleton_append hmem
  rw [hfind, hend, hcut]
  exact Text.sliceFrom_append _ _

theorem rel_slice (h : link.OwnRel) :
    link.tail.sliceFrom (link.tail.find "rel=".toList + 4) = link.rel ++ link.follow := by
  have heq : link.tail = (link.lead ++ "rel=".toList) ++ (link.rel ++ link.follow) := by
    simp [tail]
  have hfind : link.tail.find "rel=".toList = link.lead.length := by
    unfold Text.find
    rw [heq, Text.index?_append h]
  have hend : (link.lead.length : Int) + 4 = (link.lead ++ "rel=".toList).length := by simp
  rw [hfind, hend, heq]
  exact Text.sliceFrom_append _ _

/-- What is entered for a link. -/
theorem parseLink_render (h : link.OwnRel) (pad : Text) (hpad : '<' ∉ pad ∧ '>' ∉ pad)
    (hsemicolon : ';' ∉ pad) (links : Links) :
    parseLink (pad ++ link.render) links = links.insert link.readRel link.url := by
  unfold parseLink
  dsimp only
  rw [link.url_slice pad hpad, link.tail_slice pad hsemicolon, link.rel_slice h]
  congr 1
  unfold readRel
  by_cases hafter : link.after = []
  · have hnot : ';' ∉ link.rel ++ link.follow := by
      rw [List.mem_append, not_or]
      exact ⟨link.semicolon_not_mem_rel,
        fun hmem => link.semicolon_mem_follow_iff.mp hmem hafter⟩
    rw [if_pos hafter, Text.find_singleton_of_not_mem hnot, follow, hafter]
    simp
  · have hfollow : ';' ∈ link.follow := link.semicolon_mem_follow_iff.mpr hafter
    have hrest : ';' ∈ link.rel ++ link.follow := List.mem_append_right _ hfollow
    have htail : ';' ∈ link.tail := List.mem_append_right _ hfollow
    rw [if_neg hafter, Text.find_singleton_of_mem hrest, Text.find_singleton_of_mem htail,
      if_pos (by omega), Text.slice_zero]

theorem upTo_tail_of_mem (h : ';' ∈ link.lead) : upTo ';' link.tail = upTo ';' link.lead := by
  obtain ⟨first, rest, heq, hfirst⟩ := List.eq_append_cons_of_mem h
  rw [tail, heq, upTo_append hfirst]
  simp only [List.append_assoc, List.cons_append]
  exact upTo_append hfirst

theorem exists_follow (h : link.after ≠ []) : ∃ rest, link.follow = ';' :: rest := by
  obtain ⟨param, rest, hafter⟩ := List.exists_cons_of_ne_nil h
  rw [follow, hafter]
  exact ⟨_, rfl⟩

/-- A link that is read right is entered under its `rel`. -/
theorem readRel_of_readRight (h : link.ReadRight) : link.readRel = link.rel := by
  unfold readRel
  rcases h.cut with hafter | ⟨hmem, hlength⟩
  · rw [if_pos hafter]
  · rw [link.upTo_tail_of_mem hmem, hlength, List.take_left, ite_self]

/-- Without a `;` in it, what is taken for `rel` is a beginning of it. -/
theorem readRel_prefix (h : ';' ∉ link.readRel) : link.readRel <+: link.rel := by
  unfold readRel at h ⊢
  by_cases hafter : link.after = []
  · rw [if_pos hafter]
  · rw [if_neg hafter] at h ⊢
    obtain ⟨rest, hfollow⟩ := link.exists_follow hafter
    rcases Nat.lt_or_ge link.rel.length (upTo ';' link.tail).length with hlonger | hle
    · apply absurd _ h
      obtain ⟨n, hn⟩ := Nat.exists_eq_add_of_lt hlonger
      rw [hn, Nat.add_assoc, List.take_length_add_append, hfollow]
      simp
    · rw [List.take_append_of_le_length hle]
      exact List.take_prefix _ _

/-- Only a link that is read right is entered under its `rel`. -/
theorem readRight_of_readRel (hcomma : ',' ∉ link.url) (hown : link.OwnRel)
    (h : link.readRel = link.rel) : link.ReadRight := by
  refine ⟨hcomma, hown, ?_⟩
  by_cases hafter : link.after = []
  · exact .inl hafter
  refine .inr ?_
  obtain ⟨rest, hfollow⟩ := link.exists_follow hafter
  have hlength : (upTo ';' link.tail).length = link.rel.length := by
    have htaken := congrArg List.length h
    rw [readRel, if_neg hafter, List.length_take, hfollow, List.length_append,
      List.length_cons] at htaken
    omega
  have hmem : ';' ∈ link.lead := by
    apply Classical.byContradiction
    intro hnot
    have hbefore : ';' ∉ link.lead ++ "rel=".toList ++ link.rel := by
      simp [hnot, link.semicolon_not_mem_rel]
    rw [tail, hfollow, upTo_append hbefore] at hlength
    simp at hlength
    omega
  rw [link.upTo_tail_of_mem hmem] at hlength
  exact ⟨hmem, hlength⟩

/-- The links of a header without commas in its links. -/
theorem comma_not_mem_render (h : ',' ∉ link.url) : ',' ∉ link.render := by
  have hparams : ∀ params : List LinkParam, ',' ∉ params.flatMap LinkParam.render := by
    intro params hmem
    obtain ⟨param, _, hparam⟩ := List.mem_flatMap.mp hmem
    have hplain := param.plain ','
    simp [LinkParam.render] at hparam
    rcases hparam with hname | hvalue
    · exact hplain (List.mem_append_left _ hname) (by decide)
    · exact hplain (List.mem_append_right _ hvalue) (by decide)
  have hrel : ',' ∉ link.rel := fun hmem => link.rel_plain ',' hmem (by decide)
  simp [render, front, follow, h, hparams, hrel]

end HeaderLink

/-! ## Reading a header -/

/-- What is entered for the pieces of a header. -/
def readPieces (pieces : List Text) : Links :=
  pieces.foldl (fun links s => parseLink s links) ∅

/-- The map that `HEAD_for_links` returns for a header. -/
def linksOf (uri header : Text) : Links :=
  (readPieces (header.splitOn ',')).insert "capabilities".toList (uri ++ "capabilities".toList)

theorem renderHeader_cons (link : HeaderLink) (rest : List HeaderLink) :
    renderHeader (link :: rest) =
      link.render ++ delimited ',' (rest.map fun l => ' ' :: l.render) := by
  unfold renderHeader
  induction rest generalizing link with
  | nil => simp [Text.join]
  | cons next rest ih =>
    change link.render ++ ", ".toList ++
      Text.join ", ".toList ((next :: rest).map HeaderLink.render) = _
    rw [ih next, List.map_cons, delimited_cons]
    simp

/-- The pieces of a header in which only the commas between links are. -/
theorem splitOn_renderHeader {link : HeaderLink} {rest : List HeaderLink}
    (h : ∀ l ∈ link :: rest, ',' ∉ l.url) :
    (renderHeader (link :: rest)).splitOn ',' =
      link.render :: rest.map fun l => ' ' :: l.render := by
  rw [renderHeader_cons, splitOn_delimited_iff, List.forall_mem_cons]
  obtain ⟨hlink, hrest⟩ := List.forall_mem_cons.mp h
  refine ⟨link.comma_not_mem_render hlink, fun piece hpiece => ?_⟩
  obtain ⟨l, hl, rfl⟩ := List.mem_map.mp hpiece
  rw [List.mem_cons, not_or]
  exact ⟨by decide, l.comma_not_mem_render (hrest l hl)⟩

/-- What is entered for links whose `rel` is found. -/
def entries (links : List HeaderLink) : List (Text × Text) :=
  links.map fun link => (link.readRel, link.url)

theorem foldl_parseLink (links : List HeaderLink) (h : ∀ link ∈ links, link.OwnRel)
    (table : Links) :
    (links.map fun l => ' ' :: l.render).foldl (fun links s => parseLink s links) table =
      (entries links).foldl (fun links entry => links.insert entry.1 entry.2) table := by
  unfold entries
  induction links generalizing table with
  | nil => rfl
  | cons link rest ih =>
    obtain ⟨hlink, hrest⟩ := List.forall_mem_cons.mp h
    have hstep := link.parseLink_render hlink [' '] (by decide) (by decide) table
    rw [List.map_cons, List.map_cons, List.foldl_cons, List.foldl_cons, ih hrest,
      ← List.singleton_append, hstep]

theorem readPieces_renderHeader {links : List HeaderLink} (hne : links ≠ [])
    (hcomma : ∀ link ∈ links, ',' ∉ link.url) (hown : ∀ link ∈ links, link.OwnRel) :
    readPieces ((renderHeader links).splitOn ',') = fill (entries links) := by
  obtain ⟨link, rest, rfl⟩ := List.exists_cons_of_ne_nil hne
  obtain ⟨hlink, hrest⟩ := List.forall_mem_cons.mp hown
  have hstep := link.parseLink_render hlink [] (by decide) (by decide) ∅
  rw [List.nil_append] at hstep
  rw [splitOn_renderHeader hcomma, readPieces, List.foldl_cons, foldl_parseLink rest hrest, hstep]
  rfl

section

variable {uri : Text} {links : List HeaderLink}

/-- Links that are read right are found. -/
theorem mapsLinks_of_readRight (hne : links ≠ []) (h : ∀ link ∈ links, link.ReadRight)
    (hconsistent : Consistent uri links) : MapsLinks links (linksOf uri (renderHeader links)) := by
  have hpieces := readPieces_renderHeader hne (fun link hlink => (h link hlink).no_comma)
    fun link hlink => (h link hlink).own_rel
  have hentries : entries links = links.map fun link => (link.rel, link.url) :=
    List.map_congr_left fun link hlink => by rw [link.readRel_of_readRight (h link hlink)]
  unfold linksOf
  rw [hpieces, hentries]
  constructor
  · intro link hlink
    by_cases hcapabilities : link.rel = "capabilities".toList
    · rw [hcapabilities, Finmap.lookup_insert, hconsistent.capabilities link hlink hcapabilities]
    · rw [Finmap.lookup_insert_of_ne _ hcapabilities]
      refine lookup_fill (List.mem_map_of_mem (f := fun l : HeaderLink => (l.rel, l.url)) hlink) ?_
      intro other hother
      obtain ⟨l, hl, heq⟩ := List.mem_map.mp hother
      obtain ⟨hrel, rfl⟩ := Prod.mk.inj heq
      exact hconsistent.same l hl link hlink hrel
  · intro rel hrel
    rcases Finmap.mem_insert.mp hrel with rfl | hmem
    · exact .inl rfl
    · rw [mem_fill_iff, List.map_map] at hmem
      obtain ⟨link, hlink, heq⟩ := List.mem_map.mp hmem
      exact .inr ⟨link, hlink, heq⟩

/-! ## What must hold -/

/-- The header without links has a piece, for which an entry is made. -/
theorem not_mapsLinks_nil : ¬ MapsLinks [] (linksOf uri (renderHeader [])) := by
  intro h
  have hmem : ([] : Text) ∈ linksOf uri (renderHeader []) :=
    Finmap.mem_insert.mpr (.inr (Finmap.mem_insert.mpr (.inl rfl)))
  rcases h.only [] hmem with heq | ⟨link, hlink, _⟩
  · exact nomatch heq
  · exact nomatch hlink

/-- What is entered for a piece is a part of it. -/
theorem exists_parseLink (piece : Text) : ∃ key start stop, ∀ table : Links,
    parseLink piece table = table.insert key (piece.slice start stop) :=
  ⟨_, _, _, fun _ => rfl⟩

/-- No URL that is read from the header has a comma. -/
theorem comma_not_mem_of_lookup {pieces : List Text} (hpieces : ∀ piece ∈ pieces, ',' ∉ piece)
    {rel url : Text} (h : (readPieces pieces).lookup rel = some url) : ',' ∉ url := by
  unfold readPieces at h
  induction pieces using List.reverseRecOn with
  | nil => exact nomatch h
  | append_singleton pieces piece ih =>
    obtain ⟨hbefore, hpiece⟩ := List.forall_mem_append.mp hpieces
    rw [List.foldl_append, List.foldl_cons, List.foldl_nil] at h
    obtain ⟨key, start, stop, hparse⟩ := exists_parseLink piece
    rw [hparse] at h
    by_cases hkey : rel = key
    · subst hkey
      rw [Finmap.lookup_insert] at h
      obtain rfl := Option.some.inj h
      intro hmem
      exact hpiece piece (List.mem_singleton_self _)
        (List.mem_of_mem_take (List.mem_of_mem_drop hmem))
    · rw [Finmap.lookup_insert_of_ne _ hkey] at h
      exact ih hbefore h

/-- In an ordinary header that is read right no URL has a comma. -/
theorem no_comma_of_mapsLinks (hordinary : Ordinary links)
    (h : MapsLinks links (linksOf uri (renderHeader links))) :
    ∀ link ∈ links, ',' ∉ link.url := by
  intro link hlink
  have hlookup := h.urls link hlink
  unfold linksOf at hlookup
  rw [Finmap.lookup_insert_of_ne _ (hordinary.not_capabilities link hlink)] at hlookup
  exact comma_not_mem_of_lookup (fun piece hpiece => not_mem_of_mem_splitOn hpiece) hlookup

/-- In an ordinary header that is read right the names are the `rel`s, each once. -/
theorem perm_of_mapsLinks (hordinary : Ordinary links)
    (h : MapsLinks links (linksOf uri (renderHeader links))) (hne : links ≠ []) :
    (links.map HeaderLink.readRel).Perm (links.map HeaderLink.rel) := by
  have hpieces := readPieces_renderHeader hne (no_comma_of_mapsLinks hordinary h)
    hordinary.own_rel
  have hsubset : links.map HeaderLink.rel ⊆ links.map HeaderLink.readRel := by
    intro rel hrel
    obtain ⟨link, hlink, rfl⟩ := List.mem_map.mp hrel
    have hlookup := h.urls link hlink
    unfold linksOf at hlookup
    rw [Finmap.lookup_insert_of_ne _ (hordinary.not_capabilities link hlink), hpieces] at hlookup
    have hmem := List.mem_map_of_mem (f := Prod.fst) (mem_of_lookup_fill hlookup)
    rwa [entries, List.map_map] at hmem
  have hsubperm := List.subperm_of_subset hordinary.nodup hsubset
  exact (hsubperm.perm_of_length_le (by simp)).symm

theorem readRight_of_mapsLinks (hordinary : Ordinary links)
    (h : MapsLinks links (linksOf uri (renderHeader links))) (hne : links ≠ []) :
    ∀ link ∈ links, link.ReadRight := by
  have hperm := perm_of_mapsLinks hordinary h hne
  have hbegins : ∀ link ∈ links, link.readRel <+: link.rel := by
    intro link hlink
    apply link.readRel_prefix
    have hmem := hperm.mem_iff.mp (List.mem_map_of_mem (f := HeaderLink.readRel) hlink)
    obtain ⟨other, _, heq⟩ := List.mem_map.mp hmem
    rw [← heq]
    exact other.semicolon_not_mem_rel
  have hsum : (links.map fun link => link.readRel.length).sum =
      (links.map fun link => link.rel.length).sum := by
    have hlengths := (hperm.map List.length).sum_eq
    rwa [List.map_map, List.map_map] at hlengths
  intro link hlink
  have hlength := eq_of_sum_eq (fun l hl => (hbegins l hl).length_le) hsum link hlink
  exact link.readRight_of_readRel (no_comma_of_mapsLinks hordinary h link hlink)
    (hordinary.own_rel link hlink) ((hbegins link hlink).eq_of_length hlength)

end

/-! ## `HEAD_for_links` -/

theorem run_headForLinks {server : Nat → Except PyException Reply} {s next : Session}
    {response : Response} {header : Text}
    (hstandalone : s.proxy.opts.standalone = false)
    (hresponse : (doRequest server .head s.proxy.opts.restConnection.uri none (some "link")).run s =
      .ok response next)
    (hstatus : response.status < 300) (hheader : response.header = some header) :
    (headForLinks server).run s =
      .ok (linksOf s.proxy.opts.restConnection.uri header) next := by
  unfold headForLinks
  rw [EStateM.run_bind]
  change EStateM.run (if s.proxy.opts.standalone = true then _ else _) s = _
  rw [if_neg (by rw [hstandalone]; decide), EStateM.run_bind, hresponse]
  change EStateM.run (if 300 ≤ response.status then _ else _) next = _
  rw [if_neg (by omega), hheader]
  rfl

/-- `HEAD_for_links` maps the links of a header that is not empty if it reads all of them right,
and they do not contradict each other.  The links of an ordinary header it maps exactly if it
reads them right. -/
theorem headForLinks_maps (server : Nat → Except PyException Reply) (s next : Session)
    (response : Response) (links : List HeaderLink)
    (hstandalone : s.proxy.opts.standalone = false)
    (hresponse : (doRequest server .head s.proxy.opts.restConnection.uri none (some "link")).run s =
      .ok response next)
    (hstatus : response.status < 300) (hheader : response.header = some (renderHeader links)) :
    ∃ found, (headForLinks server).run s = .ok found next ∧
      (links ≠ [] ∧ (∀ link ∈ links, link.ReadRight) ∧
          Consistent s.proxy.opts.restConnection.uri links → MapsLinks links found) ∧
      (Ordinary links →
        (MapsLinks links found ↔ links ≠ [] ∧ ∀ link ∈ links, link.ReadRight)) := by
  refine ⟨_, run_headForLinks hstandalone hresponse hstatus hheader, ?_, fun hordinary => ?_⟩
  · rintro ⟨hne, hright, hconsistent⟩
    exact mapsLinks_of_readRight hne hright hconsistent
  · constructor
    · intro h
      have hne : links ≠ [] := by
        rintro rfl
        exact not_mapsLinks_nil h
      exact ⟨hne, readRight_of_mapsLinks hordinary h hne⟩
    · rintro ⟨hne, hright⟩
      refine mapsLinks_of_readRight hne hright ⟨fun link hlink other hother heq => ?_, ?_⟩
      · exact congrArg HeaderLink.url
          (List.inj_on_of_nodup_map hordinary.nodup hlink hother heq)
      · exact fun link hlink heq => absurd heq (hordinary.not_capabilities link hlink)

/-- The link to the virtual machines, with a title after its `rel` or without. -/
def vmsLink (after : List LinkParam) : HeaderLink where
  url := "/ovirt-engine/api/vms".toList
  before := []
  rel := "vms".toList
  after := after
  url_plain := by decide
  rel_plain := List.all_iff_forall_prop.mp (by decide)

/-- A title. -/
def titleParam : LinkParam where
  name := "title".toList
  value := "machines".toList
  plain := List.all_iff_forall_prop.mp (by decide)

/-- A server that tells these links. -/
def linkServer (links : List HeaderLink) (_ : Nat) : Except PyException Reply :=
  .ok
    { status := 200
      reason := "OK".toList
      body := []
      header := fun name => if name = "link" then some (renderHeader links) else none }

/-- Links without another parameter, with one before `rel`, and with one on either side, the first
of which is as long as the value of `rel`. -/
def threeLinks : List HeaderLink :=
  [vmsLink [],
    { url := "/ovirt-engine/api/templates".toList
      before := [titleParam]
      rel := "templates".toList
      after := []
      url_plain := by decide
      rel_plain := List.all_iff_forall_prop.mp (by decide) },
    { url := "/ovirt-engine/api/events".toList
      before := [⟨"a".toList, "all".toList, List.all_iff_forall_prop.mp (by decide)⟩]
      rel := "events".toList
      after := [titleParam]
      url_plain := by decide
      rel_plain := List.all_iff_forall_prop.mp (by decide) }]

theorem headForLinks_maps_three :
    ∃ found next, (headForLinks (linkServer threeLinks)).run (Session.init adminOpts) =
        .ok found next ∧ MapsLinks threeLinks found := by
  obtain ⟨found, hrun, hmaps, _⟩ := headForLinks_maps (linkServer threeLinks)
    (Session.init adminOpts) _ _ threeLinks rfl rfl (by decide) rfl
  have hnodup : (threeLinks.map HeaderLink.rel).Nodup := by decide
  have hright : ∀ link ∈ threeLinks, ',' ∉ link.url ∧
      Text.index? "rel=".toList (link.lead ++ "rel=".toList) = some link.lead.length ∧
      (link.after.isEmpty = true ∨
        ';' ∈ link.lead ∧ (upTo ';' link.lead).length = link.rel.length) := by
    decide
  refine ⟨found, _, hrun, hmaps ⟨List.cons_ne_nil _ _, fun link hlink => ?_, ?_, ?_⟩⟩
  · obtain ⟨hcomma, hown, hcut⟩ := hright link hlink
    exact ⟨hcomma, hown, hcut.imp_left List.isEmpty_iff.mp⟩
  · intro link hlink other hother hrel
    exact congrArg HeaderLink.url (List.inj_on_of_nodup_map hnodup hlink hother hrel)
  · have hnone : ∀ link ∈ threeLinks, link.rel ≠ "capabilities".toList := by decide
    exact fun link hlink hrel => absurd hrel (hnone link hlink)

/-- A parameter after `rel` is read as a part of it. -/
theorem parameter_after_rel :
    ∃ found next,
      (headForLinks (linkServer [vmsLink [titleParam]])).run (Session.init adminOpts) =
          .ok found next ∧ ¬ MapsLinks [vmsLink [titleParam]] found := by
  refine ⟨_, _, run_headForLinks rfl rfl (by decide) rfl, fun h => ?_⟩
  have hordinary : Ordinary [vmsLink [titleParam]] := by
    refine ⟨List.nodup_singleton _, fun link hlink => ?_, fun link hlink => ?_⟩
    · obtain rfl := List.mem_singleton.mp hlink
      unfold HeaderLink.OwnRel
      decide
    · obtain rfl := List.mem_singleton.mp hlink
      decide
  have hright := readRight_of_mapsLinks hordinary h (List.cons_ne_nil _ _) _
    (List.mem_singleton_self _)
  exact absurd hright.cut (by decide)

end OvirtArt.CoreApi
