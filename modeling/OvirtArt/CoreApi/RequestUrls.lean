import OvirtArt.CoreApi.RestUtilHeaders
import OvirtArt.CoreApi.TextSearch
import OvirtArt.Foundation.Collecting

set_option autoImplicit false

/-!
# The URLs of `create`, `update`, `delete` and `syncAction`

A request is sent to an address with a limit on collections and operations as matrix parameters,
and with flags as its query.  This file says when these can be read back from the URL.

A URL is read by what is generally known of URLs, not by the code that wrote it.  The result holds
the four operations to one condition on the names and values that they put in, and says which of
them meet it by themselves.
-/

namespace OvirtArt.CoreApi

open OvirtArt.Foundation

/-- What the URL of a request is put together from.  The names of flags have no separators. -/
structure UrlParts where
  href : Text
  maxCollection : Option Text := none
  flags : List (Text × Bool) := []
  operations : List Text := []
  plain : ∀ flag ∈ flags, '?' ∉ flag.1 ∧ '&' ∉ flag.1

namespace UrlParts

variable (parts : UrlParts)

/-- `max=` and the limit on collections, if there is one. -/
def maxParam : List Text := parts.maxCollection.toList.map ("max=".toList ++ ·)

/-- All matrix parameters, in their order. -/
def matrix : List Text := parts.maxParam ++ parts.operations

/-- The names of the flags that are set. -/
def setFlags : List Text := (parts.flags.filter Prod.snd).map Prod.fst

/-! ## What is asked of a URL -/

/-- The path of a URL. -/
def path (url : Text) : Text := upTo '?' url

/-- The names in the query of a URL. -/
def queryNames (url : Text) : List Text :=
  match afterFirst? '?' url with
  | none => []
  | some query => query.splitOn '&'

/-- The URL has at most one query, the path with its matrix parameters is everything before it,
its query names the flags that are set, and the address and the parameters are read back from the
path. -/
structure Right (url : Text) : Prop where
  one_query : url.count '?' ≤ 1
  path_eq : path url = Text.join [';'] (parts.href :: parts.matrix)
  names : ∀ name, name ∈ queryNames url ↔ name ∈ parts.setFlags
  recovered : (path url).splitOn ';' = parts.href :: parts.matrix

/-- There are no separators in the address and the parameters, and at most one flag is set, where
none is if there are operations. -/
structure Clean : Prop where
  no_separators : ∀ segment ∈ parts.href :: parts.matrix, '?' ∉ segment ∧ ';' ∉ segment
  one_flag : parts.setFlags.length ≤ 1
  no_operations : parts.setFlags ≠ [] → parts.operations = []

end UrlParts

/-! ## What is sent -/

namespace RestUtil

variable {Obj : Type} (py : Objects Obj) (self : RestUtil)

/-- The address of the collection of `create`. -/
def collectionHref (args : CreateArgs Obj) : Except PyException Text :=
  if Text.truthy args.collection then .ok (args.collection.getD [])
  else self.link self.collectionName

/-- What `create` puts into its URL. -/
def createParts (args : CreateArgs Obj) (href : Text) : UrlParts where
  href := href
  maxCollection := self.maxCollection
  flags :=
    [("current".toList, args.current), ("deploy_hosted_engine".toList, args.deployHostedEngine)]
  operations := args.operations
  plain := by simp

/-- What `update` puts into its URL. -/
def updateParts (args : UpdateArgs Obj) (href : Text) : UrlParts where
  href := href
  flags := [("current".toList, args.current)]
  plain := by simp

/-- What `delete` puts into its URL. -/
def deleteParts (args : DeleteArgs Obj) (href : Text) : UrlParts where
  href := href
  operations := args.operations
  plain := by simp

/-- What `syncAction` puts into its URL. -/
def actionParts (args : ActionArgs Obj) (href : Text) : UrlParts where
  href := href
  flags :=
    [("deploy_hosted_engine".toList, args.deployHostedEngine),
      ("undeploy_hosted_engine".toList, args.undeployHostedEngine)]
  operations := args.operations
  plain := by simp

/-- An operation sends its request to this URL. -/
inductive Sends : UrlParts → Text → Prop
  | create (args : CreateArgs Obj) (href posted body : Text)
      (hhref : self.collectionHref args = .ok href)
      (hrequest : self.createRequest py args = .ok (posted, body)) :
      Sends (self.createParts args href) (createUrl args posted)
  | update (args : UpdateArgs Obj) (href url body : Text)
      (hhref : hrefOf py args.origEntity = .ok href)
      (hrequest : self.updateRequest py args = .ok (url, body)) :
      Sends (updateParts args href) url
  | delete (args : DeleteArgs Obj) (href url : Text)
      (hhref : hrefOf py args.entity = .ok href)
      (hrequest : deleteHref py args = .ok url) :
      Sends (deleteParts args href) url
  | syncAction (args : ActionArgs Obj) (href url body : Text)
      (hhref : self.actionHref py args = .ok href)
      (hrequest : self.actionRequest py args = .ok (url, body)) :
      Sends (actionParts args href) url

end RestUtil

namespace UrlParts

variable (parts : UrlParts)

/-- The URL that is put together from the parts. -/
def sent : Text :=
  parts.href ++ delimited ';' parts.maxParam ++ delimited '?' parts.setFlags ++
    delimited ';' parts.operations

end UrlParts

theorem buildUrl_eq (href : Text) (flags : List (Text × Bool)) :
    buildUrl href flags = href ++ delimited '?' ((flags.filter Prod.snd).map Prod.fst) := by
  unfold buildUrl
  induction flags generalizing href with
  | nil => simp
  | cons flag rest ih =>
    obtain ⟨name, isSet⟩ := flag
    rw [List.foldl_cons, ih]
    cases isSet with
    | false => rfl
    | true => simp

theorem withOperations_eq (url : Text) (operations : List Text) :
    withOperations url operations = url ++ delimited ';' operations := by
  unfold withOperations
  cases operations with
  | nil => simp
  | cons operation rest => simp [Text.join_eq_delimited]

theorem RestUtil.withMaxCollection_eq (self : RestUtil) (href : Text) :
    self.withMaxCollection href =
      href ++ delimited ';' (self.maxCollection.toList.map ("max=".toList ++ ·)) := by
  unfold RestUtil.withMaxCollection
  cases self.maxCollection with
  | none => simp
  | some size => simp

namespace RestUtil

variable {Obj : Type} {py : Objects Obj} {self : RestUtil}

theorem createRequest_eq (args : CreateArgs Obj) :
    self.createRequest py args = (self.collectionHref args).bind fun href =>
      (py.dumpEntity args.entity (self.collElmName args)).map fun entity =>
        (self.withMaxCollection href, entity) := by
  unfold createRequest collectionHref
  split
  · rfl
  · cases self.link self.collectionName <;> rfl

theorem updateRequest_eq (args : UpdateArgs Obj) :
    self.updateRequest py args = (py.dumpEntity args.newEntity self.elementName).bind fun entity =>
      (hrefOf py args.origEntity).map fun href =>
        (buildUrl href [("current".toList, args.current)], entity) := rfl

theorem deleteHref_eq (args : DeleteArgs Obj) :
    deleteHref py args =
      (hrefOf py args.entity).map fun href => withOperations href args.operations := rfl

theorem actionRequest_eq (args : ActionArgs Obj) :
    self.actionRequest py args = (self.actionHref py args).bind fun href =>
      ((py.makeAction args.async args.kwargs).bind fun action =>
        py.dumpEntity action "action".toList).map fun body =>
          (withOperations (buildUrl href (actionParts args href).flags) args.operations, body) := by
  unfold actionRequest
  cases self.actionHref py args with
  | error e => rfl
  | ok href =>
    change (py.makeAction args.async args.kwargs >>= fun action => _) =
      ((py.makeAction args.async args.kwargs).bind _).map _
    cases py.makeAction args.async args.kwargs with
    | error e => rfl
    | ok action => rfl

/-- What every operation sends is put together from its parts. -/
theorem Sends.eq_sent {parts : UrlParts} {url : Text} (h : Sends py self parts url) :
    url = parts.sent := by
  unfold UrlParts.sent UrlParts.setFlags UrlParts.maxParam
  cases h with
  | create args href posted body hhref hrequest =>
    rw [createRequest_eq, hhref] at hrequest
    obtain ⟨entity, _, heq⟩ := map_eq_ok_iff.mp hrequest
    obtain ⟨rfl, rfl⟩ := Prod.mk.inj heq
    unfold createUrl
    rw [withOperations_eq, buildUrl_eq, withMaxCollection_eq]
    rfl
  | update args href url body hhref hrequest =>
    rw [updateRequest_eq, hhref] at hrequest
    obtain ⟨entity, _, hmap⟩ := bind_eq_ok_iff.mp hrequest
    obtain ⟨rfl, rfl⟩ := Prod.mk.inj (Except.ok.inj hmap)
    rw [buildUrl_eq]
    simp [updateParts]
  | delete args href url hhref hrequest =>
    rw [deleteHref_eq, hhref] at hrequest
    obtain rfl := Except.ok.inj hrequest
    dsimp only
    rw [withOperations_eq]
    simp [deleteParts]
  | syncAction args href url body hhref hrequest =>
    rw [actionRequest_eq, hhref] at hrequest
    obtain ⟨body', _, heq⟩ := map_eq_ok_iff.mp hrequest
    obtain ⟨rfl, rfl⟩ := Prod.mk.inj heq
    rw [withOperations_eq, buildUrl_eq]
    simp [actionParts]

end RestUtil

/-! ## What can be read back -/

namespace UrlParts

variable (parts : UrlParts)

theorem path_eq_delimited :
    Text.join [';'] (parts.href :: parts.matrix) =
      parts.href ++ delimited ';' parts.maxParam ++ delimited ';' parts.operations := by
  rw [Text.join_eq_delimited, matrix, delimited_append, List.append_assoc]

theorem question_not_mem_join (h : ∀ segment ∈ parts.href :: parts.matrix, '?' ∉ segment) :
    '?' ∉ Text.join [';'] (parts.href :: parts.matrix) :=
  (Text.not_mem_join_iff (by decide) _ _).mpr h

variable {name : Text}

theorem plain_of_mem_setFlags (h : name ∈ parts.setFlags) : '?' ∉ name ∧ '&' ∉ name := by
  obtain ⟨flag, hflag, rfl⟩ := List.mem_map.mp h
  exact parts.plain flag (List.mem_of_mem_filter hflag)

/-- The flags give the question marks. -/
theorem count_sent_of_no_separators
    (h : ∀ segment ∈ parts.href :: parts.matrix, '?' ∉ segment) :
    parts.sent.count '?' = parts.setFlags.length := by
  have hpath := parts.question_not_mem_join h
  rw [path_eq_delimited, List.mem_append, not_or] at hpath
  rw [sent, List.count_append, List.count_append, List.count_eq_zero.mpr hpath.1,
    List.count_eq_zero.mpr hpath.2,
    count_delimited fun name hname => (parts.plain_of_mem_setFlags hname).1]
  omega

theorem sent_of_setFlags_nil (h : parts.setFlags = []) :
    parts.sent = Text.join [';'] (parts.href :: parts.matrix) := by
  rw [path_eq_delimited, sent, h, delimited_nil, List.append_nil]

/-- The first flag ends the path. -/
theorem sent_of_setFlags_cons {rest : List Text} (h : parts.setFlags = name :: rest) :
    parts.sent = (parts.href ++ delimited ';' parts.maxParam) ++
      '?' :: (name ++ delimited '?' rest ++ delimited ';' parts.operations) := by
  rw [sent, h]
  simp

variable {parts}

theorem Right.no_separators (h : parts.Right parts.sent) :
    ∀ segment ∈ parts.href :: parts.matrix, '?' ∉ segment ∧ ';' ∉ segment := by
  have hquery := not_mem_upTo '?' parts.sent
  rw [show upTo '?' parts.sent = path parts.sent from rfl, h.path_eq,
    Text.not_mem_join_iff (by decide)] at hquery
  have hrecovered := h.recovered
  rw [h.path_eq, Text.join_eq_delimited, splitOn_delimited_iff] at hrecovered
  exact fun segment hsegment => ⟨hquery segment hsegment, hrecovered segment hsegment⟩

/-- With a flag, the path has the limit on collections as its last parameter. -/
theorem path_sent_of_setFlags_cons {rest : List Text} (h : parts.setFlags = name :: rest)
    (hclean : ∀ segment ∈ parts.href :: parts.matrix, '?' ∉ segment) :
    '?' ∉ parts.href ++ delimited ';' parts.maxParam ∧
      path parts.sent = parts.href ++ delimited ';' parts.maxParam := by
  have hpath := parts.question_not_mem_join hclean
  rw [path_eq_delimited, List.mem_append, not_or] at hpath
  refine ⟨hpath.1, ?_⟩
  rw [sent_of_setFlags_cons parts h]
  exact upTo_append hpath.1

theorem Right.clean (h : parts.Right parts.sent) : parts.Clean where
  no_separators := h.no_separators
  one_flag := by
    rw [← parts.count_sent_of_no_separators fun segment hsegment =>
      (h.no_separators segment hsegment).1]
    exact h.one_query
  no_operations := by
    intro hflags
    obtain ⟨name, rest, hset⟩ := List.exists_cons_of_ne_nil hflags
    have hpath := (path_sent_of_setFlags_cons hset fun segment hsegment =>
      (h.no_separators segment hsegment).1).2
    rw [h.path_eq, path_eq_delimited] at hpath
    exact delimited_eq_nil_iff.mp (List.append_right_eq_self.mp hpath)

theorem Clean.right (h : parts.Clean) : parts.Right parts.sent := by
  have hquery : ∀ segment ∈ parts.href :: parts.matrix, '?' ∉ segment :=
    fun segment hsegment => (h.no_separators segment hsegment).1
  have hjoin := parts.question_not_mem_join hquery
  have hrecovered : (Text.join [';'] (parts.href :: parts.matrix)).splitOn ';' =
      parts.href :: parts.matrix := by
    rw [Text.join_eq_delimited, splitOn_delimited_iff]
    exact fun segment hsegment => (h.no_separators segment hsegment).2
  have hcount : parts.sent.count '?' ≤ 1 := by
    rw [parts.count_sent_of_no_separators hquery]
    exact h.one_flag
  cases hset : parts.setFlags with
  | nil =>
    have hsent := sent_of_setFlags_nil parts hset
    have hpath : path parts.sent = Text.join [';'] (parts.href :: parts.matrix) := by
      rw [hsent]
      exact upTo_of_not_mem hjoin
    refine ⟨hcount, hpath, fun name => ?_, hpath ▸ hrecovered⟩
    rw [queryNames, hsent, afterFirst?_of_not_mem hjoin, hset]
  | cons name rest =>
    have honly : rest = [] := by
      have hone := h.one_flag
      rw [hset, List.length_cons] at hone
      exact List.eq_nil_of_length_eq_zero (by omega)
    have hoperations : parts.operations = [] := h.no_operations (hset ▸ List.cons_ne_nil _ _)
    obtain ⟨hbase, hpath⟩ := path_sent_of_setFlags_cons hset hquery
    have hjoined : path parts.sent = Text.join [';'] (parts.href :: parts.matrix) := by
      rw [hpath, path_eq_delimited, hoperations, delimited_nil, List.append_nil]
    refine ⟨hcount, hjoined, fun other => ?_, hjoined ▸ hrecovered⟩
    have hname := (parts.plain_of_mem_setFlags (hset ▸ List.mem_cons_self)).2
    rw [queryNames, sent_of_setFlags_cons parts hset, afterFirst?_append hbase, honly,
      hoperations, hset, honly]
    simp [List.splitOn_eq_singleton hname]

end UrlParts

/-- The URL of a request has its parts in place exactly if there are no separators in the address
and the parameters, and at most one flag is set, where none is if there are operations. -/
theorem sent_right_iff {Obj : Type} (py : Objects Obj) (self : RestUtil) (parts : UrlParts)
    (url : Text) (h : self.Sends py parts url) : parts.Right url ↔ parts.Clean := by
  rw [h.eq_sent]
  exact ⟨UrlParts.Right.clean, UrlParts.Clean.right⟩

/-- A host is created with the flag `deploy_hosted_engine`. -/
def createHost : RestUtil.CreateArgs Unit where
  entity := ()
  positive := true
  deployHostedEngine := true

theorem sent_right_iff_create_host :
    (hostApi.createParts createHost "/ovirt-engine/api/hosts".toList).Right
        (RestUtil.createUrl createHost "/ovirt-engine/api/hosts".toList) ↔
      (hostApi.createParts createHost "/ovirt-engine/api/hosts".toList).Clean :=
  sent_right_iff noObjects hostApi _ _ (.create createHost _ _ [] rfl rfl)

/-- Both flags of `create` give two queries. -/
theorem two_flags_two_queries :
    ∃ parts url, hostApi.Sends noObjects parts url ∧ ¬ parts.Right url := by
  refine ⟨_, _, .create { createHost with current := true } _ _ [] rfl rfl, fun h => ?_⟩
  exact absurd h.one_query (by decide)

end OvirtArt.CoreApi
