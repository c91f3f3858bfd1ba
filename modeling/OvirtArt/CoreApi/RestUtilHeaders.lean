import OvirtArt.CoreApi.HttpSpec
import OvirtArt.CoreApi.RestUtil

set_option autoImplicit false

/-!
# What the operations leave in the shared headers

Each operation changes the headers in one way, whatever the server replies and
whether it returns or raises; they are as they were before exactly under a
condition on the arguments and the headers.

There is one frame lemma for each operation, and one induction over the run of all of them.
Nothing is assumed of the server: a reply that raises leaves the headers as the source leaves
them.
-/

namespace OvirtArt.CoreApi

open OvirtArt.Foundation

/-- The headers that all `RestUtil` objects share. -/
def Session.headers (s : Session) : Headers := s.proxy.headers

namespace RestUtil

variable {Obj : Type} {py : Objects Obj} {server : Nat → Except PyException Reply}

/-! ## Single headers -/

theorem moves_setHeader (name : String) (value : HeaderValue) :
    Moves Session.headers (fun headers => headers.insert name value) (setHeader name value) :=
  moves_modify fun _ => rfl

/-- A header that is not there is not popped. -/
theorem moves_popHeader (name : String) :
    Moves Session.headers (fun headers => headers.erase name) (popHeader name) := by
  unfold popHeader
  intro s
  rw [after_get_bind]
  by_cases hmem : name ∈ s.proxy.headers
  · rw [if_pos hmem]
    rfl
  · rw [if_neg hmem]
    refine Finmap.ext_lookup fun other => ?_
    by_cases hother : other = name
    · subst hother
      rw [Finmap.lookup_erase]
      exact Finmap.lookup_eq_none.mpr hmem
    · rw [Finmap.lookup_erase_ne hother]
      rfl

theorem moves_setHeaders (customHeaders : Headers) :
    Moves Session.headers (fun headers => customHeaders ∪ headers) (setHeaders customHeaders) :=
  moves_modify fun _ => rfl

/-- Requests leave the shared headers as they are. -/
theorem keeps_request (method : Method) (url : Text) (body : Option Text)
    (getHeader : Option String) :
    Keeps Session.headers (doRequest server method url body getHeader) :=
  fun s => congrArg Prod.fst (keeps_doRequest method url body getHeader s)

theorem erase_insert (name : String) (value : HeaderValue) (headers : Headers) :
    (headers.insert name value).erase name = headers.erase name := by
  refine Finmap.ext_lookup fun other => ?_
  by_cases hother : other = name
  · subst hother
    rw [Finmap.lookup_erase, Finmap.lookup_erase]
  · rw [Finmap.lookup_erase_ne hother, Finmap.lookup_erase_ne hother,
      Finmap.lookup_insert_of_ne _ hother]

theorem moves_setAllContent (allContent value : HeaderValue) :
    Moves Session.headers
      (if allContent.truthy then fun headers => headers.insert "All-content" value else id)
      (setAllContent allContent value) := by
  unfold setAllContent
  split
  · exact moves_setHeader "All-content" value
  · exact keeps_pure ()

/-- The header that is set before is popped afterwards, whatever comes of what is
between. -/
theorem moves_withAllContent {α : Type} {m : Api α} (hm : Keeps Session.headers m)
    (allContent : HeaderValue) :
    Moves Session.headers
      (if allContent.truthy then fun headers => headers.erase "All-content" else id)
      (setAllContent allContent allContent >>= fun _ =>
        tryFinally m (popAllContent allContent)) := by
  unfold setAllContent popAllContent
  split
  · have hpopped : Moves Session.headers (fun headers => headers.erase "All-content")
        (tryFinally m (popHeader "All-content")) :=
      Moves.tryFinally (hm.comp _) (moves_popHeader "All-content")
    have hset : ∀ s : Session, Session.headers { s with proxy := { s.proxy with
        headers := s.proxy.headers.insert "All-content" allContent } } =
          s.headers.insert "All-content" allContent := fun _ => rfl
    intro s
    exact ((Moves.modify_bind hset hpopped) s).trans (erase_insert _ _ _)
  · refine Moves.bind_keeps (keeps_pure ()) fun _ => ?_
    exact Moves.tryFinally (hm.comp id) (keeps_pure ())

/-- The correlation id is popped in any case, also where it was not computed. -/
theorem moves_correlationIdContext (self : RestUtil) (apiOperation : Text)
    (guid : Except PyException Text) {α : Type} {body : Api α}
    (hbody : Keeps Session.headers body) :
    Moves Session.headers (fun headers => headers.erase "Correlation-Id")
      (self.correlationIdContext apiOperation guid body) := by
  refine Moves.tryFinally ?_ (moves_popHeader "Correlation-Id")
  refine Moves.bind_keeps (keeps_fromExcept _) fun value => ?_
  refine Moves.bind_keeps ?_ fun _ => hbody.comp _
  exact moves_modify fun s => erase_insert "Correlation-Id" value s.headers

/-! ## Operations that read -/

theorem moves_get (self : RestUtil) (args : GetArgs) :
    Moves Session.headers (fun headers => args.customHeaders ∪ headers)
      (self.get py server args) := by
  refine Moves.bind_keeps (moves_setHeaders _) fun _ => ?_
  exact Moves.bind_keeps (keeps_request _ _ _ _) fun _ => keeps_fromExcept _

/-- A request without headers of its own keeps the shared ones. -/
theorem keeps_get (self : RestUtil) {args : GetArgs} (hnone : args.customHeaders = ∅) :
    Keeps Session.headers (self.get py server args) := by
  intro s
  rw [moves_get, hnone]
  exact Finmap.empty_union

theorem moves_find (self : RestUtil) (args : FindArgs Obj) :
    Moves Session.headers
      (if args.allContent.truthy then fun headers => headers.insert "All-content" args.allContent
        else id)
      (self.find py server args) := by
  refine Moves.bind_keeps (moves_setAllContent _ _) fun _ => ?_
  refine Moves.bind_keeps (keeps_fromExcept _) fun href => ?_
  refine Moves.bind_keeps ?_ fun _ => keeps_fromExcept _
  refine Moves.ite (fun _ => keeps_pure _) fun _ => ?_
  exact keeps_get _ rfl

theorem moves_query (self : RestUtil) (args : QueryArgs) :
    Moves Session.headers
      (if (self.queryHref py args).isOk then
        (if args.allContent.truthy then fun headers => headers.erase "All-content" else id)
        else id)
      (self.query py server args) := by
  refine moves_fromExcept_bind fun href _ => ?_
  rw [← bind_assoc]
  refine Moves.bind_keeps ?_ fun _ => keeps_fromExcept _
  exact moves_withAllContent (keeps_request _ _ _ _) args.allContent

theorem keeps_followLinks (self : RestUtil) (elm : Obj) (linkName attr : Text) (getHref : Bool)
    (links : List Obj) :
    Keeps Session.headers (self.followLinks py server elm linkName attr getHref links) := by
  induction links with
  | nil => exact keeps_pure _
  | cons link rest ih =>
    refine Moves.bind_keeps (keeps_fromExcept _) fun rel => ?_
    refine Moves.ite (fun _ => ?_) fun _ => ih
    refine Moves.bind_keeps (keeps_fromExcept _) fun href => ?_
    refine Moves.ite (fun _ => keeps_pure _) fun _ => ?_
    exact Moves.bind_keeps (keeps_get _ rfl) fun _ => keeps_fromExcept _

theorem moves_getElemFromLink (self : RestUtil) (elm : Obj) (args : LinkArgs) :
    Moves Session.headers
      (if args.allContent.truthy then fun headers => headers.erase "All-content" else id)
      (self.getElemFromLink py server elm args) := by
  refine moves_withAllContent ?_ args.allContent
  refine Moves.bind_keeps (keeps_fromExcept _) fun links => ?_
  refine Moves.bind_keeps (keeps_fromExcept _) fun links => ?_
  exact keeps_followLinks _ _ _ _ _ _

theorem moves_getElemFromElemColl (self : RestUtil) (elm : Obj) (args : CollArgs Obj) :
    Moves Session.headers
      (if args.allContent.truthy then
        fun headers => headers.insert "All-content" (some (.bool true)) else id)
      (self.getElemFromElemColl py server elm args) := by
  refine Moves.bind_keeps (moves_setAllContent _ _) fun _ => ?_
  refine Moves.bind_keeps (moves_getElemFromLink _ _ _) fun objs => ?_
  refine Moves.bind_keeps ?_ fun _ => keeps_fromExcept _
  exact Moves.ite (fun _ => keeps_fromExcept _) fun _ => keeps_pure _

/-! ## Operations that write -/

theorem keeps_createJudge (self : RestUtil) (args : CreateArgs Obj) (href entity : Text)
    (ret : Response) :
    Keeps Session.headers (self.createJudge py server args href entity ret) := by
  refine Moves.ite (fun _ => keeps_pure _) fun _ => ?_
  refine Moves.ite (fun _ => keeps_pure _) fun _ => ?_
  refine Moves.bind_keeps (keeps_get _ rfl) fun collection => ?_
  refine Moves.ite (fun _ => ?_) fun _ => keeps_fromExcept _
  refine Moves.ite (fun _ => keeps_pure _) fun _ => ?_
  refine Moves.bind_keeps (keeps_fromExcept _) fun compared => ?_
  cases compared with
  | none => exact keeps_pure _
  | some actualEntity =>
    refine Moves.ite (fun _ => keeps_fromExcept _) fun _ => ?_
    refine Moves.bind_keeps (keeps_fromExcept _) fun actual => ?_
    refine Moves.bind_keeps (keeps_fromExcept _) fun id => ?_
    exact Moves.bind_keeps (moves_find _ _) fun _ => keeps_fromExcept _

/-- The change that an operation with a correlation id makes once its request is
computed. -/
def popCorrelationId {α : Type} (request : Except PyException α) : Headers → Headers :=
  if request.isOk then fun headers => headers.erase "Correlation-Id" else id

theorem moves_create (self : RestUtil) (guid : Except PyException Text)
    (args : CreateArgs Obj) :
    Moves Session.headers (popCorrelationId (self.createRequest py args))
      (self.create py server guid args) := by
  refine moves_fromExcept_bind fun request _ => ?_
  refine Moves.bind_keeps ?_ fun ret => keeps_createJudge _ _ _ _ _
  exact moves_correlationIdContext _ _ _ (keeps_request _ _ _ _)

theorem moves_update (self : RestUtil) (guid : Except PyException Text)
    (args : UpdateArgs Obj) :
    Moves Session.headers (popCorrelationId (self.updateRequest py args))
      (self.update py server guid args) := by
  refine moves_fromExcept_bind fun request _ => ?_
  refine Moves.bind_keeps ?_ fun ret => keeps_fromExcept _
  exact moves_correlationIdContext _ _ _ (keeps_request _ _ _ _)

theorem moves_delete (self : RestUtil) (guid : Except PyException Text)
    (args : DeleteArgs Obj) :
    Moves Session.headers (popCorrelationId (deleteHref py args))
      (self.delete py server guid args) := by
  refine moves_fromExcept_bind fun href _ => ?_
  refine Moves.bind_keeps ?_ fun ret => keeps_fromExcept _
  exact moves_correlationIdContext _ _ _ (keeps_request _ _ _ _)

theorem moves_syncAction (self : RestUtil) (guid : Except PyException Text)
    (args : ActionArgs Obj) :
    Moves Session.headers (popCorrelationId (self.actionRequest py args))
      (self.syncAction py server guid args) := by
  refine moves_fromExcept_bind fun request _ => ?_
  refine Moves.bind_keeps ?_ fun ret => keeps_fromExcept _
  exact moves_correlationIdContext _ _ _ (keeps_request _ _ _ _)

end RestUtil

/-! ## One call -/

namespace Operation

variable {Obj : Type} {server : Nat → Except PyException Reply}

/-- The change that a call makes to the shared headers. -/
def change (py : Objects Obj) : Operation Obj → Headers → Headers
  | get _ args => fun headers => args.customHeaders ∪ headers
  | find _ args =>
    if args.allContent.truthy then fun headers => headers.insert "All-content" args.allContent
    else id
  | query self args =>
    if (self.queryHref py args).isOk then
      (if args.allContent.truthy then fun headers => headers.erase "All-content" else id)
    else id
  | getElemFromLink _ _ args =>
    if args.allContent.truthy then fun headers => headers.erase "All-content" else id
  | getElemFromElemColl _ _ args =>
    if args.allContent.truthy then
      fun headers => headers.insert "All-content" (some (.bool true))
    else id
  | create self _ args => RestUtil.popCorrelationId (self.createRequest py args)
  | update self _ args => RestUtil.popCorrelationId (self.updateRequest py args)
  | delete _ _ args => RestUtil.popCorrelationId (RestUtil.deleteHref py args)
  | syncAction self _ args => RestUtil.popCorrelationId (self.actionRequest py args)

/-- The condition under which a call leaves the shared headers as they were.  It
does not depend on what the server replies, nor on whether the call raises once
it has computed what to send. -/
def Harmless (py : Objects Obj) (headers : Headers) : Operation Obj → Prop
  | get _ args =>
    ∀ name value, args.customHeaders.lookup name = some value → headers.lookup name = some value
  | find _ args => args.allContent.truthy → headers.lookup "All-content" = some args.allContent
  | query self args =>
    (self.queryHref py args).isOk → args.allContent.truthy → "All-content" ∉ headers
  | getElemFromLink _ _ args => args.allContent.truthy → "All-content" ∉ headers
  | getElemFromElemColl _ _ args =>
    args.allContent.truthy → headers.lookup "All-content" = some (some (.bool true))
  | create self _ args => (self.createRequest py args).isOk → "Correlation-Id" ∉ headers
  | update self _ args => (self.updateRequest py args).isOk → "Correlation-Id" ∉ headers
  | delete _ _ args => (RestUtil.deleteHref py args).isOk → "Correlation-Id" ∉ headers
  | syncAction self _ args => (self.actionRequest py args).isOk → "Correlation-Id" ∉ headers

/-- Each call changes the headers in its own way, whatever comes of it. -/
theorem moves_perform (py : Objects Obj) (operation : Operation Obj) :
    Moves Session.headers (operation.change py) (operation.perform py server) := by
  cases operation with
  | get self args =>
    exact (RestUtil.moves_get self args).bind_keeps fun _ => keeps_pure _
  | find self args =>
    exact (RestUtil.moves_find self args).bind_keeps fun _ => keeps_pure _
  | query self args =>
    exact (RestUtil.moves_query self args).bind_keeps fun _ => keeps_pure _
  | getElemFromLink self elm args =>
    exact (RestUtil.moves_getElemFromLink self elm args).bind_keeps fun _ => keeps_pure _
  | getElemFromElemColl self elm args =>
    exact (RestUtil.moves_getElemFromElemColl self elm args).bind_keeps fun _ => keeps_pure _
  | create self guid args =>
    exact (RestUtil.moves_create self guid args).bind_keeps fun _ => keeps_pure _
  | update self guid args =>
    exact (RestUtil.moves_update self guid args).bind_keeps fun _ => keeps_pure _
  | delete self guid args =>
    exact (RestUtil.moves_delete self guid args).bind_keeps fun _ => keeps_pure _
  | syncAction self guid args =>
    exact (RestUtil.moves_syncAction self guid args).bind_keeps fun _ => keeps_pure _

/-! ## When a change is none -/

theorem erase_eq_iff (name : String) (headers : Headers) :
    headers.erase name = headers ↔ name ∉ headers := by
  constructor
  · intro h
    rw [← h]
    exact Finmap.notMem_erase_self
  · intro h
    refine Finmap.ext_lookup fun other => ?_
    by_cases hother : other = name
    · subst hother
      rw [Finmap.lookup_erase, Finmap.lookup_eq_none.mpr h]
    · rw [Finmap.lookup_erase_ne hother]

theorem insert_eq_iff (name : String) (value : HeaderValue) (headers : Headers) :
    headers.insert name value = headers ↔ headers.lookup name = some value := by
  constructor
  · intro h
    rw [← h]
    exact Finmap.lookup_insert headers
  · intro h
    refine Finmap.ext_lookup fun other => ?_
    by_cases hother : other = name
    · subst hother
      rw [Finmap.lookup_insert, h]
    · rw [Finmap.lookup_insert_of_ne _ hother]

theorem union_eq_iff (custom headers : Headers) :
    custom ∪ headers = headers ↔
      ∀ name value, custom.lookup name = some value → headers.lookup name = some value := by
  constructor
  · intro h name value hvalue
    rw [← h, Finmap.lookup_union_left (Finmap.mem_of_lookup_eq_some hvalue)]
    exact hvalue
  · intro h
    refine Finmap.ext_lookup fun name => ?_
    cases hvalue : custom.lookup name with
    | none => rw [Finmap.lookup_union_right (Finmap.lookup_eq_none.mp hvalue)]
    | some value =>
      rw [Finmap.lookup_union_left (Finmap.mem_of_lookup_eq_some hvalue), hvalue,
        h name value hvalue]

theorem ite_id_eq_iff {c : Prop} [Decidable c] (f : Headers → Headers) (headers : Headers) :
    (if c then f else id) headers = headers ↔ (c → f headers = headers) := by
  split
  case isTrue hc => simp [hc]
  case isFalse hc => simp [hc]

/-- The condition is exact. -/
theorem change_eq_iff (py : Objects Obj) (operation : Operation Obj) (headers : Headers) :
    operation.change py headers = headers ↔ operation.Harmless py headers := by
  cases operation with
  | get self args => exact union_eq_iff _ _
  | find self args =>
    unfold change Harmless
    rw [ite_id_eq_iff, insert_eq_iff]
  | query self args =>
    unfold change Harmless
    rw [ite_id_eq_iff, ite_id_eq_iff, erase_eq_iff]
  | getElemFromLink self elm args =>
    unfold change Harmless
    rw [ite_id_eq_iff, erase_eq_iff]
  | getElemFromElemColl self elm args =>
    unfold change Harmless
    rw [ite_id_eq_iff, insert_eq_iff]
  | create self guid args =>
    unfold change Harmless RestUtil.popCorrelationId
    rw [ite_id_eq_iff, erase_eq_iff]
  | update self guid args =>
    unfold change Harmless RestUtil.popCorrelationId
    rw [ite_id_eq_iff, erase_eq_iff]
  | delete self guid args =>
    unfold change Harmless RestUtil.popCorrelationId
    rw [ite_id_eq_iff, erase_eq_iff]
  | syncAction self guid args =>
    unfold change Harmless RestUtil.popCorrelationId
    rw [ite_id_eq_iff, erase_eq_iff]

theorem headers_after (py : Objects Obj) (operation : Operation Obj) (s : Session) :
    (after (operation.perform py server) s).headers = s.headers ↔
      operation.Harmless py s.headers := by
  rw [moves_perform py operation s]
  exact change_eq_iff py operation s.headers

end Operation

/-! ## Sequences of calls -/

/-- The frame law of the shared headers.  In a sequence of calls, whatever the
server replies, the headers are after each call what they were in the beginning
exactly if each call is harmless to the headers that it finds. -/
theorem headers_kept_iff {Obj : Type} (py : Objects Obj)
    (server : Nat → Except PyException Reply) (s : Session)
    (operations : List (Operation Obj)) :
    EveryState (Operation.step py server) (fun t => t.headers = s.headers) s operations ↔
      EveryStep (Operation.step py server)
        (fun t operation => operation.Harmless py t.headers) s operations := by
  refine everyState_iff_everyStep (I := fun _ => True) (fun _ _ => trivial) ?_ trivial rfl
  intro t next operation _ hkept hstep
  obtain rfl := Option.some.inj hstep
  rw [← Operation.headers_after py operation t, hkept]

/-- Objects of which nothing can be got. -/
def noObjects : Objects Unit where
  none := ()
  text _ := ()
  list _ := ()
  truthy _ := false
  equal _ _ := true
  isList _ := false
  isFault _ := false
  asText _ := none
  str _ := []
  items _ := .ok []
  getattr _ name := .error (.attributeError name)
  call _ := .error (.external "TypeError")
  parse _ := .error .xmlSyntaxError
  dumpEntity _ _ := .ok []
  compareElements _ _ _ := .ok true
  assertValid _ := .ok ()
  expand href _ := .ok href
  makeAction _ _ := .ok ()
  apiError _ _ _ := ()

/-- The API of hosts. -/
def hostApi : RestUtil where
  elementName := "host".toList
  collectionName := "hosts".toList
  entryPoint := "ovirt-engine/api".toList
  uri := "https://engine:443/ovirt-engine/api/".toList
  links := Finmap.singleton "hosts".toList "/ovirt-engine/api/hosts".toList
  maxCollection := none
  validate := true
  headers := some ∅

/-- `find` with `all_content` leaves its header behind. -/
theorem headers_leak :
    ¬ ∀ (py : Objects Unit) (server : Nat → Except PyException Reply) (s : Session)
      (operations : List (Operation Unit)),
      EveryState (Operation.step py server) (fun t => t.headers = s.headers) s operations := by
  intro hall
  have hstate := hall noObjects (fun _ => .ok (bareReply 200 none)) (Session.init adminOpts)
    [.find hostApi { val := (), allContent := some (.bool true) }]
  have hkept := (hstate.2 _ rfl).head
  have hharmless := (Operation.headers_after noObjects _ _).mp hkept rfl
  exact absurd hharmless (by decide)

end OvirtArt.CoreApi
