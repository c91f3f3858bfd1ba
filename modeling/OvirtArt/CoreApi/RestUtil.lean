import OvirtArt.CoreApi.Http

set_option autoImplicit false

/-!
# `core_api/rest_utils.py`: the operations on the API

All `RestUtil` objects share one `HTTPProxy`, and so its headers.  An operation
first computes what it is going to send, which may raise; it then sends it, with
headers of its own; and at last it judges the reply.  What the data structure
module, `lxml` and `uritemplate` compute are parameters.

An operation is a program over the session of the proxy that may raise.  The parsing of XML and
the schema are parameters; texts that are only logged are left out, except where computing them
reads the reply.
-/

namespace OvirtArt.CoreApi

open OvirtArt.Foundation

/-- What the operations do with the values of Python, `Obj`, among them the
elements of the data structure module. -/
structure Objects (Obj : Type) where
  none : Obj
  text : Text → Obj
  list : List Obj → Obj
  truthy : Obj → Bool
  /-- `==`. -/
  equal : Obj → Obj → Bool
  isList : Obj → Bool
  /-- `isinstance(.., data_st.Fault)`. -/
  isFault : Obj → Bool
  /-- The text of a string; `none` for `None`. -/
  asText : Obj → Option Text
  str : Obj → Text
  /-- The items over which a `for` loop runs. -/
  items : Obj → Except PyException (List Obj)
  getattr : Obj → Text → Except PyException Obj
  /-- A call without arguments. -/
  call : Obj → Except PyException Obj
  /-- `api_utils.parse(.., silence=True)`. -/
  parse : Text → Except PyException Obj
  /-- `validator.dump_entity`. -/
  dumpEntity : Obj → Text → Except PyException Text
  /-- `validator.compareElements`. -/
  compareElements : Obj → Obj → Text → Except PyException Bool
  /-- What validating a body against the schema raises, other than that the
  document is invalid or no XML. -/
  assertValid : Text → Except PyException Unit
  /-- `uritemplate.expand`. -/
  expand : Text → List (Text × Text) → Except PyException Text
  /-- `makeAction`, from the flag `async` and the further parameters. -/
  makeAction : Bool → List (Text × Obj) → Except PyException Obj
  /-- `api_utils.api_error`, of reason, status and detail. -/
  apiError : Option Text → Nat → Option Text → Obj

/-- `obj.name()`. -/
def Objects.callMethod {Obj : Type} (py : Objects Obj) (obj : Obj) (name : Text) :
    Except PyException Obj := do
  py.call (← py.getattr obj name)

/-- A `RestUtil` object, with the options that it reads. -/
structure RestUtil where
  elementName : Text
  collectionName : Text
  entryPoint : Text
  uri : Text
  links : Links
  maxCollection : Option Text
  /-- `opts['RUN']['validate']`. -/
  validate : Bool
  /-- `opts['headers']`. -/
  headers : Option Headers

/-! ## Status codes -/

/-- The statuses of a request that succeeds. -/
def positiveCodes : List Nat := [200, 201]

/-- The statuses of a creation that succeeds. -/
def positiveCodesCreate : List Nat := positiveCodes ++ [202]

/-- The statuses of a request that is refused. -/
def negativeCodes : List Nat := [400, 409, 500]

/-- The statuses of a creation that is refused. -/
def negativeCodesCreate : List Nat := negativeCodes ++ [404]

/-- `validator.compareResponseCode`. -/
def compareResponseCode (resp : Nat) (expected : List Nat) : Bool := resp ∈ expected

/-- `responseCodesMatch`. -/
def responseCodesMatch (positive : Bool) (expectedPosStatus expectedNegStatus : List Nat)
    (ret : Response) : Bool :=
  compareResponseCode ret.status (if positive then expectedPosStatus else expectedNegStatus)

/-- `parse_detail`: what stands between the first two `detail>`, without its last
two characters. -/
def parseDetail (ret : Response) : Option Text :=
  match Text.index? "detail>".toList ret.body with
  | none => none
  | some start =>
    let rest := ret.body.drop (start + 7)
    let detail :=
      match Text.index? "detail>".toList rest with
      | none => rest
      | some stop => rest.take stop
    some (Text.slice detail 0 (-2))

/-! ## Addresses -/

/-- `build_url`: the flags that are set, in the order in which they are given. -/
def buildUrl (href : Text) (additionalParams : List (Text × Bool)) : Text :=
  additionalParams.foldl (fun url param => if param.2 then url ++ '?' :: param.1 else url) href

/-- The URL with its operations as matrix parameters. -/
def withOperations (url : Text) (operations : List Text) : Text :=
  if operations.isEmpty then url else url ++ ';' :: Text.join [';'] operations

namespace RestUtil

variable {Obj : Type} (py : Objects Obj) (self : RestUtil)

/-- The URL with the limit on the size of collections. -/
def withMaxCollection (href : Text) : Text :=
  match self.maxCollection with
  | none => href
  | some size => href ++ ";max=".toList ++ size

/-- `self.links[name]`. -/
def link (name : Text) : Except PyException Text :=
  match self.links.lookup name with
  | none => .error (.keyError name)
  | some href => .ok href

/-! ## Headers that an operation sets -/

/-- `self.api.headers[name] = value`. -/
def setHeader (name : String) (value : HeaderValue) : Api Unit :=
  modify fun s => { s with proxy := { s.proxy with headers := s.proxy.headers.insert name value } }

/-- `self.api.headers.pop(name)`. -/
def popHeader (name : String) : Api Unit := do
  let s ← get
  if name ∈ s.proxy.headers then
    modify fun s => { s with proxy := { s.proxy with headers := s.proxy.headers.erase name } }
  else throw (.keyError name.toList)

/-- `self.api.headers[header] = custom_headers[header]` for all `header` in
`custom_headers`. -/
def setHeaders (customHeaders : Headers) : Api Unit :=
  modify fun s =>
    { s with proxy := { s.proxy with headers := customHeaders ∪ s.proxy.headers } }

/-- `getCorrelationId`; `guid` is what `generateShortGuid` does. -/
def getCorrelationId (apiOperation : Text) (guid : Except PyException Text) :
    Except PyException HeaderValue :=
  match self.headers with
  | none => .error (.keyError "headers".toList)
  | some headers =>
    match headers.lookup "Correlation-Id" with
    | some value => .ok value
    | none => do
        let guid ← guid
        let correlationId := Text.join ['_'] [self.collectionName, apiOperation, guid]
        .ok (some (.str (correlationId.take 50)))

/-- `correlationIdContext` around `body`. -/
def correlationIdContext {α : Type} (apiOperation : Text) (guid : Except PyException Text)
    (body : Api α) : Api α :=
  tryFinally
    (do
      let value ← fromExcept (self.getCorrelationId apiOperation guid)
      setHeader "Correlation-Id" value
      body)
    (popHeader "Correlation-Id")

/-- `self.api.headers['All-content'] = value` if `all_content`. -/
def setAllContent (allContent value : HeaderValue) : Api Unit :=
  if allContent.truthy then setHeader "All-content" value else pure ()

/-- `self.api.headers.pop('All-content')` if `all_content`. -/
def popAllContent (allContent : HeaderValue) : Api Unit :=
  if allContent.truthy then popHeader "All-content" else pure ()

/-! ## Operations that read -/

section

variable (server : Nat → Except PyException Reply)

/-- `validateResponseViaXSD`. -/
def validateResponseViaXSD (ret : Response) : Except PyException Unit :=
  if ret.body.isEmpty then .ok () else py.assertValid ret.body

/-- The arguments of `get`. -/
structure GetArgs where
  href : Option Text := none
  elm : Option Text := none
  customHeaders : Headers := ∅
  absLink : Bool := true
  noParse : Bool := false
  validate : Bool := true

/-- The URL of `get`; `httplib` takes a missing one for the empty one. -/
def getHref (args : GetArgs) : Text :=
  let href := args.href.getD self.collectionName
  if args.absLink then href
  else if href.isEmpty then self.uri
  else (self.links.lookup href).getD []

/-- What `get` makes of the reply. -/
def getResult (args : GetArgs) (ret : Response) : Except PyException Obj :=
  if ¬ compareResponseCode ret.status positiveCodes then .ok py.none
  else do
    if args.validate then validateResponseViaXSD py ret else pure ()
    if args.noParse then .ok (py.text ret.body)
    else
      match py.parse ret.body with
      | .error .xmlSyntaxError => .ok py.none
      | .error e => .error e
      | .ok parsedResp =>
        let elm := if Text.truthy args.elm then args.elm.getD [] else self.elementName
        match py.getattr parsedResp elm with
        | .ok value => .ok value
        | .error _ => .ok parsedResp

/-- `get`. -/
def get (args : GetArgs) : Api Obj := do
  setHeaders args.customHeaders
  let ret ← GET server (self.getHref args)
  fromExcept (self.getResult py args ret)

/-- The arguments of `find`; `kwargs` are the additional pairs of an attribute,
as a chain, and a value. -/
structure FindArgs (Obj : Type) where
  val : Obj
  attr : Text := "name".toList
  absLink : Bool := true
  collection : Option Obj := none
  allContent : HeaderValue := some (.bool false)
  kwargs : List (Text × Obj) := []

/-- `reduce(getattr, attr.split('.'), r) == value`. -/
def chainEquals (attr : Text) (value r : Obj) : Except PyException Bool := do
  let found ← (attr.splitOn '.').foldlM py.getattr r
  .ok (py.equal found value)

/-- The one element of the collection that `find` is looking for. -/
def findIn (args : FindArgs Obj) (href : Text) (collection : Obj) : Except PyException Obj := do
  if ¬ py.truthy collection then
    .error (.entityNotFound ("Empty collection ".toList ++ href))
  else
    let results ← (← py.items collection).filterM fun r => do
      let found ← py.getattr r args.attr
      .ok (py.equal found args.val)
    let results ← args.kwargs.foldlM
      (fun results pair => results.filterM (chainEquals py pair.1 pair.2)) results
    match results with
    | [] => .error (.entityNotFound ("Entity ".toList ++ py.str args.val
        ++ " not found on url '".toList ++ href ++ "'.".toList))
    | [result] => .ok result
    | results => .error (.moreThanOneEntitiesFound ("The entity ".toList ++ py.str args.val
        ++ " occurs ".toList ++ (toString results.length).toList ++ " times on url '".toList
        ++ href ++ "'.".toList))

/-- The URL of `find`. -/
def findHref (args : FindArgs Obj) : Except PyException Text := do
  let href ← if args.absLink then self.link self.collectionName else .ok self.collectionName
  .ok (self.withMaxCollection href)

/-- `find`. -/
def find (args : FindArgs Obj) : Api Obj := do
  setAllContent args.allContent args.allContent
  let href ← fromExcept (self.findHref args)
  let given := args.collection.getD py.none
  let collection ←
    (if py.truthy given then pure given else self.get py server { href := some href })
  fromExcept (findIn py args href collection)

/-- The arguments of `query`. -/
structure QueryArgs where
  constraint : Text
  expectedStatus : List Nat := []
  href : Option Text := none
  eventId : Option Text := none
  allContent : HeaderValue := some (.bool false)
  params : List (Text × Text) := []

/-- The URL of `query`. -/
def queryHref (args : QueryArgs) : Except PyException Text := do
  let href ←
    if Text.truthy args.href then .ok (args.href.getD [])
    else self.link (self.collectionName ++ "/search".toList)
  let searchParams := args.params.map fun param => param.1 ++ '=' :: param.2
  let href ←
    if self.collectionName = "events".toList then
      match href.splitOn '?' with
      | [beforeSearch, afterSearch] =>
        .ok (Text.join [';'] (beforeSearch :: searchParams) ++ '?' :: afterSearch)
      | _ => .error .valueError
    else if searchParams.isEmpty then .ok href
    else .ok (href ++ '&' :: Text.join ['&'] searchParams)
  let queryHref ← py.expand href [("query".toList, args.constraint)]
  let queryHref := queryHref.replace [' '] "%20".toList
  if Text.truthy args.eventId then
    py.expand href
      [("query".toList, args.constraint), ("event_id".toList, args.eventId.getD [])]
  else .ok (queryHref.replace "from=".toList [])

/-- What `query` makes of the reply. -/
def queryResult (args : QueryArgs) (ret : Response) : Except PyException Obj :=
  let expectedStatus := if args.expectedStatus.isEmpty then positiveCodes else args.expectedStatus
  if ¬ compareResponseCode ret.status expectedStatus then .ok py.none
  else do
    validateResponseViaXSD py ret
    py.getattr (← py.parse ret.body) self.elementName

/-- `query`. -/
def query (args : QueryArgs) : Api Obj := do
  let queryHref ← fromExcept (self.queryHref py args)
  setAllContent args.allContent args.allContent
  let ret ← tryFinally (GET server queryHref) (popAllContent args.allContent)
  fromExcept (self.queryResult py args ret)

/-- The arguments of `getElemFromLink`. -/
structure LinkArgs where
  linkName : Option Text := none
  attr : Option Text := none
  getHref : Bool := false
  allContent : HeaderValue := some (.bool false)

/-- What `getElemFromLink` makes of what stands behind the link. -/
def linkResult (elm : Obj) (linkName attr : Text) (content : Obj) : Except PyException Obj :=
  if ¬ py.truthy content then .ok (py.list [])
  else if py.isList content then .ok content
  else if py.isFault content then do
    let detail ← py.callMethod content "get_detail".toList
    .error (.entityNotFound ("Obtained Fault object for ".toList ++ py.str elm
      ++ " element and link_name ".toList ++ linkName ++ " link with response: ".toList
      ++ py.str detail))
  else py.callMethod content ("get_".toList ++ attr)

/-- The loop of `getElemFromLink` over the links. -/
def followLinks (elm : Obj) (linkName attr : Text) (getHref : Bool) : List Obj → Api Obj
  | [] => pure (if getHref then py.none else py.list [])
  | link :: rest => do
      let rel ← fromExcept (py.callMethod link "get_rel".toList)
      if py.equal rel (py.text linkName) then do
        let href ← fromExcept (py.callMethod link "get_href".toList)
        if getHref then pure href
        else do
          let content ← self.get py server { href := py.asText href }
          fromExcept (linkResult py elm linkName attr content)
      else followLinks elm linkName attr getHref rest

/-- `getElemFromLink`. -/
def getElemFromLink (elm : Obj) (args : LinkArgs) : Api Obj := do
  let linkName := if Text.truthy args.linkName then args.linkName.getD [] else self.collectionName
  let attr := if Text.truthy args.attr then args.attr.getD [] else self.elementName
  setAllContent args.allContent args.allContent
  tryFinally
    (do
      let links ← fromExcept (py.callMethod elm "get_link".toList)
      let links ← fromExcept (py.items links)
      self.followLinks py server elm linkName attr args.getHref links)
    (popAllContent args.allContent)

/-- The arguments of `getElemFromElemColl`. -/
structure CollArgs (Obj : Type) where
  nameVal : Obj
  collectionName : Option Text := none
  elmName : Option Text := none
  prop : Text := "name".toList
  allContent : HeaderValue := some (.bool false)

/-- The first object with the value in the property. -/
def firstWith (args : CollArgs Obj) : List Obj → Except PyException Obj
  | [] => .error (.entityNotFound
      ("Entity '".toList ++ py.str args.nameVal ++ "' not found".toList))
  | obj :: rest => do
      let propVal ← py.getattr obj args.prop
      if py.equal propVal args.nameVal then .ok obj else firstWith args rest

/-- `getElemFromElemColl`, of `APIUtil`. -/
def getElemFromElemColl (elm : Obj) (args : CollArgs Obj) : Api Obj := do
  setAllContent args.allContent (some (.bool true))
  let collectionName :=
    if Text.truthy args.collectionName then args.collectionName.getD [] else self.collectionName
  let elmName := if Text.truthy args.elmName then args.elmName.getD [] else self.elementName
  let objs ← self.getElemFromLink py server elm
    { linkName := some collectionName, attr := some elmName }
  let items ← (if py.truthy objs then fromExcept (py.items objs) else pure [])
  fromExcept (firstWith py args items)

/-! ## Operations that write -/

/-- The arguments of `create`. -/
structure CreateArgs (Obj : Type) where
  entity : Obj
  positive : Bool
  expectedPosStatus : List Nat := positiveCodesCreate
  expectedNegStatus : List Nat := negativeCodesCreate
  expectedEntity : Option Obj := none
  async : Bool := false
  collection : Option Text := none
  collElmName : Option Text := none
  compare : Bool := true
  operations : List Text := []
  current : Bool := false
  deployHostedEngine : Bool := false
  validate : Option Bool := none

/-- `coll_elm_name` of `create`. -/
def collElmName (args : CreateArgs Obj) : Text :=
  if Text.truthy args.collElmName then args.collElmName.getD [] else self.elementName

/-- The address of the collection and the body of `create`. -/
def createRequest (args : CreateArgs Obj) : Except PyException (Text × Text) := do
  let href ←
    if Text.truthy args.collection then .ok (args.collection.getD [])
    else self.link self.collectionName
  let entity ← py.dumpEntity args.entity (self.collElmName args)
  .ok (self.withMaxCollection href, entity)

/-- The URL to which `create` posts. -/
def createUrl (args : CreateArgs Obj) (href : Text) : Text :=
  withOperations
    (buildUrl href
      [("current".toList, args.current), ("deploy_hosted_engine".toList, args.deployHostedEngine)])
    args.operations

/-- The new element of a successful `create`, unless it is not the one that is
expected. -/
def createCompare (args : CreateArgs Obj) (entity : Text) (ret : Response) :
    Except PyException (Option Text) := do
  let actualEntity ← py.dumpEntity (← py.parse ret.body) self.elementName
  let expected := args.expectedEntity.getD py.none
  let expectedEntity ←
    if py.truthy expected then py.dumpEntity expected self.elementName else .ok entity
  let same ←
    if args.compare then do
      py.compareElements (← py.parse expectedEntity) (← py.parse actualEntity) self.elementName
    else .ok true
  .ok (if same then some actualEntity else none)

/-- What `create` returns at its end. -/
def createResult (ret : Response) : Except PyException (Obj × Bool) := do
  validateResponseViaXSD py ret
  .ok (← py.parse ret.body, true)

/-- `create` after its request. -/
def createJudge (args : CreateArgs Obj) (href entity : Text) (ret : Response) :
    Api (Obj × Bool) :=
  if ¬ responseCodesMatch args.positive args.expectedPosStatus args.expectedNegStatus ret then
    pure (py.none, false)
  else if ¬ args.validate.getD self.validate then pure (py.none, true)
  else do
    let collection ← self.get py server
      { href := some href, elm := some (self.collElmName args) }
    if args.positive then
      if ret.body.isEmpty then pure (py.text ret.body, true)
      else do
        match ← fromExcept (self.createCompare py args entity ret) with
        | none => pure (py.none, false)
        | some actualEntity => do
            if args.async then fromExcept (createResult py ret)
            else do
              let actual ← fromExcept (py.parse actualEntity)
              let id ← fromExcept (py.getattr actual "id".toList)
              let _ ← self.find py server
                { val := id, attr := "id".toList, collection := some collection
                  absLink := false }
              fromExcept (createResult py ret)
    else fromExcept (createResult py ret)

/-- `create`. -/
def create (guid : Except PyException Text) (args : CreateArgs Obj) : Api (Obj × Bool) := do
  let (href, entity) ← fromExcept (self.createRequest py args)
  let ret ← self.correlationIdContext "create".toList guid
    (POST server (createUrl args href) (some entity))
  self.createJudge py server args href entity ret

/-- The arguments of `update`. -/
structure UpdateArgs (Obj : Type) where
  origEntity : Obj
  newEntity : Obj
  positive : Bool
  expectedPosStatus : List Nat := positiveCodes
  expectedNegStatus : List Nat := negativeCodes
  current : Bool := false
  compare : Bool := true

/-- `entity.href`. -/
def hrefOf (entity : Obj) : Except PyException Text := do
  .ok ((py.asText (← py.getattr entity "href".toList)).getD [])

/-- The URL and the body of `update`. -/
def updateRequest (args : UpdateArgs Obj) : Except PyException (Text × Text) := do
  let entity ← py.dumpEntity args.newEntity self.elementName
  let href ← hrefOf py args.origEntity
  .ok (buildUrl href [("current".toList, args.current)], entity)

/-- `update` after its request. -/
def updateJudge (args : UpdateArgs Obj) (entity : Text) (ret : Response) :
    Except PyException (Obj × Bool) :=
  if ¬ responseCodesMatch args.positive args.expectedPosStatus args.expectedNegStatus ret then
    .ok (py.none, false)
  else if ¬ self.validate then .ok (py.none, true)
  else do
    let same ←
      if args.positive ∧ args.compare then do
        py.compareElements (← py.parse entity) (← py.parse ret.body) self.elementName
      else .ok true
    if same then do
      validateResponseViaXSD py ret
      .ok (← py.parse ret.body, true)
    else .ok (py.none, false)

/-- `update`. -/
def update (guid : Except PyException Text) (args : UpdateArgs Obj) : Api (Obj × Bool) := do
  let (putUrl, entity) ← fromExcept (self.updateRequest py args)
  let ret ← self.correlationIdContext "update".toList guid (PUT server putUrl (some entity))
  fromExcept (self.updateJudge py args entity ret)

/-- The arguments of `delete`. -/
structure DeleteArgs (Obj : Type) where
  entity : Obj
  positive : Bool
  expectedPosStatus : List Nat := [200, 202, 204]
  expectedNegStatus : List Nat := negativeCodes
  operations : List Text := []

/-- The URL of `delete`. -/
def deleteHref (args : DeleteArgs Obj) : Except PyException Text := do
  .ok (withOperations (← hrefOf py args.entity) args.operations)

/-- `delete` after its request. -/
def deleteJudge (args : DeleteArgs Obj) (ret : Response) : Except PyException Bool :=
  if ¬ responseCodesMatch args.positive args.expectedPosStatus args.expectedNegStatus ret then
    .ok false
  else if ¬ self.validate then .ok true
  else do
    validateResponseViaXSD py ret
    .ok true

/-- `delete`. -/
def delete (guid : Except PyException Text) (args : DeleteArgs Obj) : Api Bool := do
  let href ← fromExcept (deleteHref py args)
  let ret ← self.correlationIdContext "delete".toList guid (DELETE server href none)
  fromExcept (self.deleteJudge py args ret)

/-- The arguments of `syncAction`; `kwargs` are the parameters of the action. -/
structure ActionArgs (Obj : Type) where
  entity : Obj
  action : Text
  positive : Bool
  async : Bool := false
  positiveAsyncStat : List Nat := [200, 202]
  positiveSyncStat : List Nat := positiveCodes
  negativeStat : List Nat := negativeCodes
  deployHostedEngine : Bool := false
  undeployHostedEngine : Bool := false
  operations : List Text := []
  kwargs : List (Text × Obj) := []

/-- `entity.actions.get_link()`. -/
def actionLinks (entity : Obj) : Except PyException (List Obj) := do
  let actions ← py.getattr entity "actions".toList
  py.items (← py.callMethod actions "get_link".toList)

/-- The address of the action, with the entry point before it. -/
def actionHref (args : ActionArgs Obj) : Except PyException Text := do
  let links ← (← actionLinks py args.entity).filterM fun link => do
    let rel ← py.callMethod link "get_rel".toList
    .ok (py.equal rel (py.text args.action))
  match links with
  | [] => .error .indexError
  | link :: _ => do
      let href := (py.asText (← py.callMethod link "get_href".toList)).getD []
      let root := '/' :: self.entryPoint
      .ok (if (root ++ ['/']).isPrefixOf href then href else root ++ href)

/-- The URL and the body of `syncAction`. -/
def actionRequest (args : ActionArgs Obj) : Except PyException (Text × Text) := do
  let actionHref ← self.actionHref py args
  let actionHref := buildUrl actionHref
    [("deploy_hosted_engine".toList, args.deployHostedEngine),
      ("undeploy_hosted_engine".toList, args.undeployHostedEngine)]
  let actionBody ← py.dumpEntity (← py.makeAction args.async args.kwargs) "action".toList
  .ok (withOperations actionHref args.operations, actionBody)

/-- `validator.compareAsyncActionStatus`. -/
def compareAsyncActionStatus (async : Bool) (state : Obj) : Bool :=
  (if async then ["pending".toList, "complete".toList] else ["complete".toList]).any
    fun expected => py.equal state (py.text expected)

/-- `validator.compareActionLink`. -/
def compareActionLink (entity : Obj) (action : Text) : Except PyException Bool := do
  let rels ← (← actionLinks py entity).mapM fun link => py.callMethod link "get_rel".toList
  .ok (rels.any fun rel => py.equal rel (py.text action))

/-- `syncAction` after its request. -/
def actionJudge (args : ActionArgs Obj) (ret : Response) : Except PyException Obj :=
  let positiveStat := if args.async then args.positiveAsyncStat else args.positiveSyncStat
  if ¬ responseCodesMatch args.positive positiveStat args.negativeStat ret then .ok py.none
  else if ¬ self.validate then .ok (py.text ret.body)
  else
    match py.parse ret.body with
    | .error .xmlSyntaxError => .ok py.none
    | .error e => .error e
    | .ok respAction =>
      if args.positive then do
        let done ←
          if py.truthy respAction then do
            let status ← py.getattr respAction "status".toList
            .ok (compareAsyncActionStatus py args.async status)
          else .ok true
        if done then do
          validateResponseViaXSD py ret
          let valid ← compareActionLink py args.entity args.action
          .ok (if valid then py.text ret.body else py.none)
        else .ok py.none
      else
        match ret.reason with
        | none => .error (.keyError "reason".toList)
        | some reason => .ok (py.apiError (some reason) ret.status (parseDetail ret))

/-- `syncAction`. -/
def syncAction (guid : Except PyException Text) (args : ActionArgs Obj) : Api Obj := do
  let (actionHref, actionBody) ← fromExcept (self.actionRequest py args)
  let ret ← self.correlationIdContext "syncAction".toList guid
    (POST server actionHref (some actionBody))
  fromExcept (self.actionJudge py args ret)

end

end RestUtil

/-! ## Runs -/

/-- A call of an operation of some `RestUtil` object; `guid` is what
`generateShortGuid` does during the call. -/
inductive Operation (Obj : Type) where
  | get (self : RestUtil) (args : RestUtil.GetArgs)
  | find (self : RestUtil) (args : RestUtil.FindArgs Obj)
  | query (self : RestUtil) (args : RestUtil.QueryArgs)
  | getElemFromLink (self : RestUtil) (elm : Obj) (args : RestUtil.LinkArgs)
  | getElemFromElemColl (self : RestUtil) (elm : Obj) (args : RestUtil.CollArgs Obj)
  | create (self : RestUtil) (guid : Except PyException Text) (args : RestUtil.CreateArgs Obj)
  | update (self : RestUtil) (guid : Except PyException Text) (args : RestUtil.UpdateArgs Obj)
  | delete (self : RestUtil) (guid : Except PyException Text) (args : RestUtil.DeleteArgs Obj)
  | syncAction (self : RestUtil) (guid : Except PyException Text)
      (args : RestUtil.ActionArgs Obj)

namespace Operation

variable {Obj : Type} (py : Objects Obj) (server : Nat → Except PyException Reply)

/-- Carry out the call. -/
def perform : Operation Obj → Api Unit
  | get self args => do let _ ← self.get py server args
  | find self args => do let _ ← self.find py server args
  | query self args => do let _ ← self.query py server args
  | getElemFromLink self elm args => do let _ ← self.getElemFromLink py server elm args
  | getElemFromElemColl self elm args => do let _ ← self.getElemFromElemColl py server elm args
  | create self guid args => do let _ ← self.create py server guid args
  | update self guid args => do let _ ← self.update py server guid args
  | delete self guid args => do let _ ← self.delete py server guid args
  | syncAction self guid args => do let _ ← self.syncAction py server guid args

/-- A call, returning or raising, leads to the next state. -/
def step (s : Session) (operation : Operation Obj) : Option Session :=
  some (after (operation.perform py server) s)

end Operation

end OvirtArt.CoreApi
