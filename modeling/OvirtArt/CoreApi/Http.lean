import Mathlib.Data.Finmap
import OvirtArt.CoreApi.PyText
import OvirtArt.Foundation.Base64
import OvirtArt.Foundation.Effects

set_option autoImplicit false

/-!
# `core_api/http.py`: the connection with the REST API

`HTTPProxy` sends one request after the other, remembers the session cookie and
the user for whom it got it, and repeats a request once when the session has
expired.  What comes back over the network is a parameter: the outcome of the
first exchange, of the second, and so on.

The model keeps the headers, the cookie and the user of the proxy, and a log of what has been
sent.  The TLS context, the lock and the connection object are left out.
-/

namespace OvirtArt.CoreApi

open OvirtArt.Foundation

/-- A dictionary whose keys are strings. -/
abbrev Dict (V : Type) := Finmap fun _ : String => V

/-- The value of a header: a primitive, or `None`. -/
abbrev HeaderValue := Option Prim

/-- The headers of a request, or those that all requests share. -/
abbrev Headers := Dict HeaderValue

/-- The value is true. -/
def HeaderValue.truthy : HeaderValue → Bool
  | none => false
  | some value => !value.falsy

/-- The value of a header that is a text or missing, as `getheader` gives it. -/
def HeaderValue.ofText (text : Option Text) : HeaderValue := text.map Prim.str

/-- The exceptions that a call of the API can raise. -/
inductive PyException where
  | keyError (key : Text)
  | attributeError (name : Text)
  | indexError
  | valueError
  | apiException (message : Text)
  | entityNotFound (message : Text)
  | moreThanOneEntitiesFound (message : Text)
  | xmlSyntaxError
  | dataCenterException (message : Text)
  /-- What the network, or code outside the repository, raises. -/
  | external (description : String)
  deriving DecidableEq, Repr

/-- `opts['REST_CONNECTION']`. -/
structure RestConnection where
  user : Option Text
  userDomain : Option Text
  password : Option Text
  uri : Text
  deriving DecidableEq

/-- The options that the connection reads. -/
structure Opts where
  restConnection : RestConnection
  /-- `opts.get('HTTP_HEADERS')`. -/
  httpHeaders : Option Headers
  mediaType : Text
  standalone : Bool

/-- The state of an `HTTPProxy`. -/
structure HTTPProxy where
  opts : Opts
  cookie : Option Text
  lastActiveUser : Option Text
  type : Text
  headers : Headers

/-- The methods of a request. -/
inductive Method where
  | head
  | get
  | post
  | put
  | delete
  deriving DecidableEq, Repr

/-- What goes to the server with one request. -/
structure Request where
  method : Method
  url : Text
  body : Option Text
  headers : Headers

/-- The reply, with its body decoded, and its headers as `getheader` finds
them. -/
structure Reply where
  status : Nat
  reason : Text
  body : Text
  header : String → Option Text

/-- One exchange: the connection for which the request was configured, the
request, and the reply or what was raised in its place. -/
structure Exchange where
  connection : RestConnection
  request : Request
  outcome : Except PyException Reply

/-- The proxy, and the exchanges so far. -/
structure Session where
  proxy : HTTPProxy
  log : List Exchange

/-- A procedure of the client. -/
abbrev Api := EStateM PyException Session

/-- What `__do_request` returns: `header` is the header that was asked for. -/
structure Response where
  status : Nat
  body : Text
  reason : Option Text
  header : Option Text
  deriving DecidableEq

/-! ## Headers of a request -/

namespace RestConnection

/-- `base64.encodestring`; each character stands for a byte. -/
def encodestring (text : Text) : Text :=
  Base64.breakLines 76 76 (Base64.encode (text.map Char.toNat))

/-- What the client sends as its user and password. -/
def credentials (connection : RestConnection) : Text :=
  let user := Text.formatted connection.user
  let user :=
    if Text.truthy connection.userDomain then
      user ++ '@' :: Text.formatted connection.userDomain
    else user
  user ++ ':' :: Text.formatted connection.password

/-- `basic_auth`. -/
def basicAuth (connection : RestConnection) : Text :=
  let credentials := (encodestring connection.credentials).dropLast
  "Basic ".toList ++ credentials.filter (· != '\n')

/-- `__get_user`: user@domain who is currently specified. -/
def getUser (connection : RestConnection) : Text :=
  Text.formatted connection.user ++ '@' :: Text.formatted connection.userDomain

/-- A user and a password are set. -/
def authenticates (connection : RestConnection) : Bool :=
  Text.truthy connection.user && Text.truthy connection.password

end RestConnection

namespace HTTPProxy

/-- `HTTPProxy.__init__`. -/
def init (opts : Opts) : HTTPProxy where
  opts := opts
  cookie := none
  lastActiveUser := none
  type := opts.mediaType
  headers := opts.httpHeaders.getD ∅

/-- The session cookie is there, and it is that of the configured user. -/
def hasSession (proxy : HTTPProxy) : Bool :=
  Text.truthy proxy.cookie
    && proxy.lastActiveUser == some proxy.opts.restConnection.getUser

/-- `basic_headers`. -/
def basicHeaders (proxy : HTTPProxy) : Except PyException Headers :=
  if proxy.opts.restConnection.authenticates then
    let headers :=
      if proxy.hasSession then
        proxy.headers.insert "Cookie" (HeaderValue.ofText proxy.cookie)
      else
        proxy.headers.insert "Authorization" (some (.str proxy.opts.restConnection.basicAuth))
    if proxy.headers = ∅ then .ok headers
    else
      match proxy.opts.httpHeaders with
      | none => .error (.keyError "HTTP_HEADERS".toList)
      | some configured => .ok (configured ∪ headers)
  else .ok proxy.headers

/-- The headers of a request with this body. -/
def requestHeaders (proxy : HTTPProxy) (body : Option Text) : Except PyException Headers :=
  proxy.basicHeaders.map fun headers =>
    if Text.truthy body then headers.insert "Content-type" (some (.str proxy.type)) else headers

/-- Take over the session that a reply has opened. -/
def setCookie (proxy : HTTPProxy) (cookie : Option Text) : HTTPProxy :=
  { proxy with
    cookie := cookie
    lastActiveUser := some proxy.opts.restConnection.getUser }

end HTTPProxy

/-- `headers.get('Authorization', None)` is true. -/
def authorized (headers : Headers) : Bool :=
  match headers.lookup "Authorization" with
  | some value => HeaderValue.truthy value
  | none => false

/-! ## Requests -/

/-- What follows the first `?>` in the line. -/
def afterDeclaration : Text → Option Text
  | '?' :: '>' :: rest => some rest
  | '\n' :: _ => none
  | _ :: rest => afterDeclaration rest
  | [] => none

/-- The body without what `^\s*<\?xml\s+.*?\?>` matches. -/
def dropXmlDeclaration (body : Text) : Text :=
  match body.dropWhile Text.isSpace with
  | '<' :: '?' :: 'x' :: 'm' :: 'l' :: c :: rest =>
    if Text.isSpace c then (afterDeclaration (rest.dropWhile Text.isSpace)).getD body else body
  | _ => body

/-- What is returned of a reply. -/
def Reply.response (reply : Reply) (getHeader : Option String) : Response where
  status := reply.status
  body := dropXmlDeclaration reply.body
  reason := if 300 ≤ reply.status then some reply.reason else none
  header := getHeader.bind reply.header

namespace Session

/-- A session that has sent nothing. -/
def init (opts : Opts) : Session where
  proxy := .init opts
  log := []

/-- One more exchange. -/
def record (s : Session) (exchange : Exchange) : Session :=
  { s with log := s.log ++ [exchange] }

/-- Take over the session that a reply has opened. -/
def setCookie (s : Session) (cookie : Option Text) : Session :=
  { s with proxy := s.proxy.setCookie cookie }

/-- A reply to a request with an Authorization header opens a session. -/
def received (s : Session) (headers : Headers) (reply : Reply) : Session :=
  if authorized headers then s.setCookie (reply.header "Set-Cookie") else s

end Session

section

variable (server : Nat → Except PyException Reply)

/-- `__do_request` up to the question whether to repeat the request. -/
def send (method : Method) (url : Text) (body : Option Text) : Api Reply := do
  let s ← get
  let headers ← fromExcept (s.proxy.requestHeaders body)
  let outcome := server s.log.length
  modify fun s => s.record ⟨s.proxy.opts.restConnection, ⟨method, url, body, headers⟩, outcome⟩
  let reply ← fromExcept outcome
  modify fun s => s.received headers reply
  pure reply

/-- `__do_request` with `repeat=False`. -/
def doRequestOnce (method : Method) (url : Text) (body : Option Text)
    (getHeader : Option String) : Api Response := do
  let reply ← send server method url body
  pure (reply.response getHeader)

/-- `connect`. -/
def connect : Api Unit := do
  let s ← get
  let response ←
    doRequestOnce server .head s.proxy.opts.restConnection.uri none (some "Set-Cookie")
  modify fun s => s.setCookie response.header

/-- `__do_request`. -/
def doRequest (method : Method) (url : Text) (body : Option Text)
    (getHeader : Option String) : Api Response := do
  let reply ← send server method url body
  let s ← get
  if reply.status = 401 ∧ Text.truthy s.proxy.cookie then do
    connect server
    doRequestOnce server method url body getHeader
  else pure (reply.response getHeader)

/-- `GET`. -/
def GET (url : Text) : Api Response := doRequest server .get url none none

/-- `POST`. -/
def POST (url : Text) (body : Option Text) : Api Response := doRequest server .post url body none

/-- `PUT`. -/
def PUT (url : Text) (body : Option Text) : Api Response := doRequest server .put url body none

/-- `DELETE`. -/
def DELETE (url : Text) (body : Option Text) : Api Response :=
  doRequest server .delete url body none

/-! ## Links -/

/-- A links matrix. -/
abbrev Links := Finmap fun _ : Text => Text

/-- `__parse_link`. -/
def parseLink (s : Text) (links : Links) : Links :=
  let url := s.slice (s.find ['<'] + 1) (s.find ['>'])
  let s := s.sliceFrom (s.find [';'] + 1)
  let rel := s.sliceFrom (s.find "rel=".toList + 4)
  let rel := if rel.find [';'] ≠ -1 then rel.slice 0 (s.find [';']) else rel
  links.insert rel url

/-- The message of a bad reply to the HEAD request. -/
def badStatus (response : Response) : Text :=
  "Bad HTTP response status: ".toList ++ (toString response.status).toList
    ++ ", ".toList ++ Text.formatted response.reason

/-- `HEAD_for_links`. -/
def headForLinks : Api Links := do
  let s ← get
  if s.proxy.opts.standalone then pure ∅
  else do
    let uri := s.proxy.opts.restConnection.uri
    let response ← doRequest server .head uri none (some "link")
    if 300 ≤ response.status then throw (.apiException (badStatus response))
    else
      match response.header with
      | none => throw (.attributeError "split".toList)
      | some link =>
        let links := (link.splitOn ',').foldl (fun links s => parseLink s links) ∅
        pure (links.insert "capabilities".toList (uri ++ "capabilities".toList))

end

/-! ## Runs -/

/-- What a user of the proxy does with it. -/
inductive Action where
  | get (url : Text)
  | post (url : Text) (body : Option Text)
  | put (url : Text) (body : Option Text)
  | delete (url : Text) (body : Option Text)
  | connect
  | headForLinks
  /-- Other values in `opts['REST_CONNECTION']`. -/
  | configure (user userDomain password : Option Text)

/-- Change the user for whom requests are made. -/
def HTTPProxy.configure (proxy : HTTPProxy) (user userDomain password : Option Text) :
    HTTPProxy :=
  { proxy with
    opts :=
      { proxy.opts with
        restConnection :=
          { proxy.opts.restConnection with
            user := user
            userDomain := userDomain
            password := password } } }

/-- Carry out an action. -/
def Action.perform (server : Nat → Except PyException Reply) : Action → Api Unit
  | get url => do let _ ← GET server url
  | post url body => do let _ ← POST server url body
  | put url body => do let _ ← PUT server url body
  | delete url body => do let _ ← DELETE server url body
  | connect => CoreApi.connect server
  | headForLinks => do let _ ← CoreApi.headForLinks server
  | configure user userDomain password =>
    modify fun s => { s with proxy := s.proxy.configure user userDomain password }

/-- An action, returning or raising, leads to the next state. -/
def Action.step (server : Nat → Except PyException Reply) (s : Session) (action : Action) :
    Option Session :=
  some (after (action.perform server) s)

end OvirtArt.CoreApi
