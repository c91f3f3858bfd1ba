import OvirtArt.CoreApi.Http
import OvirtArt.Foundation.Runs

set_option autoImplicit false

/-!
# What one request of the proxy does

The headers that a request carries, what one exchange leaves behind, and the one
to three exchanges that a request with its repetition consists of.

These lemmas are about single requests, and are stated once for all methods.  The runs over many
requests are in the modules that build on this one.
-/

namespace OvirtArt.CoreApi

open OvirtArt.Foundation

/-! ## Credentials -/

/-- The Authorization header carries the user and the password: they can be read
from it. -/
theorem RestConnection.decode_basicAuth (connection : RestConnection)
    (h : ∀ c ∈ connection.credentials, c.toNat < 256) :
    Base64.decode (connection.basicAuth.drop 6) = connection.credentials.map Char.toNat := by
  have hbytes : ∀ b ∈ connection.credentials.map Char.toNat, b < 256 := by
    intro b hb
    obtain ⟨c, hc, rfl⟩ := List.mem_map.mp hb
    exact h c hc
  have htext : connection.basicAuth =
      "Basic ".toList ++ Base64.encode (connection.credentials.map Char.toNat) := by
    have hlines := Base64.filter_dropLast_breakLines 76 76 _
      (Base64.newline_not_mem_encode _ hbytes)
    exact congrArg ("Basic ".toList ++ ·) hlines
  have hdrop : (connection.basicAuth.drop 6) =
      Base64.encode (connection.credentials.map Char.toNat) := by
    rw [htext]
    exact List.drop_left' (by decide)
  rw [hdrop]
  exact Base64.decode_encode _ hbytes

/-! ## A configuration -/

/-- The options of an administrator who has a password. -/
def adminOpts : Opts where
  restConnection :=
    { user := some "admin".toList
      userDomain := some "internal".toList
      password := some "123456".toList
      uri := "https://engine:443/ovirt-engine/api/".toList }
  httpHeaders := some ∅
  mediaType := "application/xml".toList
  standalone := false

theorem RestConnection.decode_basicAuth_admin :
    Base64.decode (adminOpts.restConnection.basicAuth.drop 6) =
      adminOpts.restConnection.credentials.map Char.toNat := by
  have hbytes : adminOpts.restConnection.credentials.all (·.toNat < 256) = true := by decide
  exact decode_basicAuth _ fun c hc => of_decide_eq_true (List.all_eq_true.mp hbytes c hc)

/-- A reply without a body. -/
def bareReply (status : Nat) (cookie : Option Text) : Reply where
  status := status
  reason := []
  body := []
  header name := if name = "Set-Cookie" then cookie else none

/-! ## Headers of a request -/

/-- The proxy has the headers that were configured for it. -/
def HTTPProxy.Configured (proxy : HTTPProxy) : Prop :=
  proxy.headers = proxy.opts.httpHeaders.getD ∅

namespace HTTPProxy

/-- The header that tells who makes the request. -/
def identity (proxy : HTTPProxy) : String × HeaderValue :=
  if proxy.hasSession then ("Cookie", HeaderValue.ofText proxy.cookie)
  else ("Authorization", some (.str proxy.opts.restConnection.basicAuth))

/-- The value under which a request carries a header: the one that is
configured, or else the one that tells who makes the request. -/
def sent (proxy : HTTPProxy) (name : String) : Option HeaderValue :=
  (proxy.headers.lookup name).or
    (if proxy.opts.restConnection.authenticates ∧ name = proxy.identity.1 then
      some proxy.identity.2
    else none)

theorem lookup_basicHeaders {proxy : HTTPProxy} (hconf : proxy.Configured) :
    ∃ headers, proxy.basicHeaders = .ok headers ∧
      ∀ name, headers.lookup name = proxy.sent name := by
  unfold basicHeaders sent
  by_cases hauth : proxy.opts.restConnection.authenticates = true
  case neg =>
    refine ⟨proxy.headers, by simp [hauth], fun name => ?_⟩
    simp [hauth]
  have hadded : (if proxy.hasSession = true then
        proxy.headers.insert "Cookie" (HeaderValue.ofText proxy.cookie)
      else proxy.headers.insert "Authorization"
        (some (.str proxy.opts.restConnection.basicAuth))) =
      proxy.headers.insert proxy.identity.1 proxy.identity.2 := by
    unfold identity
    split <;> rfl
  simp only [hauth, ↓reduceIte, hadded, true_and]
  by_cases hempty : proxy.headers = ∅
  · refine ⟨_, by rw [if_pos hempty], fun name => ?_⟩
    by_cases hname : name = proxy.identity.1
    · subst hname
      simp [hempty]
    · simp [hname, Finmap.lookup_insert_of_ne _ hname, hempty]
  · cases hheaders : proxy.opts.httpHeaders with
    | none => exact absurd (by simpa [Configured, hheaders] using hconf) hempty
    | some configured =>
      have hsame : proxy.headers = configured := by
        simpa [Configured, hheaders] using hconf
      refine ⟨_, by rw [if_neg hempty], fun name => ?_⟩
      rw [hsame]
      by_cases hmem : name ∈ configured
      · obtain ⟨value, hvalue⟩ := Finmap.mem_iff.mp hmem
        rw [Finmap.lookup_union_left hmem, hvalue]
        rfl
      · have hnone := Finmap.lookup_eq_none.mpr hmem
        rw [Finmap.lookup_union_right hmem, hnone]
        by_cases hname : name = proxy.identity.1
        · subst hname
          simp
        · simp [hname, Finmap.lookup_insert_of_ne _ hname, hnone]

theorem lookup_requestHeaders {proxy : HTTPProxy} (hconf : proxy.Configured)
    (body : Option Text) :
    ∃ headers, proxy.requestHeaders body = .ok headers ∧
      ∀ name ≠ "Content-type", headers.lookup name = proxy.sent name := by
  obtain ⟨headers, hbasic, hlookup⟩ := lookup_basicHeaders hconf
  unfold requestHeaders
  rw [hbasic]
  refine ⟨_, rfl, fun name hname => ?_⟩
  split
  · rw [Finmap.lookup_insert_of_ne _ hname]
    exact hlookup name
  · exact hlookup name

theorem sent_authorization (proxy : HTTPProxy) :
    proxy.sent "Authorization" =
      (proxy.headers.lookup "Authorization").or
        (if proxy.opts.restConnection.authenticates ∧ ¬ proxy.hasSession then
          some (some (.str proxy.opts.restConnection.basicAuth))
        else none) := by
  unfold sent identity
  by_cases hsession : proxy.hasSession = true
  · simp [hsession]
  · simp [hsession]

theorem sent_cookie (proxy : HTTPProxy) :
    proxy.sent "Cookie" =
      (proxy.headers.lookup "Cookie").or
        (if proxy.opts.restConnection.authenticates ∧ proxy.hasSession then
          some (HeaderValue.ofText proxy.cookie)
        else none) := by
  unfold sent identity
  by_cases hsession : proxy.hasSession = true
  · simp [hsession]
  · simp [hsession]

end HTTPProxy

/-! ## One exchange -/

section

variable (server : Nat → Except PyException Reply) {s : Session}

/-- One exchange: it is recorded whatever comes of it, and a reply may open a
session. -/
theorem run_send (hconf : s.proxy.Configured) (method : Method) (url : Text) (body : Option Text) :
    ∃ headers, s.proxy.requestHeaders body = .ok headers ∧
      (send server method url body).run s =
        match server s.log.length with
        | .error e =>
          .error e (s.record
            ⟨s.proxy.opts.restConnection, ⟨method, url, body, headers⟩, .error e⟩)
        | .ok reply =>
          .ok reply ((s.record
            ⟨s.proxy.opts.restConnection, ⟨method, url, body, headers⟩, .ok reply⟩).received
              headers reply) := by
  obtain ⟨headers, hheaders, _⟩ := HTTPProxy.lookup_requestHeaders hconf body
  refine ⟨headers, hheaders, ?_⟩
  unfold send
  rw [EStateM.run_bind, EStateM.run_get]
  simp only [EStateM.run_bind, EStateM.run_modify, run_fromExcept, hheaders]
  cases server s.log.length <;> rfl

theorem run_doRequestOnce (hconf : s.proxy.Configured) (method : Method) (url : Text)
    (body : Option Text) (getHeader : Option String) :
    ∃ headers, s.proxy.requestHeaders body = .ok headers ∧
      (doRequestOnce server method url body getHeader).run s =
        match server s.log.length with
        | .error e =>
          .error e (s.record
            ⟨s.proxy.opts.restConnection, ⟨method, url, body, headers⟩, .error e⟩)
        | .ok reply =>
          .ok (reply.response getHeader) ((s.record
            ⟨s.proxy.opts.restConnection, ⟨method, url, body, headers⟩, .ok reply⟩).received
              headers reply) := by
  obtain ⟨headers, hheaders, hrun⟩ := run_send server hconf method url body
  refine ⟨headers, hheaders, ?_⟩
  unfold doRequestOnce
  rw [EStateM.run_bind, hrun]
  cases server s.log.length <;> rfl

/-- `connect` takes over what its HEAD request gets, in every case. -/
theorem run_connect (hconf : s.proxy.Configured) :
    ∃ headers, s.proxy.requestHeaders none = .ok headers ∧
      (connect server).run s =
        match server s.log.length with
        | .error e =>
          .error e (s.record
            ⟨s.proxy.opts.restConnection,
              ⟨.head, s.proxy.opts.restConnection.uri, none, headers⟩, .error e⟩)
        | .ok reply =>
          .ok ⟨⟩ (((s.record
            ⟨s.proxy.opts.restConnection,
              ⟨.head, s.proxy.opts.restConnection.uri, none, headers⟩, .ok reply⟩).received
                headers reply).setCookie (reply.header "Set-Cookie")) := by
  obtain ⟨headers, hheaders, hrun⟩ := run_doRequestOnce server hconf .head
    s.proxy.opts.restConnection.uri none (some "Set-Cookie")
  refine ⟨headers, hheaders, ?_⟩
  unfold connect
  rw [EStateM.run_bind, EStateM.run_get]
  simp only
  rw [EStateM.run_bind, hrun]
  cases server s.log.length <;> rfl

variable {server}

namespace Session

@[simp] theorem log_received (s : Session) (headers : Headers) (reply : Reply) :
    (s.received headers reply).log = s.log := by
  unfold received
  split <;> rfl

@[simp] theorem proxy_record (s : Session) (exchange : Exchange) :
    (s.record exchange).proxy = s.proxy := rfl

@[simp] theorem log_record (s : Session) (exchange : Exchange) :
    (s.record exchange).log = s.log ++ [exchange] := rfl

@[simp] theorem log_setCookie (s : Session) (cookie : Option Text) :
    (s.setCookie cookie).log = s.log := rfl

/-- The session that a reply opens takes the place of the one before. -/
theorem setCookie_received (s : Session) (headers : Headers) (reply : Reply)
    (cookie : Option Text) :
    ((s.received headers reply).setCookie cookie).proxy = s.proxy.setCookie cookie := by
  unfold received
  split <;> rfl

theorem cookie_received (s : Session) (headers : Headers) (reply : Reply) :
    (s.received headers reply).proxy.cookie =
      if authorized headers then reply.header "Set-Cookie" else s.proxy.cookie := by
  unfold received
  split <;> rfl

theorem configured_received {s : Session} (hconf : s.proxy.Configured) (headers : Headers)
    (reply : Reply) : (s.received headers reply).proxy.Configured := by
  unfold received
  split <;> exact hconf

end Session

/-! ## What no request changes -/

/-- The headers that all requests share, and the options. -/
def Session.setup (s : Session) : Headers × Opts := (s.proxy.headers, s.proxy.opts)

theorem keeps_send (method : Method) (url : Text) (body : Option Text) :
    Keeps Session.setup (send server method url body) := by
  refine moves_get_bind fun s => ?_
  refine Moves.bind_keeps (keeps_fromExcept _) fun headers => ?_
  refine Moves.bind_keeps (moves_modify fun _ => rfl) fun _ => ?_
  refine Moves.bind_keeps (keeps_fromExcept _) fun reply => ?_
  refine Moves.bind_keeps (moves_modify fun t => ?_) fun _ => keeps_pure _
  unfold Session.received
  split <;> rfl

theorem keeps_doRequestOnce (method : Method) (url : Text) (body : Option Text)
    (getHeader : Option String) :
    Keeps Session.setup (doRequestOnce server method url body getHeader) :=
  (keeps_send method url body).bind_keeps fun _ => keeps_pure _

theorem keeps_connect : Keeps Session.setup (connect server) := by
  refine moves_get_bind fun s => ?_
  exact (keeps_doRequestOnce _ _ _ _).bind_keeps fun _ => moves_modify fun _ => rfl

theorem keeps_doRequest (method : Method) (url : Text) (body : Option Text)
    (getHeader : Option String) :
    Keeps Session.setup (doRequest server method url body getHeader) := by
  refine (keeps_send method url body).bind_keeps fun reply => moves_get_bind fun s => ?_
  refine Moves.ite (fun _ => ?_) fun _ => keeps_pure _
  exact keeps_connect.bind_keeps fun _ => keeps_doRequestOnce _ _ _ _

theorem keeps_headForLinks : Keeps Session.setup (headForLinks server) := by
  refine moves_get_bind fun s => Moves.ite (fun _ => keeps_pure _) fun _ => ?_
  refine (keeps_doRequest _ _ _ _).bind_keeps fun response => ?_
  refine Moves.ite (fun _ => keeps_throw _) fun _ => ?_
  cases response.header with
  | none => exact keeps_throw _
  | some link => exact keeps_pure _

theorem Session.configured_of_setup {t : Session} (h : t.setup = s.setup)
    (hconf : s.proxy.Configured) : t.proxy.Configured := by
  have hheaders : t.proxy.headers = s.proxy.headers := congrArg Prod.fst h
  have hopts : t.proxy.opts = s.proxy.opts := congrArg Prod.snd h
  unfold HTTPProxy.Configured
  rw [hheaders, hopts]
  exact hconf

/-- The headers that were configured stay as they were, whatever is done. -/
theorem configured_perform (hconf : s.proxy.Configured) (action : Action) :
    (after (action.perform server) s).proxy.Configured := by
  have hrequest : ∀ {α : Type} {m : Api α}, Keeps Session.setup m →
      (after (m >>= fun _ => pure PUnit.unit) s).proxy.Configured :=
    fun hm => Session.configured_of_setup ((hm.bind_keeps fun _ => keeps_pure _) s) hconf
  cases action with
  | get url => exact hrequest (keeps_doRequest _ _ _ _)
  | post url body => exact hrequest (keeps_doRequest _ _ _ _)
  | put url body => exact hrequest (keeps_doRequest _ _ _ _)
  | delete url body => exact hrequest (keeps_doRequest _ _ _ _)
  | connect => exact Session.configured_of_setup (keeps_connect s) hconf
  | headForLinks => exact hrequest keeps_headForLinks
  | configure user userDomain password => exact hconf

/-! ## A request and its repetition -/

/-- The reply says that the session has expired: it is a 401, and there is a
session cookie, which the reply itself may have set. -/
def Expired (proxy : HTTPProxy) (headers : Headers) (reply : Reply) : Prop :=
  reply.status = 401 ∧
    Text.truthy (if authorized headers then reply.header "Set-Cookie" else proxy.cookie)

variable (server) in
/-- After an expired session: a HEAD request, and, where this has a reply, the
request once more, with the headers that this reply brings about. -/
theorem log_renew (hconf : s.proxy.Configured) (method : Method) (url : Text) (body : Option Text)
    (getHeader : Option String) : let renewed := after (connect server >>= fun _ =>
      doRequestOnce server method url body getHeader) s
    (∃ head e, renewed.log = s.log ++ [head] ∧
        server s.log.length = .error e ∧ head.outcome = .error e) ∨
      ∃ head renewal retry, renewed.log = s.log ++ [head, retry] ∧
        server s.log.length = .ok renewal ∧ head.outcome = .ok renewal ∧
        ∀ name ≠ "Content-type", retry.request.headers.lookup name =
          (s.proxy.setCookie (renewal.header "Set-Cookie")).sent name := by
  intro renewed
  obtain ⟨headers, _, hconnect⟩ := run_connect server hconf
  have hrenewed : renewed = after (connect server >>= fun _ =>
    doRequestOnce server method url body getHeader) s := rfl
  rw [after_bind, hconnect] at hrenewed
  cases houtcome : server s.log.length with
  | error e =>
    left
    simp only [houtcome] at hrenewed
    exact ⟨_, e, by rw [hrenewed]; rfl, rfl, rfl⟩
  | ok renewal =>
    right
    simp only [houtcome] at hrenewed
    generalize hhead : Exchange.mk s.proxy.opts.restConnection
      ⟨.head, s.proxy.opts.restConnection.uri, none, headers⟩ (.ok renewal) = head at hrenewed
    generalize hmiddle : ((s.record head).received headers renewal).setCookie
      (renewal.header "Set-Cookie") = middle at hrenewed
    have hproxy : middle.proxy = s.proxy.setCookie (renewal.header "Set-Cookie") := by
      rw [← hmiddle]
      exact Session.setCookie_received _ _ _ _
    have hlog : middle.log = s.log ++ [head] := by
      rw [← hmiddle]
      simp
    have hconfigured : middle.proxy.Configured := by
      rw [hproxy]
      exact hconf
    obtain ⟨again, hagain, honce⟩ :=
      run_doRequestOnce server hconfigured method url body getHeader
    obtain ⟨sent, hsent, hlookup⟩ := HTTPProxy.lookup_requestHeaders hconfigured body
    obtain rfl : sent = again := Except.ok.inj (hsent.symm.trans hagain)
    have houtcome' : head.outcome = .ok renewal := by rw [← hhead]
    refine ⟨head, renewal, ⟨middle.proxy.opts.restConnection, ⟨method, url, body, sent⟩,
      server middle.log.length⟩, ?_, rfl, houtcome', fun name hname => ?_⟩
    · rw [hrenewed]
      unfold after
      rw [honce]
      cases server middle.log.length <;> simp [hlog]
    · rw [← hproxy]
      exact hlookup name hname

variable (server) in
/-- What a request leaves in the log: one exchange; or, where its reply says that
the session has expired, that and what the renewal of the session adds. -/
theorem log_doRequest (hconf : s.proxy.Configured) (method : Method) (url : Text)
    (body : Option Text) (getHeader : Option String) :
    ∃ headers first, s.proxy.requestHeaders body = .ok headers ∧
      first = ⟨s.proxy.opts.restConnection, ⟨method, url, body, headers⟩,
        server s.log.length⟩ ∧
      (((after (doRequest server method url body getHeader) s).log = s.log ++ [first] ∧
          ∀ reply, server s.log.length = .ok reply → ¬ Expired s.proxy headers reply) ∨
        ∃ reply, server s.log.length = .ok reply ∧ Expired s.proxy headers reply ∧
          ((∃ head e, (after (doRequest server method url body getHeader) s).log =
                s.log ++ [first, head] ∧
              server (s.log.length + 1) = .error e ∧ head.outcome = .error e) ∨
            ∃ head renewal retry,
              (after (doRequest server method url body getHeader) s).log =
                s.log ++ [first, head, retry] ∧
              server (s.log.length + 1) = .ok renewal ∧ head.outcome = .ok renewal ∧
              ∀ name ≠ "Content-type", retry.request.headers.lookup name =
                (s.proxy.setCookie (renewal.header "Set-Cookie")).sent name)) := by
  obtain ⟨headers, hheaders, hrun⟩ := run_send server hconf method url body
  refine ⟨headers, _, hheaders, rfl, ?_⟩
  unfold doRequest
  rw [after_bind, hrun]
  cases houtcome : server s.log.length with
  | error e =>
    left
    exact ⟨rfl, fun reply hreply => absurd hreply (by simp)⟩
  | ok reply =>
    simp only
    generalize hfirst : Exchange.mk s.proxy.opts.restConnection
      ⟨method, url, body, headers⟩ (.ok reply) = first
    generalize hmiddle : (s.record first).received headers reply = middle
    have hcookie : middle.proxy.cookie =
        if authorized headers then reply.header "Set-Cookie" else s.proxy.cookie := by
      rw [← hmiddle]
      exact Session.cookie_received _ _ _
    have hlog : middle.log = s.log ++ [first] := by
      rw [← hmiddle]
      simp
    have hconfigured : middle.proxy.Configured := by
      rw [← hmiddle]
      exact Session.configured_received (s := s.record first) hconf headers reply
    have hrenewed : ∀ cookie, middle.proxy.setCookie cookie = s.proxy.setCookie cookie := by
      intro cookie
      have h := Session.setCookie_received (s.record first) headers reply cookie
      rwa [hmiddle] at h
    rw [after_get_bind, hcookie]
    by_cases hexpired : Expired s.proxy headers reply
    case neg =>
      left
      rw [if_neg (show ¬ (_ ∧ _) from hexpired)]
      refine ⟨hlog, fun other hother => ?_⟩
      obtain rfl := Except.ok.inj hother
      exact hexpired
    right
    refine ⟨reply, rfl, hexpired, ?_⟩
    rw [if_pos (show _ ∧ _ from hexpired)]
    have hlength : middle.log.length = s.log.length + 1 := by simp [hlog]
    rcases log_renew server hconfigured method url body getHeader with
      ⟨head, e, hafter, herror, hhead⟩ | ⟨head, renewal, retry, hafter, hok, hhead, hsent⟩
    · left
      rw [hlength] at herror
      exact ⟨head, e, by rw [hafter, hlog, List.append_assoc]; rfl, herror, hhead⟩
    · right
      rw [hlength] at hok
      refine ⟨head, renewal, retry, by rw [hafter, hlog, List.append_assoc]; rfl, hok, hhead,
        fun name hname => ?_⟩
      rw [← hrenewed]
      exact hsent name hname

end

end OvirtArt.CoreApi
