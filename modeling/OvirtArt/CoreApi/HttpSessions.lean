import OvirtArt.CoreApi.HttpSpec

set_option autoImplicit false

/-!
# Sessions of different users

Over every run of the proxy, whichever users it is configured for in turn and
whatever the replies are, the user who makes a request is told by exactly one
header, and a session cookie is sent only where `__get_user` gives the text of
the user for whom it was received.

The text is not the user: `None` and `'None'` are one in it.  The sessions of a
set of users are kept apart exactly if no two of them share it.  What a server
does with a cookie, and how long it is valid, is left to the replies.
-/

namespace OvirtArt.CoreApi

open OvirtArt.Foundation

/-- The reply in the exchange has set the cookie. -/
def Exchange.Sets (exchange : Exchange) (cookie : Text) : Prop :=
  ∃ reply, exchange.outcome = .ok reply ∧ reply.header "Set-Cookie" = some cookie

/-- A user as `opts` name one: the user and the domain. -/
abbrev Account := Option Text × Option Text

/-- The account for which requests are made. -/
def RestConnection.account (connection : RestConnection) : Account :=
  (connection.user, connection.userDomain)

/-- The connection with the options of another user. -/
def RestConnection.withAccount (connection : RestConnection) (account : Account) :
    RestConnection :=
  { connection with user := account.1, userDomain := account.2 }

/-- The text by which `__get_user` tells users apart. -/
def Account.text (account : Account) : Text :=
  Text.formatted account.1 ++ '@' :: Text.formatted account.2

/-- The name that `basic_auth` sends: without a domain, the user alone. -/
def Account.login (account : Account) : Text :=
  if Text.truthy account.2 then Text.formatted account.1 ++ '@' :: Text.formatted account.2
  else Text.formatted account.1

/-- What an exchange may carry after the exchanges `before`: exactly one of the
two headers when a user and a password are set, the credentials of the user for
whom it is configured, and only a cookie that was received for the same user. -/
structure Exchange.Isolated (same : Account → Account → Prop) (before : List Exchange)
    (exchange : Exchange) : Prop where
  one : exchange.connection.authenticates →
    ("Authorization" ∈ exchange.request.headers ↔ ¬ "Cookie" ∈ exchange.request.headers)
  credentials : ∀ value, exchange.request.headers.lookup "Authorization" = some value →
    value = some (.str exchange.connection.basicAuth)
  cookie : ∀ value, exchange.request.headers.lookup "Cookie" = some value →
    ∃ cookie, value = some (.str cookie) ∧ ∃ earlier ∈ before, earlier.Sets cookie ∧
      same earlier.connection.account exchange.connection.account

/-- An account with a user whose text is also that of another one is the same
as this. -/
def Distinguished (same : Account → Account → Prop) (accounts : Set Account) : Prop :=
  ∀ first ∈ accounts, ∀ second ∈ accounts, Text.truthy second.1 → first.text = second.text →
    same first second

/-- The action configures a user of this set, if any. -/
def Action.Within (accounts : Set Account) : Action → Prop
  | configure user userDomain _ => (user, userDomain) ∈ accounts
  | _ => True

namespace Session

/-- The invariant: all exchanges so far are isolated, and the session cookie was
received in one that was made for the last active user. -/
structure Safe (same : Account → Account → Prop) (accounts : Set Account) (s : Session) :
    Prop where
  distinguished : Distinguished same accounts
  configured : s.proxy.Configured
  plain : "Authorization" ∉ s.proxy.headers ∧ "Cookie" ∉ s.proxy.headers
  within : s.proxy.opts.restConnection.account ∈ accounts
  logged : ∀ exchange ∈ s.log, exchange.connection.account ∈ accounts
  isolated : ∀ before exchange, before ++ [exchange] <+: s.log → exchange.Isolated same before
  owned : ∀ cookie, s.proxy.cookie = some cookie →
    ∃ exchange ∈ s.log, exchange.Sets cookie ∧
      some exchange.connection.account.text = s.proxy.lastActiveUser

/-- The reply is one to a request that was made for the configured user. -/
def Replied (s : Session) (reply : Reply) : Prop :=
  ∃ exchange ∈ s.log, exchange.outcome = .ok reply ∧
    exchange.connection = s.proxy.opts.restConnection

variable {same : Account → Account → Prop} {accounts : Set Account} {s : Session} {reply : Reply}

/-- A request with the headers that the proxy gives it is isolated. -/
theorem Safe.isolated_sent (safe : s.Safe same accounts) {headers : Headers}
    (hsent : ∀ name ≠ "Content-type", headers.lookup name = s.proxy.sent name) (method : Method)
    (url : Text) (body : Option Text) (outcome : Except PyException Reply) :
    Exchange.Isolated same s.log
      ⟨s.proxy.opts.restConnection, ⟨method, url, body, headers⟩, outcome⟩ := by
  have hauthorization : headers.lookup "Authorization" =
      if s.proxy.opts.restConnection.authenticates ∧ ¬ s.proxy.hasSession then
        some (some (.str s.proxy.opts.restConnection.basicAuth))
      else none := by
    rw [hsent _ (by decide), HTTPProxy.sent_authorization,
      Finmap.lookup_eq_none.mpr safe.plain.1, Option.none_or]
  have hcookie : headers.lookup "Cookie" =
      if s.proxy.opts.restConnection.authenticates ∧ s.proxy.hasSession then
        some (HeaderValue.ofText s.proxy.cookie)
      else none := by
    rw [hsent _ (by decide), HTTPProxy.sent_cookie,
      Finmap.lookup_eq_none.mpr safe.plain.2, Option.none_or]
  refine ⟨fun hauth => ?_, fun value hvalue => ?_, fun value hvalue => ?_⟩
  · rw [← Finmap.lookup_isSome, ← Finmap.lookup_isSome, hauthorization, hcookie]
    cases hsession : s.proxy.hasSession <;> simp [hauth]
  · simp only [hauthorization] at hvalue
    split at hvalue
    · exact (Option.some.inj hvalue).symm
    · exact absurd hvalue (by simp)
  · simp only [hcookie] at hvalue
    split at hvalue
    case isFalse => exact absurd hvalue (by simp)
    case isTrue hsession =>
      have hvalue := Option.some.inj hvalue
      subst hvalue
      obtain ⟨htruthy, hlast⟩ := (Bool.and_eq_true _ _).mp hsession.2
      cases hcurrent : s.proxy.cookie with
      | none => simp [hcurrent, Text.truthy] at htruthy
      | some cookie =>
        obtain ⟨earlier, hmem, hsets, howner⟩ := safe.owned cookie hcurrent
        rw [eq_of_beq hlast] at howner
        have huser : Text.truthy s.proxy.opts.restConnection.user :=
          ((Bool.and_eq_true _ _).mp hsession.1).1
        exact ⟨cookie, rfl, earlier, hmem, hsets,
          safe.distinguished _ (safe.logged earlier hmem) _ safe.within huser
            (Option.some.inj howner)⟩

/-- One more isolated exchange keeps the invariant. -/
theorem Safe.record (safe : s.Safe same accounts) {exchange : Exchange}
    (hwithin : exchange.connection.account ∈ accounts) (h : exchange.Isolated same s.log) :
    (s.record exchange).Safe same accounts where
  distinguished := safe.distinguished
  configured := safe.configured
  plain := safe.plain
  within := safe.within
  logged other hother := by
    rcases List.mem_append.mp hother with hearlier | hlast
    · exact safe.logged other hearlier
    · obtain rfl := List.mem_singleton.mp hlast
      exact hwithin
  isolated before other hbefore := by
    rcases List.prefix_concat_iff.mp hbefore with hlast | hearlier
    · obtain ⟨rfl, hother⟩ := List.append_inj' hlast rfl
      obtain rfl : other = exchange := by simpa using hother
      exact h
    · exact safe.isolated before other hearlier
  owned cookie hcookie := by
    obtain ⟨owner, hmem, howner⟩ := safe.owned cookie hcookie
    exact ⟨owner, List.mem_append_left _ hmem, howner⟩

/-- Taking over a session that was opened for the configured user keeps the
invariant. -/
theorem Safe.setCookie (safe : s.Safe same accounts) (hreplied : s.Replied reply) :
    (s.setCookie (reply.header "Set-Cookie")).Safe same accounts where
  distinguished := safe.distinguished
  configured := safe.configured
  plain := safe.plain
  within := safe.within
  logged := safe.logged
  isolated := safe.isolated
  owned cookie hcookie := by
    obtain ⟨exchange, hmem, houtcome, hconnection⟩ := hreplied
    exact ⟨exchange, hmem, ⟨reply, houtcome, hcookie⟩, by rw [hconnection]; rfl⟩

theorem Safe.received (safe : s.Safe same accounts) (hreplied : s.Replied reply)
    (headers : Headers) : (s.received headers reply).Safe same accounts := by
  unfold Session.received
  split
  · exact safe.setCookie hreplied
  · exact safe

theorem Replied.received (hreplied : s.Replied reply) (headers : Headers) (other : Reply) :
    (s.received headers other).Replied reply := by
  unfold Session.received
  split
  · exact hreplied
  · exact hreplied

end Session

/-! ## What every request keeps -/

section

variable {server : Nat → Except PyException Reply} {same : Account → Account → Prop}
  {accounts : Set Account}

/-- The procedure keeps the invariant, whether it returns or raises. -/
def KeepsSafe {α : Type} (same : Account → Account → Prop) (accounts : Set Account) (m : Api α) :
    Prop :=
  Triple (Session.Safe same accounts) m (fun _ => Session.Safe same accounts)
    (Session.Safe same accounts)

theorem triple_send (method : Method) (url : Text) (body : Option Text) :
    Triple (Session.Safe same accounts) (send server method url body)
      (fun reply t => t.Safe same accounts ∧ t.Replied reply) (Session.Safe same accounts) := by
  intro s safe
  obtain ⟨headers, hheaders, hrun⟩ :=
    run_send server safe.configured method url body
  obtain ⟨sent, hsent, hlookup⟩ := HTTPProxy.lookup_requestHeaders safe.configured body
  obtain rfl : sent = headers := Except.ok.inj (hsent.symm.trans hheaders)
  have hisolated := safe.isolated_sent hlookup method url body
  rw [hrun]
  cases server s.log.length with
  | error e => exact safe.record safe.within (hisolated _)
  | ok reply =>
    have hreplied : (s.record ⟨s.proxy.opts.restConnection, ⟨method, url, body, sent⟩,
        .ok reply⟩).Replied reply :=
      ⟨_, List.mem_append_right _ (List.mem_singleton_self _), rfl, rfl⟩
    exact ⟨(safe.record safe.within (hisolated _)).received hreplied sent,
      hreplied.received _ _⟩

theorem triple_doRequestOnce (method : Method) (url : Text) (body : Option Text)
    (getHeader : Option String) :
    Triple (Session.Safe same accounts) (doRequestOnce server method url body getHeader)
      (fun response t => t.Safe same accounts ∧
        ∃ reply, t.Replied reply ∧ response = reply.response getHeader)
      (Session.Safe same accounts) := by
  refine (triple_send method url body).bind fun reply => triple_pure ?_
  rintro s ⟨safe, hreplied⟩
  exact ⟨safe, reply, hreplied, rfl⟩

theorem keepsSafe_connect : KeepsSafe same accounts (connect server) := by
  refine triple_get_bind fun s => ?_
  refine Triple.bind ((triple_doRequestOnce _ _ _ _).imp (fun _ h => h.2) (fun _ _ h => h)
    fun _ h => h) fun response => triple_modify ?_
  rintro t ⟨safe, reply, hreplied, rfl⟩
  exact safe.setCookie hreplied

theorem keepsSafe_doRequest (method : Method) (url : Text) (body : Option Text)
    (getHeader : Option String) :
    KeepsSafe same accounts (doRequest server method url body getHeader) := by
  refine (triple_send method url body).bind fun reply => triple_get_bind fun s => ?_
  split
  · refine Triple.bind (keepsSafe_connect.imp (fun _ h => h.2.1) (fun _ _ h => h) fun _ h => h)
      fun _ => ?_
    exact (triple_doRequestOnce _ _ _ _).imp (fun _ h => h) (fun _ _ h => h.1) fun _ h => h
  · exact triple_pure fun _ h => h.2.1

theorem keepsSafe_headForLinks : KeepsSafe same accounts (headForLinks server) := by
  refine triple_get_bind fun s => ?_
  split
  · exact triple_pure fun _ h => h.2
  · refine Triple.bind ((keepsSafe_doRequest _ _ _ _).imp (fun _ h => h.2) (fun _ _ h => h)
      fun _ h => h) fun response => ?_
    split
    · exact triple_throw fun _ h => h
    · split
      · exact triple_throw fun _ h => h
      · exact triple_pure fun _ h => h

theorem Session.Safe.configure {s : Session} (safe : s.Safe same accounts)
    {user userDomain : Option Text} (hwithin : (user, userDomain) ∈ accounts)
    (password : Option Text) :
    Session.Safe same accounts { s with proxy := s.proxy.configure user userDomain password } where
  distinguished := safe.distinguished
  configured := safe.configured
  plain := safe.plain
  within := hwithin
  logged := safe.logged
  isolated := safe.isolated
  owned := safe.owned

/-- Every action keeps the invariant. -/
theorem Session.Safe.perform {s : Session} (safe : s.Safe same accounts) {action : Action}
    (hwithin : action.Within accounts) :
    (after (action.perform server) s).Safe same accounts := by
  have hrequest : ∀ {α : Type} {m : Api α}, KeepsSafe same accounts m →
      (after (m >>= fun _ => pure PUnit.unit) s).Safe same accounts := by
    intro α m h
    have hkeeps : KeepsSafe same accounts (m >>= fun _ => pure PUnit.unit) :=
      Triple.bind h fun _ => triple_pure fun _ h => h
    exact hkeeps.after safe
  cases action with
  | get url => exact hrequest (keepsSafe_doRequest _ _ _ _)
  | post url body => exact hrequest (keepsSafe_doRequest _ _ _ _)
  | put url body => exact hrequest (keepsSafe_doRequest _ _ _ _)
  | delete url body => exact hrequest (keepsSafe_doRequest _ _ _ _)
  | connect => exact keepsSafe_connect.after safe
  | headForLinks => exact hrequest keepsSafe_headForLinks
  | configure user userDomain password => exact safe.configure hwithin password

theorem Session.Safe.run {s t : Session} (safe : s.Safe same accounts) {actions : List Action}
    (hwithin : ∀ action ∈ actions, action.Within accounts)
    (hrun : run (Action.step server) s actions = some t) : t.Safe same accounts := by
  induction actions generalizing s with
  | nil => exact Option.some.inj hrun ▸ safe
  | cons action rest ih =>
    rw [List.forall_mem_cons] at hwithin
    exact ih (safe.perform hwithin.1) hwithin.2 hrun

end

/-! ## Whole runs -/

/-- No header of the configuration tells who makes a request. -/
def Opts.Plain (opts : Opts) : Prop :=
  "Authorization" ∉ opts.httpHeaders.getD ∅ ∧ "Cookie" ∉ opts.httpHeaders.getD ∅

theorem Session.Safe.init {same : Account → Account → Prop} {accounts : Set Account}
    (hdistinct : Distinguished same accounts) {opts : Opts} (hplain : opts.Plain)
    (hwithin : opts.restConnection.account ∈ accounts) :
    (Session.init opts).Safe same accounts where
  distinguished := hdistinct
  configured := rfl
  plain := hplain
  within := hwithin
  logged _ hmem := absurd hmem List.not_mem_nil
  isolated before exchange hbefore := by
    have hnil := List.prefix_nil.mp hbefore
    simp at hnil
  owned cookie hcookie := by simp [Session.init, HTTPProxy.init] at hcookie

/-- Session isolation for these users.  Whatever the replies are, and however the
user is changed between requests, each exchange is isolated. -/
def SessionsIsolated (same : Account → Account → Prop) (accounts : Set Account) : Prop :=
  ∀ (server : Nat → Except PyException Reply) (opts : Opts) (actions : List Action)
    (session : Session), opts.Plain → opts.restConnection.account ∈ accounts →
    (∀ action ∈ actions, action.Within accounts) →
    run (Action.step server) (Session.init opts) actions = some session →
    ∀ before exchange later, session.log = before ++ exchange :: later →
      exchange.Isolated same before

/-- A server that opens a session in every reply. -/
def sessionServer (_ : Nat) : Except PyException Reply :=
  .ok (bareReply 200 (some "session".toList))

/-- The options of an administrator under another account. -/
def optsOf (account : Account) : Opts :=
  { adminOpts with restConnection := adminOpts.restConnection.withAccount account }

/-- The proxy after the first account has opened a session and the second was configured. -/
def changedProxy (first second : Account) : HTTPProxy :=
  ((HTTPProxy.init (optsOf first)).setCookie (some "session".toList)).configure second.1 second.2
    (some "secret".toList)

theorem authenticates_changedProxy {first second : Account} (huser : Text.truthy second.1) :
    (changedProxy first second).opts.restConnection.authenticates = true := by
  change (Text.truthy second.1 && true) = true
  rw [huser]
  rfl

/-- The first request of an account opens a session. -/
theorem exists_opened (account : Account) :
    ∃ opened head, after (connect sessionServer) (Session.init (optsOf account)) = opened ∧
      opened.log = [head] ∧ head.connection.account = account ∧
      opened.proxy = (HTTPProxy.init (optsOf account)).setCookie (some "session".toList) := by
  obtain ⟨headers, -, hconnect⟩ := run_connect (s := Session.init (optsOf account)) sessionServer rfl
  let head : Exchange := ⟨(optsOf account).restConnection,
    ⟨.head, (optsOf account).restConnection.uri, none, headers⟩, sessionServer 0⟩
  have hopened := after_eq_of_ok hconnect
  refine ⟨_, head, hopened, ?_, rfl, Session.setCookie_received _ _ _ _⟩
  simp [Session.init, HTTPProxy.init, sessionServer, head]

/-- The cookie of the first account is sent for the second if they share the text. -/
theorem cookie_leaks {first second : Account} (huser : Text.truthy second.1)
    (htext : first.text = second.text) :
    ∃ session head leak, run (Action.step sessionServer) (Session.init (optsOf first))
        [.connect, .configure second.1 second.2 (some "secret".toList), .get []] = some session ∧
      session.log = [head, leak] ∧ head.connection.account = first ∧
      leak.connection.account = second ∧ "Cookie" ∈ leak.request.headers := by
  obtain ⟨opened, head, hopened, hlog, hfirst, hproxy⟩ := exists_opened first
  let changed : Session := { opened with
    proxy := opened.proxy.configure second.1 second.2 (some "secret".toList) }
  have hchanged : changed.proxy = changedProxy first second := by
    rw [changedProxy, ← hproxy]
  have hconf : changed.proxy.Configured := by
    rw [hchanged]
    rfl
  obtain ⟨sent, leak, hheaders, hleak, hafter⟩ :=
    log_doRequest sessionServer hconf .get [] none none
  obtain ⟨found, hfound, hlookup⟩ := HTTPProxy.lookup_requestHeaders hconf none
  obtain rfl : found = sent := Except.ok.inj (hfound.symm.trans hheaders)
  have hend : (after (doRequest sessionServer .get [] none none) changed).log =
      changed.log ++ [leak] := by
    rcases hafter with ⟨hone, -⟩ | ⟨reply, hreply, hexpired, -⟩
    · exact hone
    · obtain rfl := Except.ok.inj hreply
      exact absurd hexpired.1 (by decide)
  refine ⟨_, head, leak, rfl, ?_, hfirst, ?_, ?_⟩
  · have hstate : after (Action.perform sessionServer .connect) (Session.init (optsOf first)) =
        opened := hopened
    simp only [hstate]
    change (after (GET sessionServer [] >>= fun _ => pure PUnit.unit) changed).log = _
    rw [after_bind_eq (fun _ _ => rfl)]
    exact hend.trans (congrArg (· ++ [leak]) hlog)
  · rw [hleak, hchanged]
    rfl
  · have hsame : (some first.text == some second.text) = true := by rw [htext, beq_self_eq_true]
    rw [hleak, ← Finmap.lookup_isSome, hlookup _ (by decide), HTTPProxy.sent_cookie, hchanged,
      if_pos ⟨authenticates_changedProxy huser, hsame⟩]
    rfl

theorem sessionsIsolated_iff (same : Account → Account → Prop) (accounts : Set Account) :
    SessionsIsolated same accounts ↔ Distinguished same accounts := by
  constructor
  · intro hisolated first hfirst second hsecond huser htext
    obtain ⟨session, head, leak, hrun, hlog, hhead, hleak, hcookie⟩ := cookie_leaks huser htext
    have hwithin : ∀ action ∈ [Action.connect,
        .configure second.1 second.2 (some "secret".toList), .get []], action.Within accounts := by
      simp [Action.Within, hsecond]
    have hplain : (optsOf first).Plain := ⟨nofun, nofun⟩
    have hlast := hisolated sessionServer (optsOf first) _ session hplain hfirst hwithin hrun
      [head] leak [] hlog
    obtain ⟨value, hvalue⟩ := Finmap.mem_iff.mp hcookie
    obtain ⟨-, -, earlier, hmem, -, hsame⟩ := hlast.cookie value hvalue
    obtain rfl := List.mem_singleton.mp hmem
    rwa [hhead, hleak] at hsame
  · intro hdistinct server opts actions session hplain hfirst hwithin hrun
      before exchange later hlog
    have hsafe := (Session.Safe.init hdistinct hplain hfirst).run hwithin hrun
    refine hsafe.isolated before exchange ?_
    rw [hlog]
    exact ⟨later, by simp⟩

/-- Two accounts log in under one name. -/
def SameLogin (first second : Account) : Prop := first.login = second.login

/-- The sessions of users are kept apart exactly if no two different accounts
share the text by which the proxy tells users apart; and those of logins if no
two accounts with different logins share it. -/
theorem sessions_isolated_iff (accounts : Set Account) :
    (SessionsIsolated (· = ·) accounts ↔ Distinguished (· = ·) accounts) ∧
      (SessionsIsolated SameLogin accounts ↔ Distinguished SameLogin accounts) :=
  ⟨sessionsIsolated_iff _ _, sessionsIsolated_iff _ _⟩

/-- An administrator without a domain shares the session of the one of the domain
`None`. -/
theorem session_of_domain_none :
    let admins : Set Account :=
      {(some "admin".toList, none), (some "admin".toList, some "None".toList)}
    ¬ SessionsIsolated (· = ·) admins ∧ ¬ SessionsIsolated SameLogin admins := by
  refine ⟨fun h => ?_, fun h => ?_⟩
  · have hsame := (sessionsIsolated_iff _ _).mp h _ (.inl rfl) _ (.inr rfl) rfl rfl
    exact absurd hsame (by decide)
  · have hsame := (sessionsIsolated_iff _ _).mp h _ (.inl rfl) _ (.inr rfl) rfl rfl
    have hdiff : ¬ Account.login (some "admin".toList, none) =
      Account.login (some "admin".toList, some "None".toList) := by decide
    exact hdiff hsame

end OvirtArt.CoreApi
