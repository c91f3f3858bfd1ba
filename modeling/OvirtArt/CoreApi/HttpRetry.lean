import OvirtArt.CoreApi.HttpSpec

set_option autoImplicit false

/-!
# Recovery from an expired session

A request whose session has expired is repeated after a HEAD request that is to
open a new session.  This file says when the repetition is a request that the
server can authenticate: the HEAD request itself is made with the expired
cookie, and `connect` takes over what its reply sets, a 401 included.

The run of all requests is cut into exchanges; a step lemma says what one request keeps, and the
result follows for every run.  Whether the server really honours a cookie is not part of the
model, only what its replies set.
-/

namespace OvirtArt.CoreApi

open OvirtArt.Foundation

/-! ## Authenticated exchanges -/

/-- The reply is one to a request that was authenticated, and it sets the
cookie. -/
def Reply.Grants (reply : Reply) (value : HeaderValue) : Prop :=
  reply.status ≠ 401 ∧
    ∃ cookie, reply.header "Set-Cookie" = some cookie ∧ value = some (.str cookie)

/-- The reply of the exchange hands out this value. -/
def Exchange.Grants (exchange : Exchange) (value : HeaderValue) : Prop :=
  ∃ reply, exchange.outcome = .ok reply ∧ reply.Grants value

/-- The server can authenticate the request, after the exchanges `before`. -/
def Exchange.Authenticable (before : List Exchange) (exchange : Exchange) : Prop :=
  "Authorization" ∈ exchange.request.headers ∨
    ∃ value, exchange.request.headers.lookup "Cookie" = some value ∧
      ∃ earlier ∈ before, earlier.Grants value

/-! ## The exchanges of an action -/

/-- The arguments of `__do_request`. -/
structure Call where
  method : Method
  url : Text
  body : Option Text
  getHeader : Option String

/-- The request, if any, that an action makes and that is repeated when the
session has expired. -/
def Action.call (s : Session) : Action → Option Call
  | get url => some ⟨.get, url, none, none⟩
  | post url body => some ⟨.post, url, body, none⟩
  | put url body => some ⟨.put, url, body, none⟩
  | delete url body => some ⟨.delete, url, body, none⟩
  | connect => none
  | headForLinks =>
    if s.proxy.opts.standalone then none
    else some ⟨.head, s.proxy.opts.restConnection.uri, none, some "link"⟩
  | configure _ _ _ => none

section

variable (server : Nat → Except PyException Reply)

/-- The exchanges that an action makes. -/
def made (s : Session) (action : Action) : List Exchange :=
  (after (action.perform server) s).log.drop s.log.length

/-- An action makes three exchanges at most.  If its request is made with a cookie
and answered 401, a HEAD request follows, and, where this has a reply, the request
once more, so that the server can authenticate it. -/
structure Recovers (s : Session) (action : Action) : Prop where
  most : (made server s action).length ≤ 3
  retried : (action.call s).isSome → ∀ first rest reply,
    made server s action = first :: rest → "Cookie" ∈ first.request.headers →
    first.outcome = .ok reply → reply.status = 401 →
    (∃ head e, rest = [head] ∧ head.outcome = .error e) ∨
      ∃ head retry, rest = [head, retry] ∧ retry.Authenticable (s.log ++ [first, head])

end

/-- What the reply to the HEAD request has to be like: the Authorization header is
configured; or the reply sets no cookie; or the cookie that is sent next, which is
the one that the reply sets unless one is configured, is one that an
authenticated exchange has set, this one or an earlier one. -/
def Renews (s : Session) (renewal : Reply) : Prop :=
  "Authorization" ∈ s.proxy.headers ∨
    (s.proxy.opts.restConnection.authenticates ∧
      ¬ Text.truthy (renewal.header "Set-Cookie")) ∨
    ∃ value,
      (s.proxy.headers.lookup "Cookie").or
          (if s.proxy.opts.restConnection.authenticates ∧
              Text.truthy (renewal.header "Set-Cookie") then
            some (HeaderValue.ofText (renewal.header "Set-Cookie"))
          else none) = some value ∧
        (renewal.Grants value ∨ ∃ earlier ∈ s.log, earlier.Grants value)

/-- The condition under which a request recovers from an expired session.  If it
is made with a cookie and answered 401, then there is a session cookie to be
renewed, and the reply to the HEAD request, if there is one, renews it. -/
def Renewable (server : Nat → Except PyException Reply) (s : Session) (action : Action) :
    Prop :=
  ∀ call headers reply, action.call s = some call →
    s.proxy.requestHeaders call.body = .ok headers → "Cookie" ∈ headers →
    server s.log.length = .ok reply → reply.status = 401 →
    Expired s.proxy headers reply ∧
      ∀ renewal, server (s.log.length + 1) = .ok renewal → Renews s renewal

/-- Where neither header is configured: the reply to the HEAD request renews the
session if it sets no cookie, or is not a 401, or sets one that is valid
already. -/
theorem renews_iff_of_plain {s : Session} (hauth : s.proxy.opts.restConnection.authenticates)
    (hplain : "Authorization" ∉ s.proxy.headers ∧ "Cookie" ∉ s.proxy.headers)
    (renewal : Reply) :
    Renews s renewal ↔
      (Text.truthy (renewal.header "Set-Cookie") → renewal.status ≠ 401 ∨
        ∃ earlier ∈ s.log, earlier.Grants (HeaderValue.ofText (renewal.header "Set-Cookie"))) := by
  unfold Renews
  rw [Finmap.lookup_eq_none.mpr hplain.2]
  cases hcookie : renewal.header "Set-Cookie" with
  | none => simp [hauth, Text.truthy]
  | some cookie =>
    by_cases htruthy : Text.truthy (some cookie) = true
    · have hgrants : renewal.Grants (HeaderValue.ofText (some cookie)) ↔
          renewal.status ≠ 401 := by
        unfold Reply.Grants HeaderValue.ofText
        simp [hcookie]
      simp [hauth, hplain.1, htruthy, hgrants]
    · simp [hauth, htruthy]

/-! ## Three exchanges at most -/

section

variable {server : Nat → Except PyException Reply} {s : Session} {action : Action} {call : Call}

/-- An action that makes a repeatable request makes the exchanges of this
request. -/
theorem log_perform_of_call (hcall : action.call s = some call) :
    (after (action.perform server) s).log =
      (after (doRequest server call.method call.url call.body call.getHeader) s).log := by
  have hunit : ∀ {α : Type} (m : Api α),
      after (m >>= fun _ => pure PUnit.unit) s = after m s :=
    fun m => after_bind_eq (fun _ _ => rfl) s
  cases action with
  | get url =>
    obtain rfl := Option.some.inj hcall
    exact congrArg Session.log (hunit _)
  | post url body =>
    obtain rfl := Option.some.inj hcall
    exact congrArg Session.log (hunit _)
  | put url body =>
    obtain rfl := Option.some.inj hcall
    exact congrArg Session.log (hunit _)
  | delete url body =>
    obtain rfl := Option.some.inj hcall
    exact congrArg Session.log (hunit _)
  | connect => simp [Action.call] at hcall
  | headForLinks =>
    simp only [Action.call] at hcall
    split at hcall
    case isTrue => simp at hcall
    case isFalse hstandalone =>
      obtain rfl := Option.some.inj hcall
      refine (congrArg Session.log (hunit (headForLinks server))).trans ?_
      unfold headForLinks
      rw [after_get_bind, if_neg hstandalone]
      refine congrArg Session.log (after_bind_eq (fun response t => ?_) s)
      split
      · rfl
      · cases response.header <;> rfl
  | configure user userDomain password => simp [Action.call] at hcall

variable (server) in
/-- Any other action makes one exchange at most. -/
theorem length_made_of_no_call (hconf : s.proxy.Configured) (hcall : action.call s = none) :
    (made server s action).length ≤ 1 := by
  unfold made
  cases action with
  | get url => simp [Action.call] at hcall
  | post url body => simp [Action.call] at hcall
  | put url body => simp [Action.call] at hcall
  | delete url body => simp [Action.call] at hcall
  | connect =>
    obtain ⟨headers, _, hrun⟩ := run_connect server hconf
    have hafter : after (Action.connect.perform server) s = after (connect server) s := rfl
    rw [hafter]
    unfold after
    rw [hrun]
    cases server s.log.length <;> simp
  | headForLinks =>
    simp only [Action.call] at hcall
    split at hcall
    case isTrue hstandalone =>
      have hafter : after (Action.headForLinks.perform server) s = s := by
        refine (after_bind_eq (fun _ _ => rfl) s).trans ?_
        unfold headForLinks
        rw [after_get_bind, if_pos hstandalone]
        rfl
      rw [hafter]
      simp
    case isFalse => simp at hcall
  | configure user userDomain password =>
    have hlog : (after ((Action.configure user userDomain password).perform server) s).log =
      s.log := rfl
    rw [hlog]
    simp

/-- The repetition is a request that the server can authenticate exactly if the
reply to the HEAD request renews the session. -/
theorem authenticable_iff_renews {first head retry : Exchange} {reply renewal : Reply}
    (hfirst : first.outcome = .ok reply) (h401 : reply.status = 401)
    (hhead : head.outcome = .ok renewal)
    (hsent : ∀ name ≠ "Content-type", retry.request.headers.lookup name =
      (s.proxy.setCookie (renewal.header "Set-Cookie")).sent name) :
    retry.Authenticable (s.log ++ [first, head]) ↔ Renews s renewal := by
  have hsession : (s.proxy.setCookie (renewal.header "Set-Cookie")).hasSession =
      Text.truthy (renewal.header "Set-Cookie") := by
    simp [HTTPProxy.hasSession, HTTPProxy.setCookie]
  have hauthorization : "Authorization" ∈ retry.request.headers ↔
      "Authorization" ∈ s.proxy.headers ∨
        (s.proxy.opts.restConnection.authenticates ∧
          ¬ Text.truthy (renewal.header "Set-Cookie")) := by
    rw [← Finmap.lookup_isSome, hsent _ (by decide), HTTPProxy.sent_authorization, hsession,
      ← Finmap.lookup_isSome]
    simp only [HTTPProxy.setCookie, Option.isSome_or, Bool.or_eq_true]
    exact or_congr_right Option.isSome_ite
  have hcookie := hsent "Cookie" (by decide)
  rw [HTTPProxy.sent_cookie, hsession] at hcookie
  have hgranted : ∀ value, (∃ earlier ∈ s.log ++ [first, head], earlier.Grants value) ↔
      renewal.Grants value ∨ ∃ earlier ∈ s.log, earlier.Grants value := by
    intro value
    constructor
    · rintro ⟨earlier, hmem, other, hother, hgrants⟩
      rcases List.mem_append.mp hmem with hlog | hnew
      · exact .inr ⟨earlier, hlog, other, hother, hgrants⟩
      · rcases List.mem_pair.mp hnew with rfl | rfl
        · obtain rfl := Except.ok.inj (hother.symm.trans hfirst)
          exact absurd h401 hgrants.1
        · obtain rfl := Except.ok.inj (hother.symm.trans hhead)
          exact .inl hgrants
    · rintro (hgrants | ⟨earlier, hmem, hgrants⟩)
      · exact ⟨head, by simp, renewal, hhead, hgrants⟩
      · exact ⟨earlier, List.mem_append_left _ hmem, hgrants⟩
  unfold Exchange.Authenticable Renews
  rw [hauthorization, or_assoc]
  refine or_congr_right (or_congr_right (exists_congr fun value => ?_))
  rw [hcookie, hgranted]
  rfl

/-- The condition for an action whose request and headers are known. -/
theorem renewable_iff_of_call {headers : Headers} (hcall : action.call s = some call)
    (hheaders : s.proxy.requestHeaders call.body = .ok headers) :
    Renewable server s action ↔
      ("Cookie" ∈ headers → ∀ reply, server s.log.length = .ok reply →
        reply.status = 401 → Expired s.proxy headers reply ∧
          ∀ renewal, server (s.log.length + 1) = .ok renewal → Renews s renewal) := by
  constructor
  · intro h hcookie reply hreply h401
    exact h call headers reply hcall hheaders hcookie hreply h401
  · intro h other sent reply hother hsent hcookie hreply h401
    obtain rfl := Option.some.inj (hcall.symm.trans hother)
    obtain rfl := Except.ok.inj (hheaders.symm.trans hsent)
    exact h hcookie reply hreply h401

/-- What an action makes is what its request adds to the log. -/
theorem made_of_call {exchanges : List Exchange} (hcall : action.call s = some call)
    (h : (after (doRequest server call.method call.url call.body call.getHeader) s).log =
      s.log ++ exchanges) : made server s action = exchanges := by
  unfold made
  rw [log_perform_of_call hcall, h, List.drop_left]

/-- One action: it recovers from an expired session exactly under the
condition. -/
theorem recovers_iff (hconf : s.proxy.Configured) (action : Action) :
    Recovers server s action ↔ Renewable server s action := by
  cases hcall : action.call s with
  | none =>
    have hlength := length_made_of_no_call server hconf hcall
    constructor
    · intro _ call headers reply hsome
      rw [hcall] at hsome
      exact absurd hsome (by simp)
    · intro _
      exact ⟨by omega, fun hsome => by simp [hcall] at hsome⟩
  | some call =>
    obtain ⟨headers, first, hheaders, hfirst, hlog⟩ := log_doRequest server
      hconf call.method call.url call.body call.getHeader
    have houtcome : first.outcome = server s.log.length := by rw [hfirst]
    have hcarried : "Cookie" ∈ first.request.headers ↔ "Cookie" ∈ headers := by rw [hfirst]
    rw [renewable_iff_of_call hcall hheaders]
    rcases hlog with ⟨hafter, hnot⟩ | ⟨reply, hreply, hexpired, hrenewal⟩
    · -- a single exchange: the reply does not say that the session has expired
      have hone := made_of_call hcall hafter
      constructor
      · intro hrecovers hcookie reply hreply h401
        rcases hrecovers.retried (by simp [hcall]) first [] reply hone (hcarried.mpr hcookie)
          (houtcome.trans hreply) h401 with ⟨_, _, hrest, _⟩ | ⟨_, _, hrest, _⟩
        · exact absurd hrest (by simp)
        · exact absurd hrest (by simp)
      · intro h
        refine ⟨by simp [hone], fun _ other rest reply hother hcookie hreply h401 => ?_⟩
        rw [hone] at hother
        obtain ⟨rfl, rfl⟩ := List.cons.inj hother
        have hreply := houtcome.symm.trans hreply
        exact absurd (h (hcarried.mp hcookie) reply hreply h401).1 (hnot reply hreply)
    · rcases hrenewal with ⟨head, e, hafter, herror, hhead⟩ |
        ⟨head, renewal, retry, hafter, hok, hhead, hsent⟩
      · -- the HEAD request fails: the request is not repeated
        have htwo := made_of_call hcall hafter
        constructor
        · intro _ _ other hother _
          obtain rfl := Except.ok.inj (hreply.symm.trans hother)
          exact ⟨hexpired, fun renewal hrenewal => by rw [herror] at hrenewal; cases hrenewal⟩
        · intro _
          refine ⟨by simp [htwo], fun _ other rest _ hother _ _ _ => .inl ⟨head, e, ?_, hhead⟩⟩
          rw [htwo] at hother
          exact (List.cons.inj hother).2.symm
      · -- the request is repeated
        have hthree := made_of_call hcall hafter
        have hiff := authenticable_iff_renews (s := s) (houtcome.trans hreply) hexpired.1
          hhead hsent
        constructor
        · intro hrecovers hcookie other hother _
          obtain rfl := Except.ok.inj (hreply.symm.trans hother)
          refine ⟨hexpired, fun again hagain => ?_⟩
          obtain rfl := Except.ok.inj (hok.symm.trans hagain)
          rcases hrecovers.retried (by simp [hcall]) first _ reply hthree
            (hcarried.mpr hcookie) (houtcome.trans hreply) hexpired.1 with
            ⟨_, _, hrest, _⟩ | ⟨_, _, hrest, hauthenticable⟩
          · exact absurd hrest (by simp)
          · obtain ⟨rfl, rfl⟩ := hrest
            exact hiff.mp hauthenticable
        · intro h
          refine ⟨by simp [hthree], fun _ other rest _ hother hcookie _ _ => .inr ?_⟩
          rw [hthree] at hother
          obtain ⟨rfl, rfl⟩ := List.cons.inj hother
          refine ⟨head, retry, rfl, hiff.mpr ?_⟩
          exact (h (hcarried.mp hcookie) reply hreply hexpired.1).2 renewal hok

end

/-! ## Runs -/

/-- Recovery from expired sessions.  In every run of the proxy, whatever the
replies are, all requests recover exactly if, whenever a request with a cookie
is answered 401, the reply to the HEAD request renews the session. -/
theorem sessions_recover_iff (server : Nat → Except PyException Reply) (opts : Opts)
    (actions : List Action) :
    EveryStep (Action.step server) (Recovers server) (Session.init opts) actions ↔
      EveryStep (Action.step server) (Renewable server) (Session.init opts) actions := by
  refine everyStep_congr (I := fun s => s.proxy.Configured) ?_ ?_ rfl
  · intro s t action hconf hstep
    obtain rfl := Option.some.inj hstep
    exact configured_perform hconf action
  · intro s action hconf
    exact recovers_iff hconf action

/-- A server that ends the session after the first reply, and that sets a cookie in
a 401 as well. -/
def forgetfulServer : Nat → Except PyException Reply
  | 0 => .ok (bareReply 200 (some "one".toList))
  | 1 => .ok (bareReply 401 none)
  | 2 => .ok (bareReply 401 (some "two".toList))
  | _ => .ok (bareReply 200 none)

/-- The session that `connect` opens on that server. -/
def connected : Session := after (connect forgetfulServer) (Session.init adminOpts)

/-- On that server the repetition carries the cookie of a 401. -/
theorem retry_with_rejected_cookie :
    ¬ ∀ (server : Nat → Except PyException Reply) (opts : Opts) (actions : List Action),
      EveryStep (Action.step server) (Recovers server) (Session.init opts) actions := by
  intro hall
  have hrun := hall forgetfulServer adminOpts [.connect, .get "vms".toList]
  have hrecovers : Recovers forgetfulServer connected (.get "vms".toList) :=
    ((hrun connected rfl).2 _ rfl).1
  have hconf : connected.proxy.Configured := 
    configured_perform (s := Session.init adminOpts) rfl .connect
  obtain ⟨headers, hheaders, hlookup⟩ := HTTPProxy.lookup_requestHeaders hconf none
  have hcookie : "Cookie" ∈ headers := by
    rw [← Finmap.lookup_isSome, hlookup _ (by decide)]
    decide
  have hrenews : Renews connected (bareReply 401 (some "two".toList)) :=
    ((recovers_iff hconf _).mp hrecovers _ headers (bareReply 401 none) rfl hheaders hcookie
      rfl rfl).2 _ rfl
  have hone : ∀ exchange ∈ connected.log,
      exchange.outcome = .ok (bareReply 200 (some "one".toList)) := by
    intro exchange hmem
    obtain rfl := List.mem_singleton.mp hmem
    rfl
  rcases (renews_iff_of_plain (by decide) (by decide) _).mp hrenews
    (by decide) with h401 | ⟨earlier, hmem, reply, hreply, _, cookie, hset, hvalue⟩
  · exact h401 rfl
  · obtain rfl := Except.ok.inj ((hone earlier hmem).symm.trans hreply)
    obtain rfl := Option.some.inj hset
    exact absurd hvalue (by decide)

end OvirtArt.CoreApi
