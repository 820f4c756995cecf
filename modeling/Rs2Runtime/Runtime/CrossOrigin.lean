import Rs2Runtime.Runtime.Authentication
import Rs2Runtime.Runtime.PublicCaching
import Rs2Runtime.Wrapper.Cors

/-!
Contract: cross-origin requests at a host that checks them with its tenant's policy and
authenticators.

Owns:
- the host's handling of a request: dispatch, the headers for permitted origins, and the default
  for caching;
- that a forged request is refused or served as if its cookies were not there;
- when a response is open only to the origins that the policy names.

## Where a response is opened too far

The policy adds headers for permitted origins and takes none away.  A reply that comes with such
headers of its own, as a service may build it or an upstream may send it, keeps them whatever the
policy says.
-/

namespace Rs2Runtime.Runtime

open Text Data Json Wrapper Rs2Runtime.Services
open Idempotency

/-- What a tenant checks its requests with. -/
structure Security where
  policy : CorsPolicy
  authenticators : List Authenticator
  digests : Digests
  readClaims : Octets → Option Claims
  now : Nat

namespace Host

/-- The host with the checks of its tenant. -/
def secured (host : Host) (security : Security) : Host :=
  { host.caching with
    preflight := security.policy.preflight
    checkAmbientCsrf := fun msg origin requestHost =>
      security.policy.checkAmbientCsrf msg origin requestHost
        (hasAmbientCredential security.authenticators msg)
    authenticate := fun msg =>
      (Runtime.authenticate security.digests security.readClaims security.now
        security.authenticators msg).map fun accepted => accepted.map Prod.fst }

/-- The host whose authenticators see no cookies. -/
def blind (host : Host) : Host :=
  { host with authenticate := fun msg => host.authenticate (withoutCookies msg) }

end Host

/-! ## Handling -/

/-- What has no caching policy is never stored. -/
def storedNever (resp : Message) : Message :=
  if resp.header "cache-control" = none ∧ resp.status ≠ some 304 ∧ resp.status ≠ some 101 then
    resp.setHeader "cache-control" "no-store"
  else
    resp

section Handle

variable (digest : Octets → Str) (limits : Limits) (host : Host) (services : Services)
  (moment : Moment) (policy : CorsPolicy)

/-- The headers for a permitted origin, where the tenant is loaded. -/
def decorated (loaded : Bool) (msg resp : Message) : Message :=
  match msg.header "origin" with
  | some origin =>
    if msg.source = .external ∧ loaded then
      policy.decorate resp origin (msg.header "host")
    else
      resp
  | none => resp

/-- Handle a message; failures become responses. -/
def handle (loaded : Bool) (msg : Message) (entries : Entries) : Message × Entries :=
  let answered := dispatch digest limits host services moment msg entries
  let resp :=
    match answered.1 with
    | .ok resp => resp
    | .error e => (msg.response 200 none).errorResponse host.codec e
  (storedNever (decorated policy loaded msg resp), answered.2)

end Handle

/-! ## Cookies -/

namespace Authenticator

/-- An authenticator that sees no ambient credential makes the same of the request without its
cookies. -/
theorem tryAuthenticate_withoutCookies (digests : Digests) (readClaims : Octets → Option Claims)
    (now : Nat) {authenticator : Authenticator} {msg : Message}
    (absent : authenticator.ambientCredential msg = false) :
    authenticator.tryAuthenticate digests readClaims now (withoutCookies msg) =
      authenticator.tryAuthenticate digests readClaims now msg := by
  cases authenticator with
  | auth secret =>
    unfold tryAuthenticate
    rw [extractToken_withoutCookies absent]
  | apikeys service data =>
    have key : bearerKey (withoutCookies msg) = bearerKey msg := by
      unfold bearerKey
      rw [header_withoutCookies (by decide)]
    unfold tryAuthenticate
    rw [key]

end Authenticator

theorem authenticateFrom_withoutCookies (digests : Digests) (readClaims : Octets → Option Claims)
    (now : Nat) {msg : Message} {authenticators : List Authenticator}
    (absent : hasAmbientCredential authenticators msg = false) (unrecognised : Option RsError) :
    authenticateFrom digests readClaims now (withoutCookies msg) unrecognised authenticators =
      authenticateFrom digests readClaims now msg unrecognised authenticators := by
  induction authenticators generalizing unrecognised with
  | nil => rfl
  | cons authenticator rest ih =>
    rw [hasAmbientCredential, List.any_cons, Bool.or_eq_false_iff] at absent
    obtain ⟨here, later⟩ := absent
    unfold authenticateFrom
    rw [Authenticator.tryAuthenticate_withoutCookies digests readClaims now here]
    cases authenticator.tryAuthenticate digests readClaims now msg with
    | error e => rfl
    | ok outcome =>
      cases outcome with
      | pass => exact ih later _
      | unrecognised e => exact ih later _
      | authenticated principal expires => rfl

namespace Host

variable (host : Host) (security : Security)

/-- Without an ambient credential the principal is not taken from the cookies. -/
theorem authenticated_blind {msg : Message}
    (absent : hasAmbientCredential security.authenticators msg = false) :
    (host.secured security).blind.authenticated msg =
      (host.secured security).authenticated msg := by
  have same : (host.secured security).authenticate (withoutCookies msg) =
      (host.secured security).authenticate msg := by
    show Except.map _ (Runtime.authenticate _ _ _ _ _) = Except.map _ (Runtime.authenticate _ _ _ _ _)
    unfold Runtime.authenticate
    rw [authenticateFrom_withoutCookies _ _ _ absent]
  show (if msg.principal.isNone then
    ((host.secured security).authenticate (withoutCookies msg)).map _ else _) = _
  rw [same]
  rfl

/-- A host that refuses a request across origins refuses it before it is authenticated. -/
theorem arrive_of_cors_error {msg : Message} {e : RsError} (refused : host.cors msg = .error e) :
    ∃ e', host.arrive msg = .error e' := by
  cases arrived : host.arrive msg with
  | error e' => exact ⟨e', rfl⟩
  | ok arrival =>
    unfold arrive at arrived
    obtain ⟨_, -, bounded⟩ := Outcome.bind_eq_ok.mp arrived
    obtain ⟨_, -, broken⟩ := Outcome.bind_eq_ok.mp bounded
    obtain ⟨_, -, origin⟩ := Outcome.bind_eq_ok.mp broken
    obtain ⟨_, answered, -⟩ := Outcome.bind_eq_ok.mp origin
    rw [refused] at answered
    cases answered

/-- Hosts that differ in their authentication only, and not on this request, let it arrive
alike. -/
theorem arrive_blind {msg : Message}
    (same : (∃ preflight, host.cors msg = .ok (some preflight)) ∨
      host.blind.authenticated msg = host.authenticated msg) :
    host.blind.arrive msg = host.arrive msg := by
  have cors : host.blind.cors msg = host.cors msg := rfl
  unfold arrive
  rw [cors]
  rcases same with ⟨preflight, answered⟩ | authenticated
  · rw [answered]
    rfl
  · rw [authenticated]
    rfl

theorem dispatch_blind (digest : Octets → Str) (limits : Limits) (services : Services)
    (moment : Moment) {msg : Message} (same : host.blind.arrive msg = host.arrive msg)
    (entries : Entries) :
    dispatch digest limits host.blind services moment msg entries =
      dispatch digest limits host services moment msg entries := by
  unfold dispatch
  rw [same]
  rfl

end Host

/-- The request is refused before it is authenticated, or it is served as if its cookies were not
there to authenticate it. -/
def CookieUnused (digest : Octets → Str) (limits : Limits) (host : Host) (services : Services)
    (moment : Moment) (msg : Message) (entries : Entries) : Prop :=
  (∃ e e', host.cors msg = .error e ∧ host.arrive msg = .error e') ∨
    dispatch digest limits host services moment msg entries =
      dispatch digest limits host.blind services moment msg entries

section Claims

variable (digest : Octets → Str) (limits : Limits) (host : Host) (services : Services)
  (moment : Moment) (security : Security) (msg : Message) (entries : Entries)

/-- An unsafe request from an origin that is not trusted cannot use the cookie. -/
theorem cookieUnused_of_unsafe {origin : Str} (external : msg.source = .external)
    (named : msg.header "origin" = some origin)
    (foreign : isSameOrigin origin (msg.header "host") = false)
    (untrusted : security.policy.isTrusted origin = false)
    (dangerous : CorsPolicy.isUnsafe msg = true) :
    CookieUnused digest limits (host.secured security) services moment msg entries := by
  cases answered : (if msg.method = .options then
      (host.secured security).preflight msg origin (msg.header "host") else none) with
  | some preflight =>
    have guarded : (host.secured security).cors msg = .ok (some preflight) := by
      unfold Host.cors
      rw [if_pos external, named]
      dsimp only
      rw [answered]
    exact .inr (Host.dispatch_blind _ _ _ _ _ (Host.arrive_blind _ (.inl ⟨_, guarded⟩)) _).symm
  | none =>
    have guarded : (host.secured security).cors msg =
        (security.policy.checkAmbientCsrf msg origin (msg.header "host")
          (hasAmbientCredential security.authenticators msg)).map fun _ => none := by
      unfold Host.cors
      rewrite [if_pos external, named]
      dsimp only
      rewrite [answered]
      rfl
    cases ambient : hasAmbientCredential security.authenticators msg with
    | true =>
      have refused : ∃ e, (host.secured security).cors msg = .error e := by
        rw [guarded, ambient]
        unfold CorsPolicy.checkAmbientCsrf
        rw [foreign, untrusted, dangerous]
        exact ⟨_, rfl⟩
      obtain ⟨e, refused⟩ := refused
      obtain ⟨e', stopped⟩ := Host.arrive_of_cors_error _ refused
      exact .inl ⟨e, e', refused, stopped⟩
    | false =>
      exact .inr (Host.dispatch_blind _ _ _ _ _
        (Host.arrive_blind _ (.inr (Host.authenticated_blind host security ambient))) _).symm

/-- Caching policies leave the headers for origins alone. -/
theorem guarded_apply_iff {policy : CorsPolicy} (caching : CachePolicy) (openlyReadable : Bool)
    (origin : Str) (resp : Message) :
    policy.Guarded origin (caching.apply resp openlyReadable) ↔ policy.Guarded origin resp := by
  unfold CachePolicy.apply
  split
  · exact Iff.rfl
  · dsimp only
    split
    · rw [CorsPolicy.guarded_appendHeaderValue_iff (by decide) (by decide),
        CorsPolicy.guarded_setHeader_iff (by decide) (by decide)]
    · rw [CorsPolicy.guarded_setHeader_iff (by decide) (by decide)]

theorem guarded_sent_iff {policy : CorsPolicy} (origin : Str) (reply : Message × Option Mount) :
    policy.Guarded origin (sent (host.secured security) reply) ↔
      policy.Guarded origin reply.1 := by
  obtain ⟨resp, policed⟩ := reply
  cases policed with
  | none => exact Iff.rfl
  | some mount =>
    show policy.Guarded origin (if resp.isOk then Host.policed mount resp else resp) ↔ _
    split
    · exact guarded_apply_iff _ _ origin resp
    · exact Iff.rfl

theorem guarded_storedNever_iff {policy : CorsPolicy} (origin : Str) (resp : Message) :
    policy.Guarded origin (storedNever resp) ↔ policy.Guarded origin resp := by
  unfold storedNever
  split
  · exact CorsPolicy.guarded_setHeader_iff (by decide) (by decide) origin resp _
  · exact Iff.rfl

theorem guarded_decorated_iff {policy : CorsPolicy} {origin : Str} {msg : Message}
    (named : msg.header "origin" = some origin) (loaded : Bool) (resp : Message) :
    policy.Guarded origin (decorated policy loaded msg resp) ↔ policy.Guarded origin resp := by
  unfold decorated
  rw [named]
  dsimp only
  split
  · exact CorsPolicy.guarded_decorate_iff origin _ resp
  · exact Iff.rfl

/-- An error is open to no origin. -/
theorem guarded_errorResponse (policy : CorsPolicy) (origin : Str) (codec : Codec) (msg : Message)
    (e : RsError) : policy.Guarded origin (msg.errorResponse codec e) := by
  have absent (name value : Str) (apart : name ≠ "retry-after") :
      ((HeaderMap.set [] "retry-after" value).first name).isSome ≠ true := by
    rw [first_set, if_neg apart]
    exact nofun
  unfold Message.errorResponse
  dsimp only
  cases e.retryAfterMs with
  | none => exact ⟨nofun, nofun⟩
  | some ms =>
    constructor
    · exact fun carried => absurd carried (absent _ _ (by decide))
    · exact fun carried => absurd carried (absent _ _ (by decide))

/-- A response is opened no further than the policy says exactly when the reply that the host
decorates is. -/
theorem guarded_handle_iff {origin : Str} (named : msg.header "origin" = some origin)
    (loaded : Bool) :
    security.policy.Guarded origin (handle digest limits (host.secured security) services moment
        security.policy loaded msg entries).1 ↔
      ∀ reply policed,
        replyTo digest limits (host.secured security) services moment msg entries =
            .ok (reply, policed) →
          security.policy.Guarded origin reply := by
  show security.policy.Guarded origin (storedNever (decorated security.policy loaded msg
    (match (dispatch digest limits (host.secured security) services moment msg entries).1 with
    | .ok resp => resp
    | .error e => (msg.response 200 none).errorResponse (host.secured security).codec e))) ↔ _
  rw [guarded_storedNever_iff, guarded_decorated_iff named, dispatch_eq]
  cases replied : replyTo digest limits (host.secured security) services moment msg entries with
  | error e =>
    refine iff_of_true (guarded_errorResponse _ _ _ _ _) fun reply policed answered => ?_
    cases answered
  | ok reply =>
    show security.policy.Guarded origin (sent (host.secured security) reply) ↔ _
    rw [guarded_sent_iff]
    constructor
    · intro guarded other policed same
      cases same
      exact guarded
    · exact fun every => every reply.1 reply.2 rfl

/-- A reply to a preflight is within the policy. -/
theorem guarded_of_preflight {origin : Str} (external : msg.source = .external)
    (named : msg.header "origin" = some origin) {preflight reply : Message} {policed : Option Mount}
    (answered : (host.secured security).cors msg = .ok (some preflight))
    (replied : replyTo digest limits (host.secured security) services moment msg entries =
      .ok (reply, policed)) :
    security.policy.Guarded origin reply := by
  have isReply : reply = preflight := by
    unfold replyTo at replied
    cases arrived : (host.secured security).arrive msg with
    | error e =>
      rw [arrived] at replied
      cases replied
    | ok arrival =>
      have before := arrived
      unfold Host.arrive at before
      obtain ⟨_, -, bounded⟩ := Outcome.bind_eq_ok.mp before
      obtain ⟨_, -, broken⟩ := Outcome.bind_eq_ok.mp bounded
      obtain ⟨_, -, cors⟩ := Outcome.bind_eq_ok.mp broken
      obtain ⟨found, same, rest⟩ := Outcome.bind_eq_ok.mp cors
      rw [answered] at same
      cases same
      cases rest
      rw [arrived] at replied
      cases replied
      rfl
  rw [isReply]
  unfold Host.cors at answered
  rw [if_pos external, named] at answered
  dsimp only at answered
  split at answered
  next found permitted =>
    cases answered
    split at permitted
    · exact CorsPolicy.guarded_preflight permitted
    · cases permitted
  next =>
    obtain ⟨_, -, absent⟩ := Outcome.map_eq_ok.mp answered
    cases absent

/-- A cross-origin request can neither use the cookie where it is forged, nor is its response
open to an origin beyond the policy, exactly when the reply to it, where it is no preflight, is
not open beyond the policy before the host adds headers of its own. -/
theorem cross_origin_request_is_safe_iff {origin : Str} (external : msg.source = .external)
    (named : msg.header "origin" = some origin)
    (foreign : isSameOrigin origin (msg.header "host") = false) (loaded : Bool) :
    ((security.policy.isTrusted origin = false → CorsPolicy.isUnsafe msg = true →
        CookieUnused digest limits (host.secured security) services moment msg entries) ∧
      security.policy.Guarded origin (handle digest limits (host.secured security) services moment
        security.policy loaded msg entries).1) ↔
      ∀ reply policed, (host.secured security).cors msg = .ok none →
        replyTo digest limits (host.secured security) services moment msg entries =
            .ok (reply, policed) →
          security.policy.Guarded origin reply := by
  have unused := cookieUnused_of_unsafe digest limits host services moment security msg entries
    external named foreign
  rw [and_iff_right unused, guarded_handle_iff _ _ _ _ _ _ _ _ named]
  constructor
  · exact fun every reply policed _ => every reply policed
  · intro served reply policed replied
    cases checked : (host.secured security).cors msg with
    | error e =>
      obtain ⟨e', stopped⟩ := Host.arrive_of_cors_error _ checked
      unfold replyTo at replied
      rw [stopped] at replied
      cases replied
    | ok answer =>
      cases answer with
      | none => exact served reply policed checked replied
      | some preflight =>
        exact guarded_of_preflight digest limits host services moment security msg entries
          external named checked replied

end Claims

/-! ## An upstream that opens its responses -/

def upstreamMount : Mount where
  basePath := "/up"
  service := "proxy"
  config := Value.object [("access", .str "open")]

def upstreamHost : Host :=
  quietHost
    { mounts := [upstreamMount]
      normal := fun mount member => ⟨"/up", by
        rw [List.mem_singleton.mp member]
        decide +kernel⟩
      distinct := List.nodup_singleton _
      sorted := List.pairwise_singleton _ _ }

/-- A tenant that names no origins. -/
def closedSecurity : Security where
  policy := ⟨[], []⟩
  authenticators := [.auth "a"]
  digests := openDigests
  readClaims := fun _ => some sessionClaims
  now := 100

/-- A service whose responses have the given headers. -/
def upstream (headers : HeaderMap) : Services where
  serve := fun _ msg => .ok { msg.response 200 none with headers := headers }
  pipeline := fun _ => .answering fun msg => msg.response 200 none

/-- A post from an origin that nobody named. -/
def foreignPost : Message :=
  { Message.request .post "/up/x" "acme" "t" with
    headers := [("host", "api.acme.example"), ("origin", "https://other.example")] }

theorem plain_upstream_is_safe :
    CookieUnused (fun _ => "d") ⟨1, 1, none⟩ (upstreamHost.secured closedSecurity)
        (upstream []) ⟨0, 0, [], 0⟩ foreignPost .empty ∧
      closedSecurity.policy.Guarded "https://other.example" (handle (fun _ => "d") ⟨1, 1, none⟩
        (upstreamHost.secured closedSecurity) (upstream []) ⟨0, 0, [], 0⟩ closedSecurity.policy true
        foreignPost .empty).1 := by
  have named : foreignPost.header "origin" = some ("https://other.example" : Str) := by
    decide +kernel
  have safe := (cross_origin_request_is_safe_iff (fun _ => "d") ⟨1, 1, none⟩ upstreamHost
    (upstream []) ⟨0, 0, [], 0⟩ closedSecurity foreignPost .empty rfl named (by decide +kernel)
    true).mpr (by
      intro reply policed _ replied
      cases replied
      exact ⟨nofun, nofun⟩)
  exact ⟨safe.1 (by decide +kernel) (by decide +kernel), safe.2⟩

/-- The headers that an upstream sends are not taken away, though its tenant names no origins. -/
theorem upstream_opens_response_to_any_origin :
    foreignPost.source = .external ∧
      foreignPost.header "origin" = some ("https://other.example" : Str) ∧
      isSameOrigin "https://other.example" (foreignPost.header "host") = false ∧
      ¬ closedSecurity.policy.Guarded "https://other.example" (handle (fun _ => "d") ⟨1, 1, none⟩
        (upstreamHost.secured closedSecurity)
        (upstream [("access-control-allow-origin", "https://other.example"),
          ("access-control-allow-credentials", "true")]) ⟨0, 0, [], 0⟩ closedSecurity.policy true
        foreignPost .empty).1 := by
  decide +kernel

end Rs2Runtime.Runtime
