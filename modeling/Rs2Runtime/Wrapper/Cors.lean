import Rs2Runtime.Runtime.Dispatch
import Rs2Runtime.Message.Headers

/-!
Contract: the cross-origin policy of a tenant.

Owns:
- when an origin matches a pattern, and when it is the request's own;
- the response headers for permitted origins, and the answer to a preflight;
- the guard against forged requests with ambient credentials;
- which of the headers that open a response each of these adds.
-/

namespace Rs2Runtime.Wrapper

open Text Data
open Rs2Runtime.Runtime (isWebsocketUpgrade)

/-- Trusted origins get credentialed, allowed ones plain access. -/
structure CorsPolicy where
  trustedOrigins : List Str
  allowedOrigins : List Str

def exposedHeaders : Str :=
  "etag, location, link, x-total-count, x-trace-id, idempotency-replayed, retry-after"

/-- What follows the scheme of an origin. -/
def hostPort (origin : Str) : Str :=
  ((splitOnce "://" origin).map Prod.snd).getD origin

/-- Match an origin against a pattern: any, a full origin, a host, or the end of one. -/
def originMatches (pattern origin : Str) : Bool :=
  let pattern := toAsciiLowercase pattern
  let origin := toAsciiLowercase origin
  if pattern = "*" then
    true
  else if contains "://" pattern then
    pattern.rdropWhile (· = '/') = origin.rdropWhile (· = '/')
  else
    let host := (hostPort origin).takeWhile (· ≠ ':')
    match stripStart "*." pattern with
    | some suffix => host = suffix ∨ ('.' :: suffix) <:+ host
    | none => if ':' ∈ pattern then hostPort origin = pattern else host = pattern

/-- Whether an origin names the host that the request was sent to. -/
def isSameOrigin (origin : Str) (requestHost : Option Str) : Bool :=
  requestHost.any fun host => toAsciiLowercase (hostPort origin) = toAsciiLowercase (trim host)

namespace CorsPolicy

variable (policy : CorsPolicy)

def isTrusted (origin : Str) : Bool :=
  policy.trustedOrigins.any fun pattern => originMatches pattern origin

def isAllowed (origin : Str) : Bool :=
  policy.isTrusted origin || policy.allowedOrigins.any fun pattern => originMatches pattern origin

/-- Mark a response as open to credentials, for trusted origins only. -/
def allowCredentials (origin : Str) (resp : Message) : Message :=
  if policy.isTrusted origin then resp.setHeader "access-control-allow-credentials" "true" else resp

/-- Add the headers for a permitted cross-origin caller. -/
def decorate (resp : Message) (origin : Str) (requestHost : Option Str) : Message :=
  if isSameOrigin origin requestHost ∨ ¬ policy.isAllowed origin then
    resp
  else
    policy.allowCredentials origin
      ((appendHeaderValue (resp.setHeader "access-control-allow-origin" origin) "vary"
        "origin").setHeader "access-control-expose-headers" exposedHeaders)

/-- Answer a preflight from a permitted origin. -/
def preflight (msg : Message) (origin : Str) (requestHost : Option Str) : Option Message :=
  if isSameOrigin origin requestHost ∨ ¬ policy.isAllowed origin then
    none
  else
    (msg.header "access-control-request-method").map fun requestedMethod =>
      let resp := appendHeaderValue
        ((msg.response 204 none).setHeader "access-control-allow-origin" origin) "vary" "origin"
      let allowHeaders := (msg.header "access-control-request-headers").getD
        "authorization, content-type, idempotency-key, if-match"
      policy.allowCredentials origin
        (((resp.setHeader "access-control-allow-methods" requestedMethod).setHeader
          "access-control-allow-headers" allowHeaders).setHeader "access-control-max-age" "86400")

/-- Whether a method needs the guard, or the request is an upgrade. -/
def isUnsafe (msg : Message) : Bool :=
  (msg.method ≠ .get && msg.method ≠ .head && msg.method ≠ .options) || isWebsocketUpgrade msg

/-- Refuse unsafe requests from untrusted origins that carry an ambient credential. -/
def checkAmbientCsrf (msg : Message) (origin : Str) (requestHost : Option Str)
    (ambientCredential : Bool) : Except RsError Unit :=
  if isSameOrigin origin requestHost ∨ policy.isTrusted origin then
    .ok ()
  else if isUnsafe msg ∧ ambientCredential then
    .error (.forbidden (("cookie-authenticated cross-origin request from untrusted origin '" : Str) ++
      origin ++ ("' (add it to cors.trustedOrigins, or use a bearer token)" : Str)))
  else
    .ok ()

end CorsPolicy

/-! ## Which headers are there -/

/-- Whether a response has a header. -/
def Carries (resp : Message) (name : Str) : Prop :=
  (resp.headers.first name).isSome = true

instance (resp : Message) (name : Str) : Decidable (Carries resp name) :=
  inferInstanceAs (Decidable (_ = true))

variable {name : Str}

theorem carries_setHeader_of_ne {other : Str} (different : other ≠ name) (resp : Message)
    (value : Str) : Carries (resp.setHeader name value) other ↔ Carries resp other := by
  unfold Carries
  rw [first_setHeader, if_neg fun both => different both.1]

theorem carries_appendHeaderValue_of_ne {other : Str} (different : other ≠ name) (resp : Message)
    (value : Str) :
    Carries (appendHeaderValue resp name value) other ↔ Carries resp other := by
  unfold appendHeaderValue
  cases resp.header name with
  | none => exact carries_setHeader_of_ne different resp value
  | some existing =>
    dsimp only
    split_ifs
    · exact carries_setHeader_of_ne different resp value
    · exact Iff.rfl
    · exact carries_setHeader_of_ne different resp _

namespace CorsPolicy

variable (policy : CorsPolicy)

/-- A response to an origin that is open to credentials only if the origin is trusted, and open
to the origin only if that is allowed. -/
def Guarded (origin : Str) (resp : Message) : Prop :=
  (Carries resp "access-control-allow-credentials" → policy.isTrusted origin = true) ∧
    (Carries resp "access-control-allow-origin" → policy.isAllowed origin = true)

instance (origin : Str) (resp : Message) : Decidable (policy.Guarded origin resp) :=
  inferInstanceAs (Decidable (_ ∧ _))

variable {policy}

variable {origin : Str}

/-- For an allowed origin only the header for credentials matters. -/
theorem guarded_of_allowed_iff (allowed : policy.isAllowed origin = true) (resp : Message) :
    policy.Guarded origin resp ↔
      (Carries resp "access-control-allow-credentials" → policy.isTrusted origin = true) :=
  and_iff_left fun _ => allowed

/-- Marking a response for trusted origins opens it to no other ones. -/
theorem guarded_allowCredentials_iff (allowed : policy.isAllowed origin = true) (resp : Message) :
    policy.Guarded origin (policy.allowCredentials origin resp) ↔ policy.Guarded origin resp := by
  unfold allowCredentials
  by_cases trusted : policy.isTrusted origin = true
  · rw [guarded_of_allowed_iff allowed, guarded_of_allowed_iff allowed]
    exact iff_of_true (fun _ => trusted) fun _ => trusted
  · rw [if_neg trusted]

/-- A header other than the two that open a response is added to no effect. -/
theorem guarded_setHeader_iff (apartCredentials : ("access-control-allow-credentials" : Str) ≠ name)
    (apartOrigin : ("access-control-allow-origin" : Str) ≠ name) (origin : Str) (resp : Message)
    (value : Str) :
    policy.Guarded origin (resp.setHeader name value) ↔ policy.Guarded origin resp := by
  unfold Guarded
  rw [carries_setHeader_of_ne apartCredentials, carries_setHeader_of_ne apartOrigin]

theorem guarded_appendHeaderValue_iff
    (apartCredentials : ("access-control-allow-credentials" : Str) ≠ name)
    (apartOrigin : ("access-control-allow-origin" : Str) ≠ name) (origin : Str) (resp : Message)
    (value : Str) :
    policy.Guarded origin (appendHeaderValue resp name value) ↔ policy.Guarded origin resp := by
  unfold Guarded
  rw [carries_appendHeaderValue_of_ne apartCredentials,
    carries_appendHeaderValue_of_ne apartOrigin]

theorem guarded_allowOrigin_iff (allowed : policy.isAllowed origin = true) (resp : Message)
    (value : Str) :
    policy.Guarded origin (resp.setHeader "access-control-allow-origin" value) ↔
      policy.Guarded origin resp := by
  rw [guarded_of_allowed_iff allowed, guarded_of_allowed_iff allowed,
    carries_setHeader_of_ne (by decide)]

/-- Decoration opens a response no further than the policy allows, and takes nothing back. -/
theorem guarded_decorate_iff (origin : Str) (requestHost : Option Str) (resp : Message) :
    policy.Guarded origin (policy.decorate resp origin requestHost) ↔
      policy.Guarded origin resp := by
  unfold decorate
  split
  · exact Iff.rfl
  next permitted =>
    have allowed : policy.isAllowed origin = true := not_not.mp (not_or.mp permitted).2
    rw [guarded_allowCredentials_iff allowed, guarded_setHeader_iff (by decide) (by decide),
      guarded_appendHeaderValue_iff (by decide) (by decide), guarded_allowOrigin_iff allowed]

/-- A preflight is answered within the policy. -/
theorem guarded_preflight {msg answer : Message} {requestHost : Option Str}
    (answered : policy.preflight msg origin requestHost = some answer) :
    policy.Guarded origin answer := by
  unfold preflight at answered
  split at answered
  · cases answered
  next permitted =>
    have allowed : policy.isAllowed origin = true := not_not.mp (not_or.mp permitted).2
    obtain ⟨requested, -, rfl⟩ := Option.map_eq_some_iff.mp answered
    rw [guarded_allowCredentials_iff allowed, guarded_setHeader_iff (by decide) (by decide),
      guarded_setHeader_iff (by decide) (by decide), guarded_setHeader_iff (by decide) (by decide),
      guarded_appendHeaderValue_iff (by decide) (by decide), guarded_allowOrigin_iff allowed]
    exact ⟨nofun, nofun⟩

end CorsPolicy

end Rs2Runtime.Wrapper
