import Rs2Runtime.Runtime.Dispatch

/-!
Contract: session tokens of the authentication service.

Owns:
- the places of a request that a token is taken from, and the detection of the session cookie;
- verification of a token under a secret, and the principal its claims stand for;
- that a request without the session cookie is read the same whatever its cookies are.

Does not own: digests, the base64 alphabet and the reading of claims, which are parameters, or
logins.
-/

namespace Rs2Runtime.Services

open Text Data Json
open Rs2Runtime.Runtime (isWebsocketUpgrade)
open Data.Outcome (require)

/-- What a credential is checked with. -/
structure Digests where
  codec : Codec
  hmacSha512 : (key message : Octets) → Octets
  hmacSha256 : (key message : Octets) → Octets
  encode64 : Octets → Str
  decode64 : Str → Option Octets

/-- The claims that a token carries. -/
structure Claims where
  sub : Str
  roles : Str
  kind : Str
  iat : Nat
  exp : Nat
  extra : Object
  deriving DecidableEq

/-- The value that a step of a verification needs. -/
def orUnauthorized {α : Type} (detail : Str) : Option α → Except RsError α
  | some value => .ok value
  | none => .error (.unauthorized detail)

theorem orUnauthorized_eq_ok {α : Type} {detail : Str} {found : Option α} {value : α} :
    orUnauthorized detail found = .ok value ↔ found = some value := by
  cases found <;> simp [orUnauthorized]

section Verification

variable (digests : Digests) (readClaims : Octets → Option Claims)

/-- Verify the three parts of a token at a time, in seconds. -/
def verifyParts (now : Nat) (header payload sig secret : Str) : Except RsError Claims := do
  let octets ← orUnauthorized "malformed token header" (digests.decode64 header)
  let headerJson ← orUnauthorized "malformed token header" (digests.codec.parse octets)
  let _ ← require ((headerJson.get? "alg").bind Value.asStr = some ("HS512" : Str))
    (RsError.unauthorized "unsupported token algorithm")
  let sigBytes ← orUnauthorized "malformed signature" (digests.decode64 sig)
  let _ ← require (digests.hmacSha512 (utf8 secret) (utf8 (header ++ '.' :: payload)) = sigBytes)
    (RsError.unauthorized "invalid token signature")
  let octets ← orUnauthorized "malformed token payload" (digests.decode64 payload)
  let claims ← orUnauthorized "malformed token payload" (readClaims octets)
  let _ ← require (now ≤ claims.exp) (RsError.unauthorized "token expired")
  return claims

/-- Verify a token and return its claims. -/
def verify (now : Nat) (token secret : Str) : Except RsError Claims :=
  match token.splitOn '.' with
  | [header, payload, sig] => verifyParts digests readClaims now header payload sig secret
  | _ => .error (.unauthorized "malformed token")

/-- A verified token's principal and expiry. -/
def principalOf (claims : Claims) : Principal × Nat :=
  ({ id := claims.sub
     roles := words claims.roles
     kind := claims.kind
     extra := claims.extra }, claims.exp)

variable {digests readClaims}

/-- The claims of a verified token are those of its payload. -/
theorem payload_of_verifyParts {now : Nat} {header payload sig secret : Str} {claims : Claims}
    (verified : verifyParts digests readClaims now header payload sig secret = .ok claims) :
    (digests.decode64 payload).bind readClaims = some claims := by
  unfold verifyParts at verified
  obtain ⟨_, -, header⟩ := Outcome.bind_eq_ok.mp verified
  obtain ⟨_, -, algorithm⟩ := Outcome.bind_eq_ok.mp header
  obtain ⟨_, -, sig⟩ := Outcome.bind_eq_ok.mp algorithm
  obtain ⟨_, -, digest⟩ := Outcome.bind_eq_ok.mp sig
  obtain ⟨_, -, payload⟩ := Outcome.bind_eq_ok.mp digest
  obtain ⟨octets, decoded, reading⟩ := Outcome.bind_eq_ok.mp payload
  obtain ⟨found, read, last⟩ := Outcome.bind_eq_ok.mp reading
  obtain ⟨_, -, returned⟩ := Outcome.bind_eq_ok.mp last
  rw [orUnauthorized_eq_ok] at decoded read
  cases returned
  rw [decoded]
  exact read

/-- The claims of a token do not depend on the secret that it was verified with. -/
theorem verify_unique {now : Nat} {token secret secret' : Str} {claims claims' : Claims}
    (verified : verify digests readClaims now token secret = .ok claims)
    (verified' : verify digests readClaims now token secret' = .ok claims') : claims = claims' := by
  unfold verify at verified verified'
  split at verified
  next header payload sig parts =>
    rw [parts] at verified'
    have first := payload_of_verifyParts verified
    rw [payload_of_verifyParts verified'] at first
    exact (Option.some.inj first).symm
  next => cases verified

end Verification

/-! ## Where a token comes from -/

/-- The subprotocols that a client offered, in order. -/
def offeredSubprotocols (msg : Message) : List Str :=
  let lines := (msg.headers.filter fun line => line.1 = ("sec-websocket-protocol" : Str)).map Prod.snd
  (((lines.filter isVisibleAscii).flatMap (·.splitOn ',')).map trim).filter (· ≠ [])

def bearerSubprotocol : Str := "rs2.bearer."

/-- The value of a part of the cookies that is the session cookie. -/
def sessionCookie (part : Str) : Option Str :=
  (splitOnce "=" (trim part)).bind fun pair =>
    if pair.1 = "rs-auth" then some pair.2 else none

/-- The token of a request: in its authorization, the session cookie or, on an upgrade only, a
subprotocol. -/
def extractToken (msg : Message) : Option Str :=
  match (msg.header "authorization").bind (stripStart "Bearer ") with
  | some token => some (trim token)
  | none =>
    let cookie := (msg.header "cookie").bind fun cookies =>
      (cookies.splitOn ';').findSome? sessionCookie
    if cookie.isSome ∨ ¬ isWebsocketUpgrade msg then
      cookie
    else
      ((offeredSubprotocols msg).findSome? (stripStart bearerSubprotocol)).filter (· ≠ [])

/-- Whether a request carries the session cookie. -/
def hasAuthCookie (msg : Message) : Bool :=
  (msg.header "cookie").any fun cookies =>
    (cookies.splitOn ';').any fun part =>
      ("rs-auth=" : Str).isPrefixOf (part.dropWhile isWhitespace)

/-! ## Requests without cookies -/

/-- The request with its cookies taken away. -/
def withoutCookies (msg : Message) : Message :=
  { msg with headers := msg.headers.filter fun line => line.1 ≠ ("cookie" : Str) }

theorem header_withoutCookies {name : Str} (apart : name ≠ "cookie") (msg : Message) :
    (withoutCookies msg).header name = msg.header name := by
  have kept := OrderedMap.get?_filter_keys msg.headers (fun key => key ≠ ("cookie" : Str)) name
  unfold Message.header HeaderMap.first withoutCookies
  dsimp only
  rw [kept, if_pos (by simpa using apart)]

theorem header_cookie_withoutCookies (msg : Message) :
    (withoutCookies msg).header "cookie" = none := by
  have kept := OrderedMap.get?_filter_keys msg.headers (fun key => key ≠ ("cookie" : Str)) "cookie"
  unfold Message.header HeaderMap.first withoutCookies
  dsimp only
  rw [kept, if_neg (by simp)]
  rfl

theorem isWebsocketUpgrade_withoutCookies (msg : Message) :
    isWebsocketUpgrade (withoutCookies msg) = isWebsocketUpgrade msg := by
  unfold isWebsocketUpgrade
  rw [header_withoutCookies (by decide)]

theorem offeredSubprotocols_withoutCookies (msg : Message) :
    offeredSubprotocols (withoutCookies msg) = offeredSubprotocols msg := by
  have lines : (msg.headers.filter fun line => line.1 ≠ ("cookie" : Str)).filter
      (fun line => line.1 = ("sec-websocket-protocol" : Str)) =
        msg.headers.filter fun line => line.1 = ("sec-websocket-protocol" : Str) := by
    rw [List.filter_filter]
    apply List.filter_congr
    intro line _
    by_cases offered : line.1 = ("sec-websocket-protocol" : Str)
    · have apart : line.1 ≠ ("cookie" : Str) := by
        rw [offered]
        decide
      rw [decide_eq_true offered, decide_eq_true apart]
      rfl
    · rw [decide_eq_false offered, Bool.false_and]
  unfold offeredSubprotocols withoutCookies
  dsimp only
  rw [lines]

/-- What is read as the session cookie is seen as one. -/
theorem starts_of_sessionCookie {part value : Str} (found : sessionCookie part = some value) :
    ("rs-auth=" : Str) <+: part.dropWhile isWhitespace := by
  obtain ⟨pair, split, named⟩ := Option.bind_eq_some_iff.mp found
  split at named
  next name =>
    have whole : trim part = ("rs-auth=" : Str) ++ pair.2 := by
      rw [splitOnce_append split, name]
      rfl
    have trimmed : trim part <+: part.dropWhile isWhitespace := List.rdropWhile_prefix _ _
    exact (whole ▸ List.prefix_append _ _ : ("rs-auth=" : Str) <+: trim part).trans trimmed
  next => cases named

/-- Without the session cookie no part of the cookies is taken for a token. -/
theorem sessionCookie_eq_none {msg : Message} (absent : hasAuthCookie msg = false) :
    ((msg.header "cookie").bind fun cookies => (cookies.splitOn ';').findSome? sessionCookie) =
      none := by
  unfold hasAuthCookie at absent
  cases present : msg.header "cookie" with
  | none => rfl
  | some cookies =>
    rw [present] at absent
    show (cookies.splitOn ';').findSome? sessionCookie = none
    rw [List.findSome?_eq_none_iff]
    intro part member
    have unseen : ¬ ("rs-auth=" : Str) <+: part.dropWhile isWhitespace := by
      intro starts
      have seen : ((cookies.splitOn ';').any fun part =>
          ("rs-auth=" : Str).isPrefixOf (part.dropWhile isWhitespace)) = true :=
        List.any_eq_true.mpr ⟨part, member, List.isPrefixOf_iff_prefix.mpr starts⟩
      rw [Option.any_some, seen] at absent
      cases absent
    cases found : sessionCookie part with
    | none => rfl
    | some value => exact absurd (starts_of_sessionCookie found) unseen

/-- A request without the session cookie has the same token as the request without cookies. -/
theorem extractToken_withoutCookies {msg : Message} (absent : hasAuthCookie msg = false) :
    extractToken (withoutCookies msg) = extractToken msg := by
  unfold extractToken
  rw [header_withoutCookies (by decide), header_cookie_withoutCookies, sessionCookie_eq_none absent,
    isWebsocketUpgrade_withoutCookies, offeredSubprotocols_withoutCookies]
  rfl

end Rs2Runtime.Services
