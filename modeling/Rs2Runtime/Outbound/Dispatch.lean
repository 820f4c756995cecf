import Rs2Runtime.Message.Basic
import Rs2Runtime.Text.WebUrl

/-!
Contract: the gate in front of every outbound HTTP call.

Owns:
- the host a call URL is checked under, and the classification of a URL as external;
- allowlist patterns and `httpOut` grants;
- the grant check of a pipeline call and of a guest call;
- the URL the outbound adapter sends and the hosts it connects to.

Does not own: credential injection, default headers, or the HTTP client's host parser and its
redirects, which are parameters.
-/

namespace Rs2Runtime.Outbound

open Text Data Json

/-! ## Reading a call URL -/

/-- The host of an absolute URL, in lower case. -/
def urlHost (url : Str) : Option Str :=
  (splitOnce "://" url).bind fun parts =>
    let authority := parts.2.takeWhile fun c => !(c == '/' || c == '?' || c == '#')
    let host := (authority.rtakeWhile (· ≠ '@')).takeWhile (· ≠ ':')
    if host = [] then none else some (toAsciiLowercase host)

/-- Whether a URL starts with `start`, ignoring ASCII case.  The slice is taken by octets:
none is the panic on an index inside a character. -/
def lowerStarts (url start : Str) : Option Bool :=
  if utf8Len start ≤ utf8Len url then
    (sliceTo url (utf8Len start)).map fun slice => toAsciiLowercase slice = start
  else
    some false

/-- Whether a resolved call URL leaves the node; none is a panic. -/
def isExternalUrl (url : Str) : Option Bool :=
  (lowerStarts url "http://").bind fun plain =>
    if plain then some true else lowerStarts url "https://"

/-- Allowlist matching: an exact host or a `*.suffix` wildcard. -/
def hostMatches (pattern host : Str) : Bool :=
  let pattern := toAsciiLowercase pattern
  match stripStart "*." pattern with
  | some suffix => host = suffix || ('.' :: suffix).isSuffixOf host
  | none => host = pattern

/-! ## Grants -/

/-- One `httpOut` grant: its name and allowed hosts. -/
structure HostGrant where
  name : Str
  hosts : List Str
  deriving DecidableEq, Repr

/-- The union of a mount's grants, and whether the node has an outbound adapter. -/
structure ExternalDispatch where
  hasAdapter : Bool
  grants : List HostGrant
  deriving DecidableEq, Repr

/-- Whether a grant allows a host. -/
def HostGrant.allows (grant : HostGrant) (host : Str) : Bool :=
  grant.hosts.any fun pattern => hostMatches pattern host

/-- The allowlist check of an absolute URL: the index of the first grant that allows it. -/
def ExternalDispatch.authorize (dispatch : ExternalDispatch) (url : Str) :
    Except RsError Nat :=
  match urlHost url with
  | none =>
    .error (.badRequest
      (("outbound call needs an absolute URL, got '" : Str) ++ url ++ ("'" : Str)))
  | some host =>
    match dispatch.grants.findIdx? (·.allows host) with
    | none =>
      .error (.capabilityDenied
        (("httpOut to '" : Str) ++ host ++ ("' (this mount's httpOut grants allow: " : Str) ++
          join ", " (dispatch.grants.flatMap HostGrant.hosts) ++ (")" : Str)))
    | some grant =>
      if dispatch.hasAdapter then
        .ok grant
      else
        .error (.engineUnavailable
          "this deployment has no outbound HTTP adapter configured")

/-- The grant check of a guest's outbound call. -/
def guestAuthorize (hosts : List Str) (url : MsgUrl) : Except RsError Unit :=
  match urlHost url.path with
  | none =>
    .error (.badRequest
      (("outbound call needs an absolute URL, got '" : Str) ++ url.path ++ ("'" : Str)))
  | some host =>
    if hosts.any fun pattern => hostMatches pattern host then
      .ok ()
    else
      .error (.capabilityDenied (("httpOut to '" : Str) ++ host ++ ("'" : Str)))

/-! ## What the adapter sends -/

/-- The URL the adapter hands to the transport. -/
def adapterUrl (url : MsgUrl) : Str :=
  if url.query = [] then url.path else url.path ++ '?' :: url.query

/-- The host the transport connects to first for a call URL; none when the adapter or the
transport refuses the URL. -/
def contactedHost (parseHost : Str → Option Str) (url : Str) : Option Str :=
  let sent := adapterUrl (MsgUrl.parse url)
  if ("http://" : Str) <+: sent ∨ ("https://" : Str) <+: sent then
    WebUrl.host parseHost sent
  else
    none

/-- An HTTP client: its host parser, the URL that the answer to a request for a URL sends it on
to, and the number of redirects that it follows.  The adapter leaves that number at the client's
own default. -/
structure Transport where
  parseHost : Str → Option Str
  redirect : Str → Option Str
  redirects : Nat

/-- The hosts of the redirects that are followed after a request. -/
def redirectHosts (transport : Transport) : Nat → Str → List Str
  | 0, _ => []
  | left + 1, url =>
    match transport.redirect url with
    | none => []
    | some next =>
      match WebUrl.host transport.parseHost next with
      | none => []
      | some host => host :: redirectHosts transport left next

/-- Every host that is connected to for a call URL: that of the request, then those of its
redirects. -/
def contactedHosts (transport : Transport) (url : Str) : List Str :=
  match contactedHost transport.parseHost url with
  | none => []
  | some host =>
    host :: redirectHosts transport transport.redirects (adapterUrl (MsgUrl.parse url))

end Rs2Runtime.Outbound
