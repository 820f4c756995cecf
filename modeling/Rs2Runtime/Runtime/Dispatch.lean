import Rs2Runtime.Guest.Sockets
import Rs2Runtime.Idempotency.Store
import Rs2Runtime.Router.Path
import Rs2Runtime.Services.PipelineService

/-!
Contract: the way of a request through the host, from its arrival to its answer.

Owns:
- the checks before a service is reached, in their order, and what the host answers itself;
- invocation of the service, around which keyed requests are deduplicated and replayed;
- what of a request is unchanged when it arrives at its mount.

Does not own: credentials, cross-origin rules, discovery, sockets, limits or the services other
than that of pipelines; they are parameters.
-/

namespace Rs2Runtime.Runtime

open Text Data Json Wrapper Router
open Guest Idempotency Rs2Runtime.Services
open Data.Outcome (require)

/-- A node as it serves one tenant at one moment. -/
structure Host where
  codec : Codec
  maxDepth : Nat
  /-- The tenant's circuit breaker. -/
  breaker : Except RsError Unit
  preflight : Message → (origin : Str) → (requestHost : Option Str) → Option Message
  checkAmbientCsrf : Message → (origin : Str) → (requestHost : Option Str) → Except RsError Unit
  /-- The chain of authenticators: the principal of a credential, none without one. -/
  authenticate : Message → Except RsError (Option Principal)
  discovery : Message → Except RsError Message
  mounts : MountTable
  describe : Message → Mount → Message
  /-- Whether the node has a registry of sockets. -/
  sockets : Bool
  acceptUpgrade : Message → Mount → WebSocketConfig → Except RsError Message
  handleSockets : Message → Mount → Except RsError Message
  /-- Admission under the tenant's concurrency limit. -/
  limiter : Except RsError Unit
  pipelines : Mount → PipelineService.StoredPipelines
  /-- The caching policy of a mount, applied to a successful response. -/
  cachePolicy : Mount → Message → Message

/-! ## Arrival -/

/-- What becomes of a request before a service is invoked. -/
inductive Arrival where
  | answered (response : Message)
  | routed (msg : Message) (mount : Mount)
  deriving DecidableEq

def isDiscoveryPath (path : Str) : Bool :=
  ("/.well-known/rs2/" : Str).isPrefixOf path

def isWebsocketUpgrade (msg : Message) : Bool :=
  (msg.header "upgrade").any fun upgrade => toAsciiLowercase (trim upgrade) = "websocket"

def absoluteCap : Nat := 10 * 1024 * 1024 * 1024

/-- Reject sizes beyond any plausible handling. -/
def checkDeclaredBodySize (msg : Message) : Except RsError Unit :=
  match msg.body.bind Body.size with
  | some size =>
    require (size ≤ absoluteCap) (RsError.limitExceeded "request_body_bytes"
      (RsError.natValue size) (RsError.natValue absoluteCap))
  | none => .ok ()

namespace Host

variable (host : Host)

/-- Cross-origin rules for external requests: a permitted preflight is answered, and a forged
request refused. -/
def cors (msg : Message) : Except RsError (Option Message) :=
  if msg.source = .external then
    match msg.header "origin" with
    | none => .ok none
    | some origin =>
      let answer :=
        if msg.method = .options then host.preflight msg origin (msg.header "host") else none
      match answer with
      | some preflight => .ok (some preflight)
      | none => (host.checkAmbientCsrf msg origin (msg.header "host")).map fun _ => none
  else
    .ok none

def authenticated (msg : Message) : Except RsError Message :=
  if msg.principal.isNone then
    (host.authenticate msg).map fun principal => { msg with principal := principal }
  else
    .ok msg

/-- What the host answers for a mount: capability probes, upgrades and the reserved subtree of
sockets. -/
def answerForMount (msg : Message) (mount : Mount) : Except RsError (Option Message) :=
  if msg.method = .options then
    .ok (some (host.describe msg mount))
  else
    match webSocketConfigOf host.codec mount.config mount.service with
    | none => .ok none
    | some config =>
      if msg.source = .external ∧ msg.method = .get ∧ isWebsocketUpgrade msg ∧ host.sockets then do
        let _ ← if mount.service = "pipeline" then checkMountAccess msg mount .read else .ok ()
        (host.acceptUpgrade msg mount config).map some
      else if msg.url.serviceSegments.head? = some (".sockets" : Str) then do
        let _ ← if msg.method ≠ .get ∧ msg.method ≠ .head then
            checkMountAccess msg mount .write
          else
            .ok ()
        (host.handleSockets msg mount).map some
      else
        .ok none

/-- The way of an authenticated request to its mount. -/
def routeToMount (msg : Message) : Except RsError Arrival :=
  match host.mounts.route msg.url.path with
  | none =>
    .error (.notFound (("no service mounted at '" : Str) ++ msg.url.path ++ ("'" : Str)))
  | some mount => do
      let _ ← checkAccess { msg with url := msg.url.applyMount mount.basePath } mount
      match ← host.answerForMount { msg with url := msg.url.applyMount mount.basePath } mount with
      | some response => return .answered response
      | none =>
        let _ ← checkDeclaredBodySize msg
        let _ ← host.limiter
        return .routed { msg with url := msg.url.applyMount mount.basePath } mount

def arrive (msg : Message) : Except RsError Arrival := do
  let _ ← validatePath msg.url.path
  let _ ← require (msg.depth ≤ host.maxDepth) (RsError.limitExceeded "call_depth"
    (RsError.natValue msg.depth) (RsError.natValue host.maxDepth))
  let _ ← host.breaker
  match ← host.cors msg with
  | some preflight => return .answered preflight
  | none =>
    let msg ← host.authenticated msg
    if isDiscoveryPath msg.url.path then
      (host.discovery msg).map .answered
    else
      host.routeToMount msg

end Host

/-! ## Invocation -/

/-- What the services of a tenant do. -/
structure Services where
  serve : Mount → Message → Except RsError Message
  pipeline : Mount → PipelineService.Handlers

def invoke (host : Host) (services : Services) (mount : Mount) (msg : Message) :
    Except RsError Message :=
  if mount.service = "pipeline" then
    PipelineService.handle (host.pipelines mount) (services.pipeline mount) mount.config msg
  else
    services.serve mount msg

/-- The longest key that is taken. -/
def maxKeyLen : Nat := 256

/-- Keys are scoped by tenant, mount, method and path. -/
def scopeFor (msg : Message) (mountBase : Str) : Str :=
  msg.tenant ++ '|' :: mountBase ++ '|' :: msg.method.name ++ '|' :: msg.url.path

/-- The digest of a payload in memory; none for streams. -/
def payloadHash (digest : Octets → Str) (msg : Message) : Option Str :=
  match msg.body with
  | some body =>
    match body.payload with
    | .bytes octets => some (digest octets)
    | .stream _ => none
  | none => some "empty"

/-- When the store of keys is asked, with what only it knows, and when a response is recorded. -/
structure Moment where
  now : Nat
  count : Nat
  order : List Nat
  settled : Nat

def stillExecuting : RsError :=
  { RsError.conflict "a request with this Idempotency-Key is still executing" with
    retryable := true
    retryAfterMs := some 1000 }

section Dispatch

variable (digest : Octets → Str) (limits : Limits) (host : Host) (services : Services)
  (moment : Moment)

/-- Register the key of a request. -/
def beginFor (slot : Slot) (msg : Message) (entries : Entries) : Begin × Entries :=
  beginKey limits moment.now moment.count moment.order slot (payloadHash digest msg) entries

/-- Serve a request that carries a key. -/
def invokeKeyed (mount : Mount) (msg : Message) (key : Str) (entries : Entries) :
    Except RsError Message × Entries :=
  if maxKeyLen < utf8Len key then
    (.error (.badRequest "Idempotency-Key exceeds 256 characters"), entries)
  else
    let slot := (scopeFor msg mount.basePath, key)
    let begun := beginFor digest limits moment slot msg entries
    match begun.1 with
    | .replay stored => (.ok (stored.intoMessage msg), begun.2)
    | .inFlight => (.error stillExecuting, begun.2)
    | .payloadMismatch =>
      (.error (.idempotencyKeyReuse
        "Idempotency-Key was already used with a different request payload"), begun.2)
    | .fresh =>
      let settled := settleFresh (invoke host services mount msg)
      (settled.1, settle moment.settled slot settled.2 begun.2)

/-- A request from its arrival to its answer, with the entries of the store of keys. -/
def dispatch (msg : Message) (entries : Entries) : Except RsError Message × Entries :=
  match host.arrive msg with
  | .error e => (.error e, entries)
  | .ok (.answered response) => (.ok response, entries)
  | .ok (.routed msg mount) =>
    let served :=
      match msg.header "idempotency-key" with
      | some key => invokeKeyed digest limits host services moment mount msg key entries
      | none => (invoke host services mount msg, entries)
    (served.1.map fun resp => if resp.isOk then host.cachePolicy mount resp else resp, served.2)

end Dispatch

/-! ## What arrives -/

variable {msg arrived : Message} {mount : Mount}

theorem Host.authenticated_eq_ok {host : Host} {checked : Message}
    (done : host.authenticated msg = .ok checked) :
    ∃ principal, checked = { msg with principal := principal } := by
  unfold Host.authenticated at done
  split at done
  · obtain ⟨principal, -, rfl⟩ := Outcome.map_eq_ok.mp done
    exact ⟨principal, rfl⟩
  · cases done
    exact ⟨msg.principal, rfl⟩

theorem Host.routeToMount_eq_ok {host : Host}
    (done : host.routeToMount msg = .ok (.routed arrived mount)) :
    host.mounts.route msg.url.path = some mount ∧
      arrived = { msg with url := msg.url.applyMount mount.basePath } ∧
      checkAccess arrived mount = .ok () := by
  unfold Host.routeToMount at done
  split at done
  · cases done
  next found routed =>
    obtain ⟨_, passed, rest⟩ := Outcome.bind_eq_ok.mp done
    obtain ⟨answer, -, last⟩ := Outcome.bind_eq_ok.mp rest
    cases answer with
    | some response => cases last
    | none =>
      obtain ⟨_, -, limited⟩ := Outcome.bind_eq_ok.mp last
      obtain ⟨_, -, finished⟩ := Outcome.bind_eq_ok.mp limited
      cases finished
      exact ⟨routed, rfl, passed⟩

/-- What arrives at a mount was routed there with its caller known. -/
theorem Host.routeToMount_of_arrive {host : Host}
    (done : host.arrive msg = .ok (.routed arrived mount)) :
    ∃ principal,
      host.routeToMount { msg with principal := principal } = .ok (.routed arrived mount) := by
  unfold Host.arrive at done
  obtain ⟨_, -, bounded⟩ := Outcome.bind_eq_ok.mp done
  obtain ⟨_, -, broken⟩ := Outcome.bind_eq_ok.mp bounded
  obtain ⟨_, -, origin⟩ := Outcome.bind_eq_ok.mp broken
  obtain ⟨preflight, -, rest⟩ := Outcome.bind_eq_ok.mp origin
  cases preflight with
  | some response => cases rest
  | none =>
    obtain ⟨checked, authenticated, routed⟩ := Outcome.bind_eq_ok.mp rest
    obtain ⟨principal, rfl⟩ := authenticated_eq_ok authenticated
    split at routed
    · obtain ⟨response, -, answered⟩ := Outcome.map_eq_ok.mp routed
      cases answered
    · exact ⟨principal, routed⟩

/-- A request arrives at its mount with its caller known and its path split, let through by the
host's check, and otherwise as it was. -/
theorem Host.arrive_eq_routed {host : Host} (done : host.arrive msg = .ok (.routed arrived mount)) :
    (∃ principal, arrived =
      { msg with principal := principal, url := msg.url.applyMount mount.basePath }) ∧
      checkAccess arrived mount = .ok () := by
  obtain ⟨principal, routed⟩ := routeToMount_of_arrive done
  obtain ⟨-, same, passed⟩ := routeToMount_eq_ok routed
  exact ⟨⟨principal, same⟩, passed⟩

/-- A request arrives at the mount its path is routed to. -/
theorem Host.arrive_route {host : Host} (done : host.arrive msg = .ok (.routed arrived mount)) :
    host.mounts.route msg.url.path = some mount := by
  obtain ⟨principal, routed⟩ := routeToMount_of_arrive done
  exact (routeToMount_eq_ok routed).1

/-- A host that lets everything through to its mounts. -/
def quietHost (mounts : MountTable) : Host where
  codec := Tagged.codec
  maxDepth := 16
  breaker := .ok ()
  preflight := fun _ _ _ => none
  checkAmbientCsrf := fun _ _ _ => .ok ()
  authenticate := fun _ => .ok none
  discovery := fun _ => .error (.notFound "no discovery")
  mounts := mounts
  describe := fun msg _ => msg.noContent
  sockets := false
  acceptUpgrade := fun _ _ _ => .error (.internal "no sockets")
  handleSockets := fun _ _ => .error (.internal "no sockets")
  limiter := .ok ()
  pipelines := fun _ => ⟨fun _ => none, fun _ => .error "no pipelines"⟩
  cachePolicy := fun _ resp => resp

end Rs2Runtime.Runtime
