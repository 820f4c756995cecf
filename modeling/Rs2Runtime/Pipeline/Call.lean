import Rs2Runtime.Data.Outcome
import Rs2Runtime.Pipeline.Place

/-!
Contract: call and transform steps, the leaves of a pipeline execution.

Owns:
- body snapshots and copies, and the values of results;
- the interpolation context of a call;
- the requests of a call: target, headers, principal, body and idempotency key;
- what a response, a capture or a transform leaves on the message in flight.
-/

namespace Rs2Runtime.Pipeline

open Text Data Data.Outcome Json

/-! ## Bodies -/

/-- Copy a body in memory; none for a stream. -/
def cloneBody (body : Body) : Option Body :=
  match body.payload with
  | .bytes octets => some (Body.fromBytes octets body.mediaType)
  | .stream _ => none

def cloneWithBody (msg : Message) (body : Option Body) : Message :=
  { msg with body := body }

/-- Copy a message whose body is in memory. -/
def tryClone (msg : Message) : Option Message :=
  match msg.body with
  | none => some msg
  | some body => (cloneBody body).map fun copy => cloneWithBody msg (some copy)

variable (executor : Executor) (world : World)

def materializeIfNeeded (msg : Message) : Except RsError Message :=
  match msg.body with
  | none => .ok msg
  | some body =>
    if body.isStream then
      (body.materialize executor.limits.materializeCap).map fun read =>
        cloneWithBody msg (some read.2)
    else
      .ok msg

/-- The body at a segment boundary, with the message it leaves; none when it cannot be
restored. -/
def snapshotBody (msg : Message) : Except RsError (Option (Option Body) × Message) :=
  match msg.body with
  | none => .ok (some none, msg)
  | some body =>
    if body.isStream then
      match body.size with
      | some size =>
        if size ≤ executor.limits.snapshotThreshold then
          (body.materialize executor.limits.materializeCap).map fun read =>
            ((cloneBody read.2).map some, cloneWithBody msg (some read.2))
        else
          .ok (none, msg)
      | none => .ok (none, msg)
    else
      .ok ((cloneBody body).map some, msg)

/-- The text of a body, empty where it cannot be read. -/
def bodyText (msg : Message) : Str :=
  match msg.body with
  | none => []
  | some body =>
    match body.materialize executor.limits.materializeCap with
    | .ok read => fromUtf8Lossy read.1
    | .error _ => []

/-- A failed result as a value. -/
def errorValue (msg : Message) : Value :=
  .object [
    ("_errorStatus", RsError.natValue (msg.status.getD 500)),
    ("_errorMessage", .str (bodyText executor msg))]

/-- A result as a value, for captures and joins. -/
def resultValue (msg : Message) : Except RsError Value :=
  if msg.isOk then
    match msg.body with
    | none => .ok .null
    | some body => (body.asAny world.codec executor.limits.materializeCap).map Prod.fst
  else
    .ok (errorValue executor msg)

/-- The object of named results, inserted in order; its members are in the order of the build. -/
def joinObject (named : List (Str × Message)) : Except RsError Object := do
  let members ← named.mapM fun leg =>
    (resultValue executor world leg.2).map fun value => (leg.1, value)
  return world.memberOrder.members members

/-- Join named results into one JSON object. -/
def join (named : List (Str × Message)) (template : Message) : Except RsError Message := do
  let fields ← joinObject executor world named
  return template.okJson world.codec (.obj fields)

/-- The variable an `as` names. -/
def captureName (capture : Str) : Str :=
  capture.dropWhile (· = '$')

/-! ## The interpolation context -/

/-- Raw query pairs; a later pair wins. -/
def queryData (msg : Message) : Object :=
  OrderedMap.ofList (((msg.url.query.splitOn '&').filter (· ≠ [])).map fun pair =>
    ((MsgUrl.queryPair pair).1, Value.str (MsgUrl.queryPair pair).2))

/-- The fields of a JSON object body in memory. -/
def bodyData (msg : Message) : Object :=
  match msg.body with
  | none => []
  | some body =>
    if body.mediaType.isJson && !body.isStream then
      match body.asJson world.codec executor.limits.materializeCap with
      | .ok (.obj fields, _) => fields
      | _ => []
    else
      []

/-- What a request supplies: its query, then the fields of its body. -/
def requestData (msg : Message) : Object :=
  OrderedMap.extend (queryData msg) (bodyData executor world msg)

/-- The context of placeholders: request data, then variables. -/
def interpolationContext (msg : Message) (vars : Object) : Object :=
  OrderedMap.extend (requestData executor world msg) vars

/-! ## Requests -/

/-- The key of a call: a hash of the invocation and the key path. -/
def deriveKey (invocationId keyPath : Str) : Str :=
  toHex (world.sha256 (utf8 invocationId ++ [0] ++ utf8 keyPath))

/-- Where a call goes. -/
inductive CallTarget where
  | internal
  | external (grant : Nat)
  deriving DecidableEq, Repr

/-- Whether a URL leaves the node; the classification may panic. -/
def classify (url : Str) : Exec Bool :=
  match Outbound.isExternalUrl url with
  | some isExternal => pure isExternal
  | none => Traced.fail .panicked

def chooseTarget (isExternal : Bool) (url : Str) : Except RsError CallTarget :=
  if isExternal then
    match executor.external with
    | some dispatch => (dispatch.authorize url).map .external
    | none =>
      .error (.capabilityDenied
        (("httpOut to '" : Str) ++ (Outbound.urlHost url).getD [] ++
          ("' (this pipeline's mount has no httpOut grants)" : Str)))
  else
    .ok .internal

/-- The caller, with the mount's role where a step asks for it. -/
def callPrincipal (step : Step) (msg : Message) : Option Principal :=
  match step.elevate, executor.elevateRole with
  | true, some role =>
    let principal := msg.principal.getD ⟨[], [], "agent", []⟩
    some (if principal.roles.contains role then principal
      else { principal with roles := principal.roles ++ [role] })
  | _, _ => msg.principal

/-- The body of a call: one that every attempt can copy, or a stream for the first one; and
the message that stays behind. -/
structure CallBody where
  cloneable : Option Body
  oneShot : Option Body
  left : Message

def callBody (method : Method) (preserve : Bool) (msg : Message) : Except RsError CallBody :=
  if method = .get ∨ method = .head then
    .ok ⟨none, none, msg⟩
  else if preserve then
    (materializeIfNeeded executor msg).map fun kept => ⟨kept.body.bind cloneBody, none, kept⟩
  else
    match msg.body with
    | none => .ok ⟨none, none, msg⟩
    | some body =>
      if body.isStream then
        .ok ⟨none, some body, cloneWithBody msg none⟩
      else
        .ok ⟨cloneBody body, none, cloneWithBody msg none⟩

/-- One header of a call, resolved over the context. -/
def resolveHeader (context : Object) (header : Str × Str) : Except RsError (Str × Str) := do
  let name ← match headerName header.1 with
    | some name => Except.ok name
    | none => .error (.badRequest (("invalid header name '" : Str) ++ header.1 ++ ("'" : Str)))
  let value ← PathPattern.resolve world.codec header.2 executor.url context
  let _ ← require (isHeaderValue value)
    (RsError.badRequest
      (("header '" : Str) ++ header.1 ++ ("' resolved to an invalid header value" : Str)))
  return (name, value)

def resolveHeaders (call : CallSpec) (context : Object) : Except RsError HeaderMap := do
  let lines ← (call.headers.getD []).mapM (resolveHeader executor world context)
  return lines.foldl (fun headers line => headers.set line.1 line.2) []

/-- Whether calls of a class carry an idempotency key. -/
def needsKey (effect : EffectClass) : Bool :=
  effect = .keyed || effect = .unsafe_

/-- The key attached to a call that has none of its own. -/
def attachedKey (effect : EffectClass) (headers : HeaderMap) (place : Place) : Option Str :=
  if needsKey effect && ((headers.first "idempotency-key").filter isVisibleAscii).isNone then
    some (deriveKey world executor.invocationId place.keyPath)
  else
    none

/-- Everything an attempt of a call sends. -/
structure CallPlan where
  method : Method
  url : Str
  effect : EffectClass
  target : CallTarget
  headers : HeaderMap
  principal : Option Principal
  autoKey : Option Str
  body : CallBody

/-- The request of one attempt. -/
def CallPlan.request (plan : CallPlan) (attempt : Nat) : Message :=
  let msg := plan.body.left
  let request : Message :=
    { Message.request plan.method plan.url msg.tenant msg.traceId with
      source := .internal
      depth := msg.depth + 1
      principal := if plan.target = .internal then plan.principal else none
      body := (plan.body.cloneable.bind cloneBody).or
        (if attempt = 1 then plan.body.oneShot else none)
      headers := plan.headers }
  match plan.autoKey with
  | some key => request.setHeader "idempotency-key" key
  | none => request

/-- Send one attempt. -/
def sendAttempt (place : Place) (plan : CallPlan) (attempt : Nat) :
    Exec (Except RsError Message) := do
  let request := plan.request attempt
  let _ ← Traced.emit (Event.send place attempt plan.effect plan.autoKey request)
  match plan.target with
  | .internal => return .ok (world.internal place attempt request)
  | .external grant => return world.external place attempt grant request

/-- Send a call under its retry policy, unless its target was refused. -/
def sendCall (step : Step) (call : CallSpec) (place : Place) (url : Str) (isExternal : Bool)
    (method : Method) (headers : HeaderMap) (body : CallBody) : Exec (Except RsError Message) :=
  match chooseTarget executor isExternal url with
  | .error error => return .error error
  | .ok target =>
    let effect := call.effectClass
    let policy :=
      if body.oneShot.isSome then RetryPolicy.noRetry else step.retry.getD executor.retry
    let plan : CallPlan :=
      { method := method
        url := url
        effect := effect
        target := target
        headers := headers
        principal := callPrincipal executor step body.left
        autoKey := attachedKey executor world effect headers place
        body := body }
    retryRequest policy effect (needsKey effect) (sendAttempt world place plan)

/-- The response to a call; a failed external call answers with its error. -/
def callResponse (msg : Message) (isExternal : Bool) :
    Except RsError Message → Except RsError Message
  | .ok response => .ok response
  | .error error =>
    if isExternal then .ok (msg.errorResponse world.codec error) else .error error

/-- What the result of a call leaves: the next message and the variables. -/
def finishCall (step : Step) (msg : Message) (isExternal : Bool)
    (result : Except RsError Message) (vars : Object) : Except RsError (Flow × Object) := do
  let response ← callResponse world msg isExternal result
  let out := { response with name := step.name.or (response.name.or msg.name) }
  match step.capture with
  | some capture =>
    (resultValue executor world out).map fun value =>
      (.next msg, vars.insert (captureName capture) value)
  | none =>
    if !out.isOk && step.tryMode then
      .ok (.next { out with
        body := some (Body.fromJson world.codec (errorValue executor out))
        status := some 200 }, vars)
    else
      .ok (.next out, vars)

def parseMethod (call : CallSpec) : Except RsError Method :=
  match Method.fromBytes call.method with
  | some method => .ok method
  | none => .error (.badRequest (("invalid method '" : Str) ++ call.method ++ ("'" : Str)))

/-- Run a call step. -/
def runCall (step : Step) (call : CallSpec) (msg : Message) (vars : Object) (place : Place) :
    Exec (Flow × Object) := do
  let method ← lift (parseMethod call)
  let context := interpolationContext executor world msg vars
  let _ ← Traced.emit (Event.call place msg context)
  let url ← lift (PathPattern.resolve world.codec call.url executor.url context)
  let body ← lift (callBody executor method step.capture.isSome msg)
  let isExternal ← classify url
  let headers ← lift (resolveHeaders executor world call context)
  let result ← sendCall executor world step call place url isExternal method headers body
  lift (finishCall executor world step body.left isExternal result vars)

/-! ## Transforms -/

/-- The body of a message as a value, with the message after reading it. -/
def transformInput (msg : Message) : Except RsError (Value × Message) :=
  match msg.body with
  | none => .ok (.null, msg)
  | some body =>
    (body.asAny world.codec executor.limits.materializeCap).map fun read =>
      (read.1, cloneWithBody msg (some read.2))

/-- The exact payload as text, bound only where a template mentions it. -/
def rawBody (template : Value) (msg : Message) : Option Str :=
  if mentions "_rawBody" template then
    msg.body.bind fun body => (body.asRawString executor.limits.materializeCap).toOption
  else
    none

/-- The variables of a transform. -/
def transformVars (template : Value) (msg : Message) (vars : Object) : Object :=
  let bound := (vars.insert "_status" (RsError.natValue (msg.status.getD 200))).insert "_ok"
    (.bool msg.isOk)
  let bound := match rawBody executor template msg with
    | some raw => OrderedMap.insert bound "_rawBody" (.str raw)
    | none => bound
  let headers := (msg.headers.filter fun line => isVisibleAscii line.2).map fun line =>
    (line.1, Value.str line.2)
  OrderedMap.insert bound "_headers" (.object headers)

/-- Run a transform step. -/
def runTransform (step : Step) (template : Value) (msg : Message) (vars : Object) :
    Except RsError (Flow × Object) := do
  let read ← transformInput executor world msg
  let out ← applyTemplate world.evaluate read.1 (transformVars executor template read.2 vars)
    template
  match step.capture with
  | some capture => return (.next read.2, vars.insert (captureName capture) out)
  | none =>
    match ResponseEnvelope.detect out with
    | some inner =>
      let shaped ← ResponseEnvelope.apply world.codec inner read.2
      return (.next shaped, vars)
    | none =>
      return (.next { read.2 with
        body := some (Body.fromJson world.codec out)
        status := some 200 }, vars)

end Rs2Runtime.Pipeline
