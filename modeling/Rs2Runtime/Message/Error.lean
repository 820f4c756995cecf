import Rs2Runtime.Json.Codec

/-!
Contract: the structured error that crosses every module boundary.

Owns:
- machine-readable codes and their wire names;
- the error record and one constructor per kind of failure;
- the problem-details body of an error.
-/

namespace Rs2Runtime

open Text Data Json

/-- Machine-readable error codes. -/
inductive ErrorCode where
  | badRequest
  | unauthorized
  | forbidden
  | notFound
  | conflict
  | preconditionFailed
  | payloadTooLarge
  | validationFailed
  | idempotencyKeyReuse
  | limitExceeded
  | capabilityDenied
  | contractViolation
  | engineUnavailable
  | providerUnavailable
  | pathUnsafe
  | internal
  deriving DecidableEq, Repr

/-- The stable wire name of a code. -/
def ErrorCode.wire : ErrorCode → Str
  | .badRequest => "bad_request"
  | .unauthorized => "unauthorized"
  | .forbidden => "forbidden"
  | .notFound => "not_found"
  | .conflict => "conflict"
  | .preconditionFailed => "precondition_failed"
  | .payloadTooLarge => "payload_too_large"
  | .validationFailed => "validation_failed"
  | .idempotencyKeyReuse => "idempotency_key_reuse"
  | .limitExceeded => "limit_exceeded"
  | .capabilityDenied => "capability_denied"
  | .contractViolation => "contract_violation"
  | .engineUnavailable => "engine_unavailable"
  | .providerUnavailable => "provider_unavailable"
  | .pathUnsafe => "path_unsafe"
  | .internal => "internal"

/-- The single error type of the runtime. -/
structure RsError where
  status : Nat
  code : ErrorCode
  title : Str
  detail : Str
  retryable : Bool
  retryAfterMs : Option Nat
  extra : Option Value
  deriving DecidableEq, Repr

namespace RsError

def new (status : Nat) (code : ErrorCode) (title detail : Str) : RsError where
  status := status
  code := code
  title := title
  detail := detail
  retryable := false
  retryAfterMs := none
  extra := none

def badRequest (detail : Str) : RsError :=
  new 400 .badRequest "Bad Request" detail

def unauthorized (detail : Str) : RsError :=
  new 401 .unauthorized "Unauthorized" detail

def forbidden (detail : Str) : RsError :=
  new 403 .forbidden "Forbidden" detail

def notFound (detail : Str) : RsError :=
  new 404 .notFound "Not Found" detail

def conflict (detail : Str) : RsError :=
  new 409 .conflict "Conflict" detail

/-- A conditional store write whose precondition was not met. -/
def preconditionFailed (detail : Str) : RsError :=
  new 412 .preconditionFailed "Precondition Failed" detail

def validationFailed (detail : Str) (errors : Value) : RsError :=
  { new 422 .validationFailed "Validation Failed" detail with
    extra := some (.obj [("errors", errors)]) }

/-- One idempotency key, two different payloads. -/
def idempotencyKeyReuse (detail : Str) : RsError :=
  new 422 .idempotencyKeyReuse "Idempotency Key Reuse" detail

def pathUnsafe (detail : Str) : RsError :=
  new 400 .pathUnsafe "Unsafe Path" detail

def capabilityDenied (capability : Str) : RsError :=
  { new 403 .capabilityDenied "Capability Denied"
      (("capability '" : Str) ++ capability ++ ("' is not granted to this service" : Str)) with
    extra := some (.obj [("capability", .str capability)]) }

/-- A resource limit was breached; the caller may retry. -/
def limitExceeded (limit : Str) (observed cap : Value) : RsError :=
  { new 503 .limitExceeded "Limit Exceeded"
      (("limit '" : Str) ++ limit ++ ("' exceeded" : Str)) with
    retryable := true
    retryAfterMs := some 2000
    extra := some (.obj [("cap", cap), ("limit", .str limit), ("observed", observed)]) }

def engineUnavailable (detail : Str) : RsError :=
  new 501 .engineUnavailable "Engine Unavailable" detail

def internal (detail : Str) : RsError :=
  new 500 .internal "Internal Error" detail

/-- A natural number as a JSON integer. -/
def natValue (n : Nat) : Value :=
  .num (.int n)

/-- The problem-details body of an error. -/
def toProblemJson (error : RsError) (tenant traceId : Str) : Value :=
  let problem : Object := OrderedMap.ofList [
    ("type", .str (("https://rs2.dev/errors#" : Str) ++ error.code.wire)),
    ("title", .str error.title),
    ("status", natValue error.status),
    ("code", .str error.code.wire),
    ("detail", .str error.detail),
    ("tenant", .str tenant),
    ("traceId", .str traceId),
    ("retryable", .bool error.retryable)]
  let problem :=
    match error.retryAfterMs with
    | some ms => OrderedMap.insert problem "retryAfterMs" (natValue ms)
    | none => problem
  match error.extra.bind Value.asObject with
  | some extra => .obj (OrderedMap.extend problem extra)
  | none => .obj problem

end RsError

end Rs2Runtime
