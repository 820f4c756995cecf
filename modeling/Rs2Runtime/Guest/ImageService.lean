import Rs2Runtime.Data.Calls
import Rs2Runtime.Guest.ImageParams
import Rs2Runtime.Json.Compact

/-!
Contract: the service of derived images, as the calls that it makes of its host.

Owns:
- the handling of a request, call by call: purges, information, originals and derivatives;
- the names of derivatives, which come from the path, the version and the canonical parameters.

Does not own: pixels and digests, which are parameters, or who else makes calls in between.
-/

namespace Rs2Runtime.Guest.Image

open Text Data Json

/-! ## Messages -/

structure Body where
  mediaType : Str
  bytes : Octets

structure Message where
  method : Str
  url : Str
  headers : List (Str × Str)
  status : Nat
  body : Option Body

def header (headers : List (Str × Str)) (name : Str) : Option Str :=
  (headers.find? fun h => toAsciiLowercase h.1 = toAsciiLowercase name).map Prod.snd

def resp (status : Nat) (headers : List (Str × Str)) (body : Option Body) : Message :=
  ⟨"GET", [], headers, status, body⟩

def jsonBody (members : List (Str × Value)) : Body :=
  ⟨"application/json", utf8 (Compact.print (fun _ _ => []) (Value.object members))⟩

def jsonError (status : Nat) (code detail : Str) : Message :=
  resp status [] (some (jsonBody [("code", .str code), ("detail", .str detail)]))

def req (method url : Str) : Message :=
  ⟨method, url, [], 0, none⟩

def Message.is2xx (message : Message) : Bool :=
  200 ≤ message.status && message.status < 300

/-! ## Calls of the host -/

inductive Capability where
  | source
  | cache
  deriving DecidableEq

inductive HostError where
  | capabilityDenied (detail : Str)
  | limitExceeded (detail : Str)
  | failed (detail : Str)

def HostError.response : HostError → Message
  | .capabilityDenied detail => jsonError 403 "capability_denied" detail
  | .limitExceeded detail => jsonError 503 "limit_exceeded" detail
  | .failed detail => jsonError 502 "internal" detail

structure HostCall where
  capability : Capability
  message : Message

abbrev Answer := Except HostError Message

def Answer.succeeded : Answer → Bool
  | .ok message => message.is2xx
  | .error _ => false

/-- The handling of a request: its calls, and the response in the end. -/
abbrev Handling := Calls HostCall Answer Message

/-- Call, and answer with the failure if there is one. -/
def call (capability : Capability) (message : Message) (next : Message → Handling) : Handling :=
  .call ⟨capability, message⟩ fun
    | .error problem => .done problem.response
    | .ok answer => next answer

/-! ## Requests -/

/-- Whether an `If-None-Match` value has the tag, or is for any. -/
def ifNoneMatchHits (value etag : Str) : Bool :=
  ((value.splitOn ',').map trim).any fun candidate =>
    candidate = "*" || stripWeak candidate.length candidate = etag
where
  stripWeak : Nat → Str → Str
    | 0, s => s
    | fuel + 1, s =>
      match s with
      | 'W' :: '/' :: rest => stripWeak fuel rest
      | other => other

inductive TransformError where
  | tooLarge (pixels cap : Nat)
  | unsupported (detail : Str)
  | badRequest (detail : Str)

/-- The library of images, and the digest, which is taken to tell texts apart. -/
structure Library (floats : Floats) where
  probe : Octets → Except Str (Nat × Nat)
  /-- Decode, crop, resize and encode. -/
  render : Octets → Shape floats → Format → Except TransformError Octets
  /-- The digest of a text, and the first half of its digits. -/
  digest : Str → Octets
  short : Str → Str
  digest_injective : Function.Injective digest
  short_injective : Function.Injective short

variable {floats : Floats} (library : Library floats)

/-- Pixels within the limit, which is checked before anything is decoded. -/
def transform (source : Octets) (shape : Shape floats) (resolved : Format) (cap : Nat) :
    Except TransformError Octets :=
  match library.probe source with
  | .error detail => .error (.unsupported detail)
  | .ok (width, height) =>
    if cap < width * height then .error (.tooLarge (width * height) cap)
    else library.render source shape resolved

def TransformError.response : TransformError → Message
  | .tooLarge pixels cap =>
    jsonError 413 "payload_too_large" (("source is " : Str) ++ natStr pixels ++
      ("px, the mount allows " : Str) ++ natStr cap ++ ("px" : Str))
  | .unsupported detail =>
    jsonError 415 "bad_request" (("not a decodable image: " : Str) ++ detail)
  | .badRequest detail => jsonError 400 "bad_request" detail

/-- What a derivative is named by. -/
def identity (sub etag : Str) (shape : Shape floats) (resolved : Format) : Str :=
  sub ++ '\n' :: (etag ++ '\n' :: canonical shape resolved)

def derivedEtag (text : Str) : Str :=
  '"' :: (library.short text ++ ['"'])

def cacheRel (text extension : Str) : Str :=
  let key := toHex (library.digest text)
  ("/d/" : Str) ++ (key.take 2 ++ '/' :: (key ++ '.' :: extension))

def noImage (sub : Str) : Message :=
  jsonError 404 "not_found" (("no image at '" : Str) ++ sub ++ ("'" : Str))

/-- Delete all derivatives, after a confirmation. -/
def purge (sub query : Str) : Handling :=
  if sub ≠ "/.cache" then .done (jsonError 405 "bad_request" "only DELETE /.cache?confirm=")
  else if ¬ ("confirm=" : Str) <+: query then
    .done (jsonError 409 "conflict" "purging the derivative cache requires ?confirm=")
  else
    call .cache (req "DELETE" "/d/?confirm=d") fun deleted =>
      .done (if deleted.is2xx || deleted.status = 404 then resp 204 [] none else deleted)

def info (sub : Str) : Handling :=
  call .source (req "GET" sub) fun got =>
    match got.is2xx, got.body with
    | true, some body =>
      match library.probe body.bytes with
      | .error _ => .done (jsonError 415 "bad_request" "not a decodable image")
      | .ok (width, height) =>
        .done (resp 200 [] (some (jsonBody [("width", .num (.int width)),
          ("height", .num (.int height)), ("mediaType", .str body.mediaType),
          ("bytes", .num (.int body.bytes.length))])))
    | _, _ => .done (noImage sub)

/-- The original. -/
def passthrough (request : Message) (sub etag sourceType : Str) : Message :=
  if etag ≠ [] ∧ (header request.headers "if-none-match").any (ifNoneMatchHits · etag) then
    resp 304 [("etag", etag)] none
  else
    let headers : List (Str × Str) := if etag = [] then [] else [("etag", etag)]
    if request.method = "HEAD" then
      resp 200 (headers ++ [(("content-type" : Str), sourceType)]) none
    else resp 200 (headers ++ [(("x-rs2-body-ref" : Str), ("source:" : Str) ++ sub)]) none

/-- A derivative that is in the cache, or was just put there. -/
def fromCache (request : Message) (etag rel state mediaType : Str) : Message :=
  let headers : List (Str × Str) := [("etag", etag), ("x-img-cache", state)]
  if request.method = "HEAD" then resp 200 (headers ++ [(("content-type" : Str), mediaType)]) none
  else resp 200 (headers ++ [(("x-rs2-body-ref" : Str), ("cache:" : Str) ++ rel)]) none

/-- A derivative that was made; one that is not in the cache is sent along. -/
def fromMade (request : Message) (etag rel : Str) (made : Body) (stored : Bool) : Message :=
  if stored then fromCache request etag rel "miss" made.mediaType
  else if request.method = "HEAD" then fromCache request etag rel "miss,nostore" made.mediaType
  else resp 200 [("etag", etag), ("x-img-cache", "miss,nostore")] (some made)

/-- Make a derivative, put it into the cache, and answer with it. -/
def miss (request : Message) (cap : Nat) (sub : Str) (shape : Shape floats) (resolved : Format)
    (text : Str) : Handling :=
  call .source (req "GET" sub) fun got =>
    match got.is2xx, got.body with
    | true, some body =>
      match transform library body.bytes shape resolved cap with
      | .error problem => .done problem.response
      | .ok bytes =>
        let rel := cacheRel library text resolved.extension
        let made : Body := ⟨resolved.mediaType, bytes⟩
        .call ⟨.cache, { req "PUT" rel with body := some made }⟩ fun stored =>
          .done (fromMade request (derivedEtag library text) rel made stored.succeeded)
    | _, _ => .done (noImage sub)

/-- A derivative of the version that the source has: not modified, from the cache, or made. -/
def derive (request : Message) (cap : Nat) (sub etag : Str) (shape : Shape floats)
    (resolved : Format) : Handling :=
  let text := identity sub etag shape resolved
  if (header request.headers "if-none-match").any (ifNoneMatchHits · (derivedEtag library text))
  then .done (resp 304 [("etag", derivedEtag library text)] none)
  else
    let rel := cacheRel library text resolved.extension
    .call ⟨.cache, req "HEAD" rel⟩ fun hit =>
      if hit.succeeded then
        .done (fromCache request (derivedEtag library text) rel "hit" resolved.mediaType)
      else miss library request cap sub shape resolved text

/-- The path below the mount. -/
def subPath (request : Message) (path : Str) : Str :=
  let base := (header request.headers "x-rs2-base-path").getD "/"
  let sub := if base = "/" then path else (stripStart base path).getD path
  if sub = [] then "/" else sub

/-- The essence of the type that a source gives. -/
def sourceType (head : Message) : Str :=
  trim (((header head.headers "content-type").getD "application/octet-stream").takeWhile (· ≠ ';'))

def handle (request : Message) (config : Value) : Handling :=
  match Config.fromJson config with
  | .error problem => .done (jsonError 500 "internal" problem)
  | .ok limits =>
    let (path, query) := (splitOnce ['?'] request.url).getD (request.url, [])
    let sub := subPath request path
    if request.method = "DELETE" then purge sub query
    else if request.method ≠ "GET" ∧ request.method ≠ "HEAD" then
      .done (jsonError 405 "bad_request" "image mounts serve GET/HEAD")
    else if query = "$info" then info library sub
    else
      match parse floats limits query with
      | .error problem => .done (jsonError 400 "bad_request" problem)
      | .ok params =>
        call .source (req "HEAD" sub) fun head =>
          let etag := (header head.headers "etag").getD []
          if ¬ head.is2xx then .done (noImage sub)
          else
            match params with
            | none => .done (passthrough request sub etag (sourceType head))
            | some params =>
              derive library request limits.maxSourcePixels sub etag params.toShape
                (resolveFormat params.format (sourceType head))

end Rs2Runtime.Guest.Image
