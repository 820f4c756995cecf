import Rs2Runtime.Message.Error

/-!
Contract: messages, the one value every service consumes and produces.

Owns:
- methods, header maps, media types and bodies, with bounded materialization;
- the message URL and its mount split;
- principals, sources and messages, with the responses derived from a message.
-/

namespace Rs2Runtime

open Text Data Json

/-! ## Methods -/

/-- A request method; `extension` holds every token that is not a standard method. -/
inductive Method where
  | get
  | head
  | post
  | put
  | delete
  | patch
  | options
  | connect
  | trace
  | extension (token : Str)
  deriving DecidableEq, Repr

/-- The characters of an HTTP token. -/
def isTokenChar (c : Char) : Bool :=
  c.isAlphanum || c ∈ ("!#$%&'*+-.^_`|~" : Str)

/-- Parse a method name; it is case-sensitive. -/
def Method.fromBytes (name : Str) : Option Method :=
  if name = "GET" then some .get
  else if name = "HEAD" then some .head
  else if name = "POST" then some .post
  else if name = "PUT" then some .put
  else if name = "DELETE" then some .delete
  else if name = "PATCH" then some .patch
  else if name = "OPTIONS" then some .options
  else if name = "CONNECT" then some .connect
  else if name = "TRACE" then some .trace
  else if name ≠ [] ∧ name.all isTokenChar then some (.extension name)
  else none

/-- The name of a method as it is sent. -/
def Method.name : Method → Str
  | .get => "GET"
  | .head => "HEAD"
  | .post => "POST"
  | .put => "PUT"
  | .delete => "DELETE"
  | .patch => "PATCH"
  | .options => "OPTIONS"
  | .connect => "CONNECT"
  | .trace => "TRACE"
  | .extension token => token

/-! ## Headers -/

/-- Header lines in order of appearance, under lower-case names. -/
abbrev HeaderMap := List (Str × Str)

/-- A header name in its canonical lower case; none when it is not a token. -/
def headerName (name : Str) : Option Str :=
  if name ≠ [] ∧ name.all isTokenChar then some (toAsciiLowercase name) else none

/-- Whether a text can be sent as a header value. -/
def isHeaderValue (value : Str) : Bool :=
  value.all fun c => c == '\t' || (32 ≤ c.toNat && c.toNat ≠ 127)

/-- Whether a header value can be read back as visible ASCII. -/
def isVisibleAscii (value : Str) : Bool :=
  value.all fun c => c == '\t' || (32 ≤ c.toNat && c.toNat < 127)

/-- Replace every line of a header by one. -/
def HeaderMap.set (headers : HeaderMap) (name value : Str) : HeaderMap :=
  headers.filter (fun line => line.1 ≠ name) ++ [(name, value)]

/-- The first line of a header. -/
def HeaderMap.first (headers : HeaderMap) (name : Str) : Option Str :=
  OrderedMap.get? headers name

/-! ## Media types -/

/-- A media type: its lower-case essence and an optional schema reference. -/
structure MediaType where
  essence : Str
  schema : Option Str
  deriving DecidableEq, Repr

namespace MediaType

def new (essence : Str) : MediaType where
  essence := toAsciiLowercase (trim essence)
  schema := none

def json : MediaType := ⟨"application/json", none⟩

def dirJson : MediaType := ⟨"application/vnd.rs2.dir+json", none⟩

def problemJson : MediaType := ⟨"application/problem+json", none⟩

def isJson (mediaType : MediaType) : Bool :=
  contains "/json" mediaType.essence || contains "+json" mediaType.essence

def isText (mediaType : MediaType) : Bool :=
  ([("text/" : Str), "application/javascript", "application/typescript", "application/xml",
    "application/xhtml+xml"]).any fun start => start.isPrefixOf mediaType.essence

end MediaType

/-! ## Bodies -/

/-- Octets in memory, or a stream of chunks that may end in a transport error. -/
inductive Payload where
  | bytes (octets : Octets)
  | stream (chunks : List (Except Str Octets))
  deriving DecidableEq

/-- A media-typed body. -/
structure Body where
  payload : Payload
  mediaType : MediaType
  size : Option Nat
  deriving DecidableEq

namespace Body

def fromBytes (octets : Octets) (mediaType : MediaType) : Body where
  payload := .bytes octets
  mediaType := mediaType
  size := some octets.length

def fromString (text : Str) (mediaType : MediaType) : Body :=
  fromBytes (utf8 text) mediaType

def fromJson (codec : Codec) (value : Value) : Body :=
  fromBytes (codec.encode value) .json

def isStream (body : Body) : Bool :=
  match body.payload with
  | .bytes _ => false
  | .stream _ => true

/-- The error of a body above the materialization cap. -/
def tooLarge (observed maxBytes : Nat) : RsError :=
  .limitExceeded "materialized_body_bytes" (RsError.natValue observed)
    (RsError.natValue maxBytes)

/-- Collect a stream's chunks after `buffered`, within the cap. -/
def collect (maxBytes : Nat) : Octets → List (Except Str Octets) → Except RsError Octets
  | buffered, [] => .ok buffered
  | _, .error message :: _ =>
    .error (.internal (("body stream error: " : Str) ++ message))
  | buffered, .ok chunk :: chunks =>
    if maxBytes < buffered.length + chunk.length then
      .error (tooLarge (buffered.length + chunk.length) maxBytes)
    else
      collect maxBytes (buffered ++ chunk) chunks

/-- Bring the payload into memory, within the cap. -/
def materialize (body : Body) (maxBytes : Nat) : Except RsError (Octets × Body) :=
  match body.payload with
  | .bytes octets =>
    if maxBytes < octets.length then
      .error (tooLarge octets.length maxBytes)
    else
      .ok (octets, body)
  | .stream chunks =>
    match body.size with
    | some size =>
      if maxBytes < size then
        .error (tooLarge size maxBytes)
      else
        (collect maxBytes [] chunks).map fun octets =>
          (octets, fromBytes octets body.mediaType)
    | none =>
      (collect maxBytes [] chunks).map fun octets =>
        (octets, fromBytes octets body.mediaType)

/-- The octets of a stream, up to its first transport error. -/
def concat : List (Except Str Octets) → Except RsError Octets
  | [] => .ok []
  | .error message :: _ => .error (.internal (("body stream error: " : Str) ++ message))
  | .ok chunk :: chunks => (concat chunks).map (chunk ++ ·)

/-- The octets of a payload that is written as it arrives. -/
def streamed (body : Body) : Except RsError Octets :=
  match body.payload with
  | .bytes octets => .ok octets
  | .stream chunks => concat chunks

/-- Drop a leading byte-order mark. -/
def stripBom : Octets → Octets
  | 0xEF :: 0xBB :: 0xBF :: rest => rest
  | octets => octets

/-- Parse materialized octets as JSON. -/
def parseJson (codec : Codec) (octets : Octets) : Except RsError Value :=
  match codec.parse octets with
  | some value => .ok value
  | none => .error (.badRequest (("invalid JSON body: " : Str) ++ codec.parseError octets))

theorem wellFormed_of_parseJson {codec : Codec} {octets : Octets} {value : Value}
    (parsed : parseJson codec octets = .ok value) : value.WellFormed := by
  unfold parseJson at parsed
  split at parsed
  next found parses =>
    cases parsed
    exact codec.wellFormed_of_parse octets _ parses
  next => cases parsed

/-- Materialize and parse a body of a JSON media type. -/
def asJson (codec : Codec) (body : Body) (maxBytes : Nat) : Except RsError (Value × Body) :=
  if body.mediaType.isJson then
    (body.materialize maxBytes).bind fun materialized =>
      (parseJson codec (stripBom materialized.1)).map fun value => (value, materialized.2)
  else
    .error (.badRequest
      (("expected a JSON body, got '" : Str) ++ body.mediaType.essence ++ ("'" : Str)))

theorem wellFormed_of_asJson {codec : Codec} {body : Body} {maxBytes : Nat} {read : Value × Body}
    (parsed : asJson codec body maxBytes = .ok read) : read.1.WellFormed := by
  unfold asJson at parsed
  split at parsed
  next =>
    cases materialized : body.materialize maxBytes with
    | error e =>
      rw [materialized] at parsed
      cases parsed
    | ok octets =>
      rw [materialized, Except.bind] at parsed
      cases parses : parseJson codec (stripBom octets.1) with
      | error e =>
        rw [parses] at parsed
        cases parsed
      | ok value =>
        rw [parses] at parsed
        cases parsed
        exact wellFormed_of_parseJson parses
  next => cases parsed

/-- The conversion directed by the media type: JSON parses, text becomes a string, and
everything else its base64 form. -/
def asAny (codec : Codec) (body : Body) (maxBytes : Nat) : Except RsError (Value × Body) :=
  (body.materialize maxBytes).bind fun materialized =>
    let octets := stripBom materialized.1
    if body.mediaType.isJson then
      (parseJson codec octets).map fun value => (value, materialized.2)
    else if body.mediaType.isText then
      match fromUtf8 octets with
      | some text => .ok (.str text, materialized.2)
      | none => .ok (.str (base64 octets), materialized.2)
    else
      .ok (.str (base64 octets), materialized.2)

/-- The payload as text, or its base64 form where it is not UTF-8. -/
def asRawString (body : Body) (maxBytes : Nat) : Except RsError Str :=
  (body.materialize maxBytes).map fun materialized =>
    (fromUtf8 materialized.1).getD (base64 materialized.1)

end Body

/-! ## URLs -/

/-- Path and query of a message, with the mount split applied by the router. -/
structure MsgUrl where
  path : Str
  query : Str
  basePath : Str
  servicePath : Str
  deriving DecidableEq, Repr

namespace MsgUrl

/-- Parse a path-and-query text. -/
def parse (pathAndQuery : Str) : MsgUrl :=
  match splitOnce ['?'] pathAndQuery with
  | some (path, query) => ⟨path, query, [], path⟩
  | none => ⟨pathAndQuery, [], [], pathAndQuery⟩

theorem parse_of_not_mem {s : Str} (absent : '?' ∉ s) : parse s = ⟨s, [], [], s⟩ := by
  rw [parse, splitOnce_char_eq_none.mpr absent]

/-- The path is everything before the first question mark. -/
theorem path_parse (s : Str) : (parse s).path = s.takeWhile (· ≠ '?') := by
  cases cut : splitOnce ['?'] s with
  | none =>
    have absent := splitOnce_char_eq_none.mp cut
    rw [parse_of_not_mem absent, takeWhile_ne_of_not_mem absent]
  | some parts =>
    obtain ⟨path, query⟩ := parts
    have absent := not_mem_of_splitOnce_char cut
    rw [parse, cut, splitOnce_append cut, List.append_assoc, List.singleton_append,
      takeWhile_append_cons (by decide), takeWhile_ne_of_not_mem absent]

/-- A key and a value around the first equals sign. -/
def queryPair (pair : Str) : Str × Str :=
  (splitOnce ['='] pair).getD (pair, [])

/-- Percent decoding of a query value, where a plus stands for a space. -/
def decodeQueryValue (value : Str) : Str :=
  (percentDecode value).map fun c => if c = '+' then ' ' else c

/-- The first value of a query parameter, decoded; keys are decoded as well. -/
def queryParam (url : MsgUrl) (name : Str) : Option Str :=
  ((url.query.splitOn '&').map queryPair).findSome? fun pair =>
    if percentDecode pair.1 = name then some (decodeQueryValue pair.2) else none

/-- Split the path at a matched mount. -/
def applyMount (url : MsgUrl) (basePath : Str) : MsgUrl :=
  let base := basePath.rdropWhile (· = '/')
  let service := url.path.drop base.length
  { url with
    basePath := base
    servicePath := if service = [] then "/" else service }

def serviceSegments (url : MsgUrl) : List Str :=
  segments url.servicePath

def baseSegments (url : MsgUrl) : List Str :=
  segments url.basePath

/-- Whether the request addresses a directory. -/
def isDirectory (url : MsgUrl) : Bool :=
  url.servicePath.getLast? = some '/'

end MsgUrl

/-! ## Messages -/

/-- Where a message entered the runtime. -/
inductive Source where
  | external
  | internal
  | system
  deriving DecidableEq, Repr

/-- An authenticated principal. -/
structure Principal where
  id : Str
  roles : List Str
  kind : Str
  extra : Object
  deriving DecidableEq, Repr

/-- A request or a response. -/
structure Message where
  method : Method
  url : MsgUrl
  headers : HeaderMap
  status : Option Nat
  body : Option Body
  tenant : Str
  principal : Option Principal
  traceId : Str
  source : Source
  name : Option Str
  depth : Nat
  deriving DecidableEq

namespace Message

/-- A fresh request under a trace. -/
def request (method : Method) (pathAndQuery tenant traceId : Str) : Message where
  method := method
  url := MsgUrl.parse pathAndQuery
  headers := []
  status := none
  body := none
  tenant := tenant
  principal := none
  traceId := traceId
  source := .external
  name := none
  depth := 0

/-- A response with the runtime context of this message. -/
def response (msg : Message) (status : Nat) (body : Option Body) : Message :=
  { msg with
    headers := []
    status := some status
    body := body }

def ok (msg : Message) (body : Option Body) : Message :=
  msg.response 200 body

def okJson (codec : Codec) (msg : Message) (value : Value) : Message :=
  msg.ok (some (Body.fromJson codec value))

def noContent (msg : Message) : Message :=
  msg.response 204 none

/-- The problem-details response of an error. -/
def errorResponse (codec : Codec) (msg : Message) (error : RsError) : Message :=
  let problem := error.toProblemJson msg.tenant msg.traceId
  let status := if 100 ≤ error.status ∧ error.status < 1000 then error.status else 500
  let response :=
    msg.response status (some (Body.fromString (codec.print problem) .problemJson))
  match error.retryAfterMs with
  | some ms =>
    { response with
      headers := response.headers.set "retry-after" (Nat.toDigits 10 ((ms + 999) / 1000)) }
  | none => response

def isOk (msg : Message) : Bool :=
  match msg.status with
  | none => true
  | some status => 200 ≤ status && status < 300

/-- The first line of a header, when it is visible ASCII. -/
def header (msg : Message) (name : Str) : Option Str :=
  (msg.headers.first name).filter isVisibleAscii

/-- Replace a header; a value that cannot be sent leaves the message unchanged. -/
def setHeader (msg : Message) (name value : Str) : Message :=
  if isHeaderValue value then { msg with headers := msg.headers.set name value } else msg

end Message

end Rs2Runtime
