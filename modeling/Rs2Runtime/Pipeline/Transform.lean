import Rs2Runtime.Data.Outcome
import Rs2Runtime.Json.Double
import Rs2Runtime.Message.Basic

/-!
Contract: transform templates and response envelopes.

Owns:
- evaluation of a template leaf by leaf, over a given expression evaluator;
- whether a template mentions a name;
- the `$response` envelope: its detection, its checks and its effect on a message.

Does not own: the expression language.
-/

namespace Rs2Runtime.Pipeline

open Text Data Data.Outcome Json

/-- An evaluator of expressions over an input value and variables. -/
abbrev Evaluator := (expr : Str) → (input : Value) → (vars : Object) → Except RsError Value

mutual

/-- Apply a template: texts are expressions, objects and arrays recurse, other values pass
through. -/
def applyTemplate (evaluate : Evaluator) (input : Value) (vars : Object) :
    Value → Except RsError Value
  | .str expr => evaluate expr input vars
  | .obj fields => (applyFields evaluate input vars fields).map Value.object
  | .arr items => (applyItems evaluate input vars items).map Value.arr
  | .null => .ok .null
  | .bool value => .ok (.bool value)
  | .num value => .ok (.num value)

def applyItems (evaluate : Evaluator) (input : Value) (vars : Object) :
    List Value → Except RsError (List Value)
  | [] => .ok []
  | item :: items => do
      let first ← applyTemplate evaluate input vars item
      let rest ← applyItems evaluate input vars items
      return first :: rest

def applyFields (evaluate : Evaluator) (input : Value) (vars : Object) :
    List (Str × Value) → Except RsError (List (Str × Value))
  | [] => .ok []
  | (key, value) :: fields => do
      let first ← applyTemplate evaluate input vars value
      let rest ← applyFields evaluate input vars fields
      return (key, first) :: rest

end

mutual

/-- Whether a text of a template contains a name. -/
def mentions (name : Str) : Value → Bool
  | .str text => contains name text
  | .obj fields => mentionsField name fields
  | .arr items => mentionsItem name items
  | .null | .bool _ | .num _ => false

def mentionsItem (name : Str) : List Value → Bool
  | [] => false
  | item :: items => mentions name item || mentionsItem name items

def mentionsField (name : Str) : List (Str × Value) → Bool
  | [] => false
  | (_, value) :: fields => mentions name value || mentionsField name fields

end

/-! ## The response envelope -/

namespace ResponseEnvelope

/-- An object whose only member is a `$response` object. -/
def detect (out : Value) : Option Object :=
  match out with
  | .obj [(key, .obj inner)] => if key = "$response" then some inner else none
  | _ => none

def knownFields : List Str := ["status", "headers", "mediaType", "body"].map String.toList

def unknownField (key : Str) : RsError :=
  .badRequest (("$response: unknown field '" : Str) ++ key ++
    ("' (have: status, headers, mediaType, body)" : Str))

/-- The status an envelope sets. -/
def readStatus (codec : Codec) (inner : Object) : Except RsError Nat :=
  match inner.get? "status" with
  | none => .ok 200
  | some value =>
    let code := match value with
      | .num number => number.asU64.filter (· < 2 ^ 16)
      | _ => none
    match code with
    | none =>
      .error (.badRequest
        (("$response.status must be an integer, got " : Str) ++ codec.print value))
    | some code =>
      if 100 ≤ code ∧ code < 1000 then
        .ok code
      else
        .error (.badRequest (("$response.status " : Str) ++ natStr code ++
          (" is not a valid HTTP status" : Str)))

def readMediaType (codec : Codec) (inner : Object) : Except RsError (Option MediaType) :=
  match inner.get? "mediaType" with
  | none => .ok none
  | some (.str text) => .ok (some (MediaType.new text))
  | some value =>
    .error (.badRequest
      (("$response.mediaType must be a string, got " : Str) ++ codec.print value))

/-- The body an envelope leaves on a message. -/
def shapeBody (codec : Codec) (inner : Object) (mediaType : Option MediaType)
    (body : Option Body) : Option Body :=
  match inner.get? "body" with
  | some (.str text) =>
    some (Body.fromString text (mediaType.getD (MediaType.new "text/plain")))
  | some value =>
    let shaped := Body.fromJson codec value
    some { shaped with mediaType := mediaType.getD shaped.mediaType }
  | none =>
    match mediaType with
    | some retyped => body.map fun body => { body with mediaType := retyped }
    | none => body

/-- A header value of an envelope as text. -/
def headerText (codec : Codec) (name : Str) : Value → Except RsError Str
  | .str text => .ok text
  | .num number => .ok (codec.print (.num number))
  | .bool value => .ok (if value then "true" else "false")
  | other =>
    .error (.badRequest (("$response.headers." : Str) ++ name ++
      (" must be a scalar, got " : Str) ++ codec.print other))

/-- Set the headers of an envelope one after another. -/
def setHeaders (codec : Codec) : List (Str × Value) → HeaderMap → Except RsError HeaderMap
  | [], headers => .ok headers
  | (name, value) :: rest, headers => do
      let text ← headerText codec name value
      match headerName name with
      | none =>
        .error (.badRequest
          (("$response: invalid header name '" : Str) ++ name ++ ("'" : Str)))
      | some canonical =>
        if isHeaderValue text then
          setHeaders codec rest (headers.set canonical text)
        else
          .error (.badRequest
            (("$response: invalid value for header '" : Str) ++ canonical ++ ("'" : Str)))

def shapeHeaders (codec : Codec) (inner : Object) (headers : HeaderMap) :
    Except RsError HeaderMap :=
  match inner.get? "headers" with
  | none => .ok headers
  | some (.obj fields) => setHeaders codec fields headers
  | some other =>
    .error (.badRequest
      (("$response.headers must be an object, got " : Str) ++ codec.print other))

/-- Apply an envelope to a message. -/
def apply (codec : Codec) (inner : Object) (msg : Message) : Except RsError Message := do
  let _ ← match (inner.map Prod.fst).find? fun key => !knownFields.contains key with
    | some key => .error (unknownField key)
    | none => Except.ok ()
  let status ← readStatus codec inner
  let mediaType ← readMediaType codec inner
  let headers ← shapeHeaders codec inner msg.headers
  return { msg with
    body := shapeBody codec inner mediaType msg.body
    headers := headers
    status := some status }

end ResponseEnvelope

end Rs2Runtime.Pipeline
