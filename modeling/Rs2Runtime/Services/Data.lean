import Rs2Runtime.Adapters.MemData
import Rs2Runtime.Data.Outcome
import Rs2Runtime.Services.Conditional
import Rs2Runtime.Services.FieldRules

/-!
Contract: the `data` service, keyed JSON records with schemas and field rules.

Owns:
- the mount root, schema index, dataset, schema and record resources;
- conditional requests against the entity tag of the stored record;
- the checks between a request body and the record it stores;
- the shape of a successful write.

Does not own: JSON Schema validation and hashing, which are parameters of the host.
-/

namespace Rs2Runtime.Services

open Text Data Data.Outcome Json
open Adapters Adapters.MemData Services.FieldRules

/-- The switches of a data mount. -/
structure DataService where
  enforceSchema : Bool
  fieldAuthz : Bool
  deriving DecidableEq, Repr

/-- What the service takes from its surroundings: JSON text, a 64-bit hash as octets, a
JSON Schema validator, the tenant's limits and operators, and the key drawn for a record
created without one. -/
structure DataHost where
  codec : Codec
  hash : Str → Octets
  schemaError : Value → Option Str
  violations : (schema instance_ : Value) → List (Str × Str)
  materializedBodyBytes : Nat
  operatorRoles : Option Str
  freshKey : Str

/-- Surroundings without operators, in which every value meets every schema. -/
def DataHost.plain : DataHost where
  codec := Tagged.codec
  hash := fun _ => []
  schemaError := fun _ => none
  violations := fun _ _ => []
  materializedBodyBytes := 1000
  operatorRoles := none
  freshKey := "new"

namespace DataService

def schemaResource : Str := ".schema.json"

def schemasResource : Str := ".schemas"

variable (service : DataService) (host : DataHost)

/-- Validate a record against its dataset schema. -/
def validate (dataset : Str) (schema record : Value) : Except RsError Unit :=
  match host.schemaError schema with
  | some e =>
    .error (.badRequest (("dataset schema is not a valid JSON Schema: " : Str) ++ e))
  | none =>
    let errors := (host.violations schema record).map fun violation =>
      Value.object [("path", .str violation.1), ("message", .str violation.2)]
    require (errors = [])
      (.validationFailed
        (("body does not conform to the '" : Str) ++ dataset ++ ("' dataset schema" : Str))
        (.arr errors))

/-- Record version: a hash of the serialized value. -/
def recordEtag (value : Value) : Str :=
  '"' :: toHex (host.hash (host.codec.print value)) ++ ['"']

/-- The JSON value of a request body. -/
def bodyJson (msg : Message) (missing : Str) : Except RsError Value :=
  match msg.body with
  | none => .error (.badRequest missing)
  | some body => (body.asJson host.codec host.materializedBodyBytes).map Prod.fst

/-- The stored record, or null for a record that does not exist yet. -/
def getOrNull (store : Store) (dataset key : Str) : Value :=
  (record? store dataset key).getD .null

/-- The schema a write is held to. -/
def schemaFor (store : Store) (dataset : Str) : Option Value :=
  if service.fieldAuthz || service.enforceSchema then getSchema store dataset else none

/-- Field rules, where the mount applies them. -/
def enforce (msg : Message) (schema stored value : Value) : Except RsError Value :=
  if service.fieldAuthz then enforceWriteRules value stored schema msg else .ok value

/-- Schema validation, where the mount applies it. -/
def conform (dataset : Str) (schema value : Value) : Except RsError Unit :=
  if service.enforceSchema then validate host dataset schema value else .ok ()

/-- The checks between a proposed record and storing it. -/
def admitWrite (msg : Message) (dataset : Str) (schema : Option Value) (stored value : Value) :
    Except RsError Value :=
  match schema with
  | none => .ok value
  | some schema => do
      let final ← service.enforce msg schema stored value
      let _ ← service.conform host dataset schema final
      return final

/-- What of a record a caller is shown. -/
def shown (schema : Option Value) (msg : Message) (value : Value) : Value :=
  match schema with
  | some schema => if service.fieldAuthz then redactFields value schema msg else value
  | none => value

def schemaUrl (msg : Message) (dataset : Str) : Str :=
  msg.url.basePath ++ ("/" : Str) ++ dataset ++ ("/" : Str) ++ schemaResource

/-- A record as a response body. -/
def recordBody (msg : Message) (dataset : Str) (value : Value) : Body :=
  Body.fromString (host.codec.print value)
    { MediaType.json with schema := some (schemaUrl msg dataset) }

/-- A page of a container. -/
def listing (msg : Message) (path : Str) (entries : List Value) (total : Nat) : Message :=
  (msg.ok (some (Body.fromString
    (host.codec.print (Value.object
      [("path", .str path), ("entries", .arr entries), ("total", RsError.natValue total)]))
    .dirJson))).setHeader "x-total-count" (natStr total)

/-! ## Containers -/

/-- The mount root lists datasets. -/
def handleRoot (store : Store) (msg : Message) : Except RsError (Message × Store) :=
  match msg.method with
  | .get =>
    let (take, skip) := pagination msg
    let (names, total) := listDatasets store take skip
    let entries := names.map fun name =>
      Value.object [("name", .str (name ++ ['/'])), ("dir", .bool true)]
    .ok (listing host msg "/" entries total, store)
  | _ => .error (.badRequest "the mount root supports GET (dataset listing)")

/-- Every installed schema in one document. -/
def handleSchemas (store : Store) (msg : Message) : Except RsError (Message × Store) :=
  match msg.method with
  | .get =>
    let schemas := (listDatasets store 10000 0).1.filterMap fun name =>
      (getSchema store name).map fun schema =>
        (name, Value.object
          [("schemaUrl", .str (schemaUrl msg name)), ("schema", schema)])
    let index := Value.object [("schemas", Value.object schemas)]
    .ok (msg.ok (some (Body.fromString (host.codec.print index) .json)), store)
  | _ => .error (.badRequest ".schemas supports GET")

/-- The path of a dataset in a listing. -/
def datasetPath (dataset : Str) : Str :=
  ("/" : Str) ++ dataset ++ ("/" : Str)

/-- One record of a projected listing. -/
def projectedEntry (schema : Option Value) (msg : Message) (entry : Str × Value) : Value :=
  .object [
    ("name", .str entry.1),
    ("dir", .bool false),
    ("contentType", .str "application/json"),
    ("fields", service.shown schema msg entry.2)]

/-- A listing of records projected to `$select`. -/
def projectedListing (store : Store) (msg : Message) (dataset select : Str) :
    Except RsError (Message × Store) := do
  let page := pagination msg
  let spec ← Listing.ListSpec.parse select (msg.url.queryParam "$sort") page.1 page.2
  let found ← listRecords host.codec store dataset spec
  let schema := if service.fieldAuthz then getSchema store dataset else none
  let entries := found.1.map (service.projectedEntry schema msg)
  return (listing host msg (datasetPath dataset) entries found.2, store)

/-- A listing of record keys; the schema is a fixed child. -/
def plainListing (store : Store) (msg : Message) (dataset : Str) :
    Except RsError (Message × Store) := do
  let _ ← require (msg.url.queryParam "$sort" = none)
    (RsError.badRequest "$sort requires $select (projected listing)")
  let page := pagination msg
  let found ← listKeys store dataset page.1 page.2
  let keys := found.1.map fun key =>
    Value.object [
      ("name", .str key), ("dir", .bool false), ("contentType", .str "application/json")]
  let fixed :=
    if (getSchema store dataset).isSome then
      [Value.object
        [("name", .str schemaResource), ("dir", .bool false), ("fixed", .bool true)]]
    else []
  return (listing host msg (datasetPath dataset) (keys ++ fixed) found.2, store)

/-- Create a record under a generated key. -/
def createRecord (store : Store) (msg : Message) (dataset : Str) :
    Except RsError (Message × Store) := do
  let value ← bodyJson host msg "write requires a JSON body"
  let schema := service.schemaFor store dataset
  let final ← service.admitWrite host msg dataset schema .null value
  let location := msg.url.basePath ++ ("/" : Str) ++ dataset ++ ("/" : Str) ++ host.freshKey
  let body := recordBody host msg dataset (service.shown schema msg final)
  return (((msg.response 201 (some body)).setHeader "location" location).setHeader "etag"
    (recordEtag host final), (put store dataset host.freshKey final).2)

/-- Delete a dataset, confirmed by its name. -/
def removeDataset (store : Store) (msg : Message) (dataset : Str) :
    Except RsError (Message × Store) := do
  let _ ← require (writePrecondition msg = .none)
    (RsError.badRequest "conditional headers are not supported on dataset deletes")
  let _ ← require (msg.url.queryParam "confirm" = some dataset)
    (RsError.conflict (("dataset delete requires '?confirm=" : Str) ++ dataset ++ ("'" : Str)))
  let remaining ← deleteDataset store dataset
  return (msg.noContent, remaining)

def handleDataset (store : Store) (msg : Message) (dataset : Str) :
    Except RsError (Message × Store) :=
  match msg.method with
  | .get =>
    match msg.url.queryParam "$select" with
    | some select => service.projectedListing host store msg dataset select
    | none => plainListing host store msg dataset
  | .post => service.createRecord host store msg dataset
  | .delete => removeDataset store msg dataset
  | _ => .error (.badRequest "dataset level supports GET, POST, DELETE")

/-! ## Schemas -/

/-- Install a schema; it carries the field rules, so it needs an operator where they
apply. -/
def installSchema (store : Store) (msg : Message) (dataset : Str) :
    Except RsError (Message × Store) := do
  let _ ← require
    (service.fieldAuthz → Wrapper.isOperator msg.principal (host.operatorRoles.getD []))
    (RsError.forbidden "editing the schema on a fieldLevelAuthz mount requires an operator")
  let schema ← bodyJson host msg "schema write requires a body"
  match host.schemaError schema with
  | some e => throw (.badRequest (("not a valid JSON Schema: " : Str) ++ e))
  | none => return (msg.ok none, putSchema store dataset schema)

def handleSchema (store : Store) (msg : Message) (dataset : Str) :
    Except RsError (Message × Store) :=
  match msg.method with
  | .get =>
    match getSchema store dataset with
    | none =>
      .error (.notFound (("dataset '" : Str) ++ dataset ++ ("' has no schema" : Str)))
    | some schema =>
      .ok (msg.ok (some (Body.fromString (host.codec.print schema)
        (.new "application/schema+json"))), store)
  | .put => service.installSchema host store msg dataset
  | _ => .error (.badRequest "schema resource supports GET and PUT")

/-! ## Records -/

def staleTag : RsError :=
  .preconditionFailed "If-Match does not match the current ETag — re-read and retry"

/-- Read one record. -/
def readRecord (store : Store) (msg : Message) (dataset key : Str) :
    Except RsError (Message × Store) := do
  let value ← get store dataset key
  let etag := recordEtag host value
  if ifNoneMatchHits (msg.header "if-none-match") etag then
    return ((msg.response 304 none).setHeader "etag" etag, store)
  else
    let schema := if service.fieldAuthz then getSchema store dataset else none
    let body := recordBody host msg dataset (service.shown schema msg value)
    let link := ("<" : Str) ++ schemaUrl msg dataset ++ (">; rel=\"describedby\"" : Str)
    return (((msg.ok (some body)).setHeader "link" link).setHeader "etag" etag, store)

/-- The precondition of an upsert. -/
def checkUpsert (current : Value) (precondition : WritePrecondition) : Except RsError Unit :=
  match precondition with
  | .none => .ok ()
  | .ifMatch want =>
    if current = .null then
      .error (.preconditionFailed "If-Match given but the record does not exist")
    else
      require (ifMatchHits want (recordEtag host current)) staleTag
  | .ifNoneMatchStar =>
    require (current = .null)
      (.preconditionFailed "If-None-Match: * given but the record already exists")

/-- PUT and POST store the body; POST returns what it stored. -/
def upsert (store : Store) (msg : Message) (dataset key : Str) :
    Except RsError (Message × Store) := do
  let current := getOrNull store dataset key
  let _ ← checkUpsert host current (writePrecondition msg)
  let value ← bodyJson host msg "write requires a JSON body"
  let schema := service.schemaFor store dataset
  let final ← service.admitWrite host msg dataset schema current value
  let status := if (put store dataset key final).1 then 201 else 200
  let body :=
    if msg.method = .post then
      some (recordBody host msg dataset (service.shown schema msg final))
    else none
  return ((msg.response status body).setHeader "etag" (recordEtag host final),
    (put store dataset key final).2)

/-- PATCH merges the body into the stored record. -/
def patch (store : Store) (msg : Message) (dataset key : Str) :
    Except RsError (Message × Store) := do
  let change ← bodyJson host msg "patch requires a JSON body"
  let stored ← get store dataset key
  let schema := service.schemaFor store dataset
  let final ← service.admitWrite host msg dataset schema stored (mergePatch change stored)
  let body := recordBody host msg dataset (service.shown schema msg final)
  return (msg.ok (some body), (put store dataset key final).2)

/-- The precondition of a delete; a missing record is left to the store's 404. -/
def checkDelete (current : Value) (precondition : WritePrecondition) : Except RsError Unit :=
  match precondition with
  | .none => .ok ()
  | .ifMatch want =>
    require (current = .null ∨ ifMatchHits want (recordEtag host current)) staleTag
  | .ifNoneMatchStar =>
    require (current = .null)
      (.preconditionFailed "If-None-Match: * given but the record exists")

def removeRecord (store : Store) (msg : Message) (dataset key : Str) :
    Except RsError (Message × Store) := do
  let _ ← checkDelete host (getOrNull store dataset key) (writePrecondition msg)
  let remaining ← delete store dataset key
  return (msg.noContent, remaining)

def handleRecord (store : Store) (msg : Message) (dataset key : Str) :
    Except RsError (Message × Store) :=
  match msg.method with
  | .get => service.readRecord host store msg dataset key
  | .put | .post => service.upsert host store msg dataset key
  | .patch => service.patch host store msg dataset key
  | .delete => removeRecord host store msg dataset key
  | _ => .error (.badRequest "record level supports GET, PUT, POST, PATCH, DELETE")

/-- Handle one request; an error leaves the store as it was. -/
def handle (store : Store) (msg : Message) : Except RsError (Message × Store) :=
  match msg.url.serviceSegments with
  | [] => handleRoot host store msg
  | [dataset] =>
    if dataset = schemasResource then handleSchemas host store msg
    else service.handleDataset host store msg dataset
  | [dataset, key] =>
    if key = schemaResource then service.handleSchema host store msg dataset
    else service.handleRecord host store msg dataset key
  | _ => .error (.badRequest "data paths are /<dataset>/<key>")

end DataService

end Rs2Runtime.Services
