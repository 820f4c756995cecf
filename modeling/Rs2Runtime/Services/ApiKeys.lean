import Rs2Runtime.Json.Compact
import Rs2Runtime.Services.Tokens
import Rs2Runtime.Wrapper.CachePolicy

/-!
Contract: keys of the service for API keys.

Owns:
- the seal of a key record, and what it covers;
- the form of keys, and the roles that a value stands for;
- what a request with a key is taken for.

Does not own: digests and the base64 alphabet, the store of records, or listing and revocation of
keys.
-/

namespace Rs2Runtime.Services

open Text Data Json

def apiKeyStart : Str := "rs2k_"

def apiKeyKind : Str := "key"

structure ApiKeysSettings where
  maxDays : Nat
  adminRole : Option Str
  dataset : Str

/-- The service with the key that its records are sealed with. -/
structure ApiKeysService where
  settings : ApiKeysSettings
  sealKey : Str

namespace ApiKeys

/-- A member of a record, null where it has none. -/
def member (record : Value) (name : Str) : Value :=
  (record.get? name).getD .null

/-- The fields a seal covers, in a fixed order. -/
def sealed (id secret : Str) (record : Value) : Value :=
  .arr [.str "rs2-apikey-v1", .str id, .str secret, member record "owner", member record "roles",
    member record "extra", member record "created", member record "expires", member record "name"]

/-- The text of a fraction, as the serializer prints it. -/
def floatText (codec : Codec) (digits exponent : Int) : Str :=
  codec.print (.num (.float digits exponent))

/-- The text of a value with the keys of its objects sorted. -/
def canonical (codec : Codec) (value : Value) : Str :=
  Compact.canonical (· ≤ ·) (floatText codec) value

def sealInput (codec : Codec) (id secret : Str) (record : Value) : Str :=
  canonical codec (sealed id secret record)

/-- The identifier and the secret of a key. -/
def splitKey (key : Str) : Option (Str × Str) :=
  (stripStart apiKeyStart key).bind fun rest =>
    (splitOnce "_" rest).filter fun parts =>
      parts.1 ≠ [] ∧ (parts.1.all fun c => (hexValue c).isSome) ∧ parts.2 ≠ []

def rolesOf : Value → List Str
  | .str roles => words roles
  | .arr items => (items.filterMap Value.asStr).flatMap words
  | _ => []

end ApiKeys

namespace ApiKeysService

open Services.ApiKeys

variable (digests : Digests) (service : ApiKeysService)

def sealMatches (id secret : Str) (record : Value) : Bool :=
  match ((record.get? "seal").bind Value.asStr).bind digests.decode64 with
  | some sealed =>
    digests.hmacSha256 (utf8 service.sealKey)
      (utf8 (sealInput digests.codec id secret record)) = sealed
  | none => false

/-- The expiry of a record, in seconds. -/
def expiresOf (record : Value) : Nat :=
  ((record.get? "expires").bind Wrapper.readU64).getD 0

/-- The principal that a key stands for. -/
def principalOf (id : Str) (record : Value) : Principal where
  id := ((record.get? "owner").bind Value.asStr).getD []
  roles := rolesOf (member record "roles")
  kind := apiKeyKind
  extra := OrderedMap.insert (((record.get? "extra").bind Value.asObject).getD []) "keyId" (.str id)

/-- The record of a key in the data of the mount. -/
def recordOf (data : Option ((dataset key : Str) → Except RsError Value)) (id : Str) :
    Except RsError Value :=
  match data with
  | none => .error (.internal "apikeys has no data capability")
  | some get =>
    match get service.settings.dataset id with
    | .ok record => .ok record
    | .error e =>
      if e.status = 404 then .error (.unauthorized "unknown or revoked API key") else .error e

/-- What a key stands for at a time, in seconds: a principal and an expiry. -/
def checkKey (now : Nat) (data : Option ((dataset key : Str) → Except RsError Value))
    (key : Str) : Except RsError (Principal × Nat) :=
  match splitKey key with
  | none => .error (.unauthorized "malformed API key")
  | some (id, secret) => do
      let record ← service.recordOf data id
      if service.sealMatches digests id secret record then
        if expiresOf record < now then
          .error (.unauthorized "API key expired")
        else
          .ok (principalOf id record, expiresOf record)
      else
        .error (.unauthorized "unknown or revoked API key")

end ApiKeysService

/-- The key in a request's authorization. -/
def bearerKey (msg : Message) : Option Str :=
  (((msg.header "authorization").bind (stripStart "Bearer ")).map trim).filter fun key =>
    apiKeyStart.isPrefixOf key

end Rs2Runtime.Services
