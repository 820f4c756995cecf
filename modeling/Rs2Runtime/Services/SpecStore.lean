import Rs2Runtime.Json.WellFormed
import Rs2Runtime.Services.File
import Rs2Runtime.Wrapper.Access

/-!
Contract: stores of instruction documents, authored through the file service.

Owns:
- validators of documents, which keep their `access` member, and the validators of pipelines and
  templates;
- reading a stored document with the cache of resolutions, whatever the storage answers, and the
  loop over the prefixes of a request's segments;
- both over the files of a store, whose cache tells what they hold;
- the authority gate and validation of writes, and delegation to the file service.
-/

namespace Rs2Runtime.Services

open Text Data Json Capabilities Wrapper
open Data.Outcome (require)

/-! ## Validators -/

/-- A validator of documents: what it returns is stored. -/
structure SpecValidator where
  validate : Value → Except RsError Value
  keepsAccess : ∀ doc stored, validate doc = .ok stored →
    stored.get? "access" = doc.get? "access"
  wellFormed : ∀ doc stored, doc.WellFormed → validate doc = .ok stored → stored.WellFormed

/-- The shape of an envelope's `access` member. -/
def validateAccessShape : Value → Except RsError Unit
  | .str policy =>
    if policy = "open" ∨ policy = "authenticated" then
      .ok ()
    else
      .error (.badRequest (("unknown access policy '" : Str) ++ policy ++
        ("' (expected \"open\" or \"authenticated\")" : Str)))
  | .obj roles =>
    roles.forM fun entry => do
      let _ ← require (entry.1 ∈ [("read" : Str), "write", "delete", "invoke"])
        (RsError.badRequest (("unknown access key '" : Str) ++ entry.1 ++
          ("' (allowed: read, write, delete, invoke)" : Str)))
      require entry.2.asStr.isSome
        (RsError.badRequest (("access '" : Str) ++ entry.1 ++
          ("' must be a role-spec string" : Str)))
  | _ => .error (.badRequest "'access' must be a string or role object")

/-- Reading of a pipeline into its typed form, and of a retry policy. -/
structure PipelineReader where
  typed : Value → Except RsError Value
  typedWellFormed : ∀ spec form, typed spec = .ok form → form.WellFormed
  retry : Value → Except RsError Unit

def pipelineMember (fields : Object) : Except RsError Value :=
  match OrderedMap.get? fields "pipeline" with
  | some spec => .ok spec
  | none => .error (.badRequest "pipeline envelope requires a 'pipeline'")

/-- The checks of a pipeline envelope; the typed form is what gets stored. -/
def validatePipeline (reader : PipelineReader) (doc : Value) : Except RsError Value :=
  match doc with
  | .obj fields => do
      let spec ← pipelineMember fields
      let form ← reader.typed spec
      let _ ← ((OrderedMap.get? fields "retry").map reader.retry).getD (.ok ())
      let _ ← ((OrderedMap.get? fields "access").map validateAccessShape).getD (.ok ())
      return .obj (OrderedMap.insert fields "pipeline" form)
  | _ => .error (.badRequest "a stored pipeline is a JSON object envelope")

theorem validatePipeline_eq_ok {reader : PipelineReader} {doc stored : Value}
    (valid : validatePipeline reader doc = .ok stored) :
    ∃ fields spec form, doc = .obj fields ∧ reader.typed spec = .ok form ∧
      stored = .obj (OrderedMap.insert fields "pipeline" form) := by
  cases doc with
  | obj fields =>
    simp only [validatePipeline, Outcome.bind_eq_ok, Outcome.pure_eq_ok] at valid
    obtain ⟨spec, -, form, typed, -, -, -, -, rfl⟩ := valid
    exact ⟨fields, spec, form, rfl, typed, rfl⟩
  | null | bool _ | num _ | str _ | arr _ => cases valid

/-- The validator of stored pipelines. -/
def pipelineValidator (reader : PipelineReader) : SpecValidator where
  validate := validatePipeline reader
  keepsAccess := by
    intro doc stored valid
    obtain ⟨fields, spec, form, rfl, -, rfl⟩ := validatePipeline_eq_ok valid
    rw [Value.get?_obj, Value.get?_obj, OrderedMap.get?_insert_of_ne _ _ (by decide)]
  wellFormed := by
    intro doc stored wellFormed valid
    obtain ⟨fields, spec, form, rfl, typed, rfl⟩ := validatePipeline_eq_ok valid
    exact ⟨wellFormed.1.insert _ _,
      Value.wellFormedFields_insert wellFormed.2 (reader.typedWellFormed spec form typed)⟩

/-- A validator that stores what it checked. -/
def checkingValidator (check : Value → Except RsError Unit) : SpecValidator where
  validate := fun doc => (check doc).map fun _ => doc
  keepsAccess := by
    intro doc stored valid
    obtain ⟨-, -, rfl⟩ := Outcome.map_eq_ok.mp valid
    rfl
  wellFormed := by
    intro doc stored wellFormed valid
    obtain ⟨-, -, rfl⟩ := Outcome.map_eq_ok.mp valid
    exact wellFormed

/-- The validator of stored templates. -/
def templateValidator : SpecValidator :=
  checkingValidator fun doc =>
    require (((doc.get? "source").bind Value.asStr).any fun source => trim source ≠ [])
      (RsError.badRequest
        "template envelope must be a JSON object with a non-empty \"source\" string (the compiled bundle from `rs2 template build`)")

/-! ## Stored documents -/

/-- A store of instruction documents under a reserved subtree of its mount.  The limit is that
of materialized bodies; the last three fields are what the file service takes from its
surroundings. -/
structure SpecStore where
  codec : Codec
  subtree : Str
  validator : SpecValidator
  operatorRoles : Str
  materializedBodyBytes : Nat
  version : Octets → Str
  canonicalExtension : Str → Option Str
  serve : Message → FileMap → Except RsError Message

namespace SpecStore

variable (store : SpecStore)

/-- Read a document from its octets. -/
def decode (octets : Octets) : Except RsError Value :=
  if store.materializedBodyBytes < octets.length then
    .error (Body.tooLarge octets.length store.materializedBodyBytes)
  else
    match store.codec.parse octets with
    | some doc => .ok doc
    | none =>
      .error (.internal (("stored spec is corrupt: " : Str) ++ store.codec.parseError octets))

/-- The document stored at a path, none where there is no file. -/
def lookup (map : FileMap) (path : Str) : Except RsError (Option Value) :=
  match map.content path with
  | none => .ok none
  | some octets => (store.decode octets).map some

/-- The document a body holds. -/
def parseBody (body : Body) : Except RsError Value :=
  match body.materialize store.materializedBodyBytes with
  | .error e => .error e
  | .ok (octets, _) =>
    match store.codec.parse octets with
    | some doc => .ok doc
    | none =>
      .error (.internal (("stored spec is corrupt: " : Str) ++ store.codec.parseError octets))

theorem parseBody_fromBytes (octets : Octets) (mediaType : MediaType) :
    store.parseBody (Body.fromBytes octets mediaType) = store.decode octets := by
  rw [parseBody, decode, Body.fromBytes, Body.materialize]
  dsimp only
  by_cases large : store.materializedBodyBytes < octets.length
  · rw [if_pos large, if_pos large]
  · rw [if_neg large, if_neg large]

/-! ## Reading through the cache -/

/-- The cache of resolutions; no document stands for a known absence. -/
abbrev Cache := OrderedMap Str (Option Value)

/-- The most resolutions that are cached. -/
def specCacheCap : Nat := 1024

/-- Cache a resolution; a full cache is cleared first. -/
def cacheInsert (cache : Cache) (path : Str) (entry : Option Value) : Cache :=
  OrderedMap.insert (if specCacheCap ≤ cache.length then [] else cache) path entry

variable {cache : Cache} {map : FileMap}

theorem get?_cacheInsert {path other : Str} {entry found : Option Value}
    (cached : (cacheInsert cache path entry).get? other = some found) :
    other = path ∧ found = entry ∨ cache.get? other = some found := by
  rw [cacheInsert, OrderedMap.get?_insert] at cached
  split at cached
  · next same =>
      cases cached
      exact .inl ⟨same, rfl⟩
  · split at cached
    · cases cached
    · exact .inr cached

def notStored (path : Str) : RsError :=
  .notFound (("no stored spec at '" : Str) ++ path ++ ("'" : Str))

/-- Read one stored document through the cache, with what the storage answers.  Whatever error it
answers is cached as absence; a body that cannot be read or parsed is not cached. -/
def readThrough (answer : Except RsError Body) (path : Str) (cache : Cache) :
    Except RsError Value × Cache :=
  match cache.get? path with
  | some (some doc) => (.ok doc, cache)
  | some none => (.error (notStored path), cache)
  | none =>
    match answer with
    | .error _ => (.error (notStored path), cacheInsert cache path none)
    | .ok body =>
      match store.parseBody body with
      | .error e => (.error e, cache)
      | .ok doc => (.ok doc, cacheInsert cache path (some doc))

def rootSpec : Str := ".root"

/-- The path that is tried for the first `split` segments. -/
def candidate (segments : List Str) : Nat → Str
  | 0 => '/' :: rootSpec
  | split + 1 => '/' :: join ['/'] (segments.take (split + 1))

/-- Execution resolution: the longest prefix that is read wins, from the first `split` segments
down, then the root's document.  `answers` has the answer to the read of each; the number returned
is that of the segments consumed. -/
def resolveThrough (answers : Nat → Except RsError Body) (segments : List Str) :
    (split : Nat) → Cache → Option (Value × Nat) × Cache
  | 0, cache =>
    match store.readThrough (answers 0) (candidate segments 0) cache with
    | (.ok doc, cache) => (some (doc, 0), cache)
    | (.error _, cache) => (none, cache)
  | split + 1, cache =>
    match store.readThrough (answers (split + 1)) (candidate segments (split + 1)) cache with
    | (.ok doc, cache) => (some (doc, split + 1), cache)
    | (.error _, cache) => resolveThrough answers segments split cache

/-! ## The store with its files -/

/-- What the files answer to a read; the media type plays no part. -/
def answer (map : FileMap) (path : Str) : Except RsError Body :=
  (FileMap.read store.version path map).map fun file => Body.fromBytes file.octets .json

/-- Every entry of the cache is what a lookup gives. -/
def Fresh (map : FileMap) (cache : Cache) : Prop :=
  ∀ path entry, cache.get? path = some entry → store.lookup map path = .ok entry

/-- The files with the cache of resolutions. -/
structure State where
  map : FileMap
  cache : Cache
  fresh : store.Fresh map cache

variable {store}

/-- Files without cached resolutions. -/
def State.ofMap (map : FileMap) : store.State where
  map := map
  cache := []
  fresh := nofun

theorem Fresh.cacheInsert {path : Str} {entry : Option Value} (fresh : store.Fresh map cache)
    (current : store.lookup map path = .ok entry) :
    store.Fresh map (cacheInsert cache path entry) := by
  intro other found cached
  rcases get?_cacheInsert cached with ⟨rfl, rfl⟩ | before
  · exact current
  · exact fresh other found before

/-- A read of the files tells what a lookup gives, and so does the cache it leaves. -/
theorem readThrough_answer (fresh : store.Fresh map cache) (path : Str) :
    (store.readThrough (store.answer map path) path cache).1 =
        (store.lookup map path).bind (fun found => found.elim (.error (notStored path)) .ok) ∧
      store.Fresh map (store.readThrough (store.answer map path) path cache).2 := by
  unfold readThrough
  split
  · next doc cached =>
      rw [fresh path _ cached]
      exact ⟨rfl, fresh⟩
  · next cached =>
      rw [fresh path _ cached]
      exact ⟨rfl, fresh⟩
  · cases held : map.content path with
    | none =>
      have absent : store.lookup map path = .ok none := by
        rw [lookup, held]
      rw [answer, FileMap.read, held, absent]
      exact ⟨rfl, fresh.cacheInsert absent⟩
    | some octets =>
      have looked : store.lookup map path = (store.decode octets).map some := by
        rw [lookup, held]
      rw [answer, FileMap.read, held, looked]
      dsimp only [Except.map]
      rw [parseBody_fromBytes]
      cases decoded : store.decode octets with
      | error e => exact ⟨rfl, fresh⟩
      | ok doc => exact ⟨rfl, fresh.cacheInsert (by rw [looked, decoded]; rfl)⟩

theorem fresh_resolveThrough (fresh : store.Fresh map cache) (segments : List Str) (split : Nat) :
    store.Fresh map (store.resolveThrough (fun split => store.answer map (candidate segments split))
      segments split cache).2 := by
  induction split generalizing cache with
  | zero =>
    have kept := (readThrough_answer fresh (candidate segments 0)).2
    rw [resolveThrough]
    split
    all_goals
      next ran =>
        rw [ran] at kept
        exact kept
  | succ split ih =>
    have kept := (readThrough_answer fresh (candidate segments (split + 1))).2
    rw [resolveThrough]
    split
    · next ran =>
        rw [ran] at kept
        exact kept
    · next ran =>
        rw [ran] at kept
        exact ih kept

/-- Read one stored document of the files. -/
def read (path : Str) : Effect RsError store.State Value := fun state =>
  ((store.readThrough (store.answer state.map path) path state.cache).1,
    ⟨state.map, _, (readThrough_answer state.fresh path).2⟩)

/-- Execution resolution over the files. -/
def resolve (segments : List Str) (split : Nat) :
    Effect RsError store.State (Option (Value × Nat)) := fun state =>
  (.ok (store.resolveThrough (fun split => store.answer state.map (candidate segments split))
      segments split state.cache).1,
    ⟨state.map, _, fresh_resolveThrough state.fresh segments split⟩)

/-! ## Authoring -/

variable (store)

/-- Whether a request enters the authoring subtree. -/
def isAuthoring (msg : Message) : Bool :=
  msg.url.serviceSegments.head? = some store.subtree

/-- The request with its paths relative to the authoring subtree. -/
def inner (msg : Message) : Message :=
  { msg with url := msg.url.applyMount (msg.url.basePath ++ '/' :: store.subtree) }

/-- Whether a request is taken for a write of a document. -/
def isWrite (msg : Message) : Bool :=
  msg.method = .put || (msg.method = .post && msg.url.isDirectory)

def accessOf (doc : Option Value) : Option Value :=
  doc.bind fun doc => doc.get? "access"

/-- Only an operator changes the `access` of a document. -/
def checkAuthority (msg : Message) (doc : Value) (existing : Option Value) :
    Except RsError Unit :=
  require (accessOf (some doc) = accessOf existing ∨
      isOperator msg.principal store.operatorRoles = true)
    (RsError.forbidden
      "setting or changing a spec's 'access' requires an operator (operatorRoles)")

/-- The document a write carries. -/
def bodyDoc (msg : Message) : Except RsError Value :=
  match msg.body with
  | some body => (body.asJson store.codec store.materializedBodyBytes).map Prod.fst
  | none => .error (.badRequest "spec write requires a JSON body")

/-- Hold a write to the gate and replace its body by what the validator returns. -/
def admitWrite (msg : Message) : Effect RsError store.State Message := do
  let doc ← Effect.ofExcept (store.bodyDoc msg)
  let existing ← Effect.attempt (read msg.url.servicePath)
  let _ ← Effect.ofExcept (store.checkAuthority msg doc existing.toOption)
  let canonical ← Effect.ofExcept (store.validator.validate doc)
  return { msg with body := some (Body.fromString (store.codec.print canonical) .json) }

def prepare (msg : Message) : Effect RsError store.State Message :=
  if isWrite msg then store.admitWrite msg else pure msg

/-- The private file service, without options. -/
def files : FileService := ⟨.default⟩

def host (freshName : Str) : FileHost FileMap where
  canonicalExtension := store.canonicalExtension
  freshName := freshName
  serve := store.serve

/-- Hand the request to the file service; whatever is no read clears the cache. -/
def delegate (freshName : Str) (msg : Message) : Effect RsError store.State Message := fun state =>
  let result := files.handle (store.host freshName) (FileMap.store store.version) msg state.map
  if msg.method = .get ∨ msg.method = .head then
    (result.1, state)
  else
    (result.1, State.ofMap result.2)

/-- Documents are served as JSON, and an empty store as an empty listing. -/
def present (msg : Message) : Except RsError Message → Except RsError Message
  | .ok response =>
    if msg.method = .get ∧ msg.url.isDirectory = false then
      .ok { response with body := response.body.map fun body => { body with mediaType := .json } }
    else
      .ok response
  | .error e =>
    if msg.method = .get ∧ msg.url.isDirectory ∧ e.code = .notFound then
      let listing := Value.object [("path", .str msg.url.servicePath), ("entries", .arr []),
        ("total", RsError.natValue 0)]
      .ok ((msg.ok (some (Body.fromString (store.codec.print listing) .dirJson))).setHeader
        "x-total-count" "0")
    else
      .error e

/-- Handle an authoring request. -/
def handleAuthoring (freshName : Str) (msg : Message) : Effect RsError store.State Message := do
  let prepared ← store.prepare (store.inner msg)
  let result ← Effect.attempt (store.delegate freshName prepared)
  Effect.ofExcept (store.present prepared result)

end SpecStore

end Rs2Runtime.Services
